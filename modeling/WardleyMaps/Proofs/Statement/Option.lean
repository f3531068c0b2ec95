/-
Module: WardleyMaps.Proofs.Statement.Option
Purpose: What the readers of options find in tails that are put together from parts.
Main exports: Breaks, givenLabel?, hasInertia_iff, hasInertia_append, readInlineEvolution_append,
  parenthesisGroups_group, parenthesisGroups_append_close, decoratorWords, readDecorators_eq
-/
import WardleyMaps.Proofs.Number.Scan
import WardleyMaps.Proofs.Statement.Coordinates
import WardleyMaps.Proofs.Text.Word

namespace WardleyMaps

open Text

/-!
Every option is looked for in the whole tail, and no reader knows of the others. What makes them
find their own text only is that parentheses, brackets and commas belong to no word and no numeral
(`Breaks`): a tail with one of them is searched part by part (`hasInertia_append`,
`readInlineEvolution_append`). Decorators alone are found by parentheses, which are paired from left
to right.
-/

/-- Characters that end words and numerals, and are no blanks. -/
structure Breaks (c : Char) : Prop where
  word : isWord c = false
  numeral : ¬ NumeralChar c
  blank : isBlank c = false

/-- Parentheses, brackets and the comma. -/
def breakChars : List Char :=
  ['(', ')', '[', ']', ',']

theorem breaks_of_mem : ∀ c ∈ breakChars, Breaks c := by
  intro c hc
  have hword : ∀ c ∈ breakChars, isWord c = false ∧ isBlank c = false := by
    simp only [breakChars, List.forall_mem_cons,
      List.not_mem_nil, false_implies, implies_true, and_true]
    decide
  have hnumeral : ∀ c ∈ breakChars, ¬ NumeralChar c := by
    simp only [breakChars, NumeralChar, List.forall_mem_cons,
      List.not_mem_nil, false_implies, implies_true, and_true]
    decide +kernel
  exact ⟨(hword c hc).1, hnumeral c hc, (hword c hc).2⟩

theorem wordText_label : WordText "label".toList := by decide

theorem wordText_inertia : WordText "inertia".toList := by decide

theorem wordText_evolve : WordText "evolve".toList := by decide

theorem wordText_url : WordText "url".toList := by decide

/-! ### Labels, inertia and evolution -/

/-- What the bracket of a label holds, after its keyword and perhaps blanks. -/
theorem labelInside?_bracket {gap inside : Text} (hgap : Blank gap) (hinside : ']' ∉ inside)
    (rest : Text) : labelInside? (gap ++ '[' :: (inside ++ ']' :: rest)) = some inside := by
  have hopen : trimStart (gap ++ '[' :: (inside ++ ']' :: rest)) =
      '[' :: (inside ++ ']' :: rest) := by
    rw [trimStart_append_of_blank hgap]
    exact trimStart_append_cons (by decide) [] _
  rw [labelInside?, hopen]
  simp only [cutAt_append hinside, Option.map_some]

theorem labelInside?_eq_none {t : Text} (h : (trimStart t).head? ≠ some '[') :
    labelInside? t = none := by
  unfold labelInside?
  split
  · next rest hopen =>
    rw [hopen] at h
    exact absurd rfl h
  · rfl

/-- The offset of a label, none if the bracket cannot be read. -/
def offset? (inside : Text) : Option LabelOffset :=
  (readPair "label offset" inside).toOption.map fun (x, y) => { x, y }

/-- The first label of a tail; it may be one that cannot be read. -/
def givenLabel? (tail : Text) : Option (Option LabelOffset) :=
  (findWord "label".toList labelInside? tail).map offset?

/-- The label whose keyword a text follows. -/
def labelAt? (t : Text) : Option (Option LabelOffset) :=
  (labelInside? t).map offset?

theorem labelAt?_eq_none {t : Text} (h : (trimStart t).head? ≠ some '[') : labelAt? t = none := by
  rw [labelAt?, labelInside?_eq_none h, Option.map_none]

theorem labelAt?_opened {t rest : Text} (h : trimStart t = '[' :: rest) :
    labelAt? t = (cutAt ']' rest).map fun parts => offset? parts.1 := by
  rw [labelAt?, labelInside?, h]
  exact Option.map_map ..

theorem givenLabel?_eq (tail : Text) :
    givenLabel? tail = findWord "label".toList labelAt? tail :=
  findWord_map _ _ _ _

theorem toOption_readLabel (spacing : Nat) (tail : Text) :
    (readLabel spacing tail).toOption =
      (givenLabel? tail).getD (some (LabelOffset.standard.spread spacing)) := by
  rw [readLabel, readGivenLabel, givenLabel?]
  cases findWord "label".toList labelInside? tail with
  | none => rfl
  | some inside =>
      rw [Option.map_some, Option.getD_some, offset?]
      simp only
      cases readPair "label offset" inside <;> rfl

theorem readLabel_eq_ok {spacing : Nat} {tail : Text} {label : LabelOffset} :
    readLabel spacing tail = .ok label ↔
      (givenLabel? tail).getD (some (LabelOffset.standard.spread spacing)) = some label := by
  rw [← toOption_readLabel]
  cases readLabel spacing tail <;> simp [Except.toOption]

theorem hasInertia_iff {t : Text} : hasInertia t = true ↔ HoldsWord "inertia".toList t := by
  rw [holdsWord_iff wordText_inertia.ne_nil, hasInertia, Option.isSome_iff_ne_none]

theorem hasInertia_append {c : Char} (hc : isWord c = false) (a b : Text) :
    hasInertia (a ++ c :: b) = (hasInertia a || hasInertia b) := by
  rw [Bool.eq_iff_iff, Bool.or_eq_true, hasInertia_iff, hasInertia_iff, hasInertia_iff,
    holdsWord_append_cons wordText_inertia hc]

/-! What is looked for behind a keyword begins no word. -/

theorem labelInside?_of_startsWord {t : Text} (h : startsWord t = true) :
    labelInside? t = none := by
  cases t with
  | nil => rfl
  | cons c rest =>
      have hc : isBlank c = false := by
        by_contra hblank
        rw [startsWord, isWord_of_isBlank (Bool.not_eq_false _ ▸ hblank)] at h
        cases h
      apply labelInside?_eq_none
      rw [trimStart_eq_self_of_head hc, List.head?_cons, ne_eq, Option.some.injEq]
      rintro rfl
      rw [startsWord, (breaks_of_mem '[' (by decide)).word] at h
      cases h

theorem parenthesised?_of_startsWord {t : Text} (h : startsWord t = true) :
    parenthesised? t = none := by
  unfold parenthesised?
  split
  · rw [startsWord, (breaks_of_mem '(' (by decide)).word] at h
    cases h
  · rfl

theorem numeralAfterBlank?_of_startsWord {t : Text} (h : startsWord t = true) :
    numeralAfterBlank? t = none := by
  cases t with
  | nil => rfl
  | cons c rest =>
      rw [numeralAfterBlank?, if_neg]
      intro hblank
      rw [startsWord, isWord_of_isBlank hblank] at h
      cases h

theorem numeralAfterBlank?_append {c : Char} (hc : Breaks c) (t b : Text) :
    numeralAfterBlank? (t ++ c :: b) = numeralAfterBlank? t := by
  cases t with
  | nil => simp [numeralAfterBlank?, hc.blank]
  | cons d rest =>
      rw [List.cons_append, numeralAfterBlank?, numeralAfterBlank?, trimStart_append_cons hc.blank,
        Numeral.scan_append hc.numeral, Option.map_map]
      rfl

theorem readInlineEvolution_append {c : Char} (hc : Breaks c) (a b : Text) :
    readInlineEvolution (a ++ c :: b) = (readInlineEvolution a).or (readInlineEvolution b) :=
  findWord_append_of_local wordText_evolve hc.word (fun t => numeralAfterBlank?_append hc t b) a

/-- A numeral with blanks in front of it is read up to the blank behind it. -/
theorem numeralAfterBlank?_numeral {gap t rest : Text} {x : Double} (hgap : Blank gap)
    (hne : gap ≠ []) (ht : Double.read? (trim t) = some x)
    (hrest : ∀ c ∈ rest.head?, isBlank c = true) :
    numeralAfterBlank? (gap ++ (trim t ++ rest)) = some x := by
  obtain ⟨n, hscan, hvalue⟩ := Numeral.exists_scan_append ht hrest
  obtain ⟨c, others, rfl⟩ := List.exists_cons_of_ne_nil hne
  have hc : isBlank c = true := hgap c List.mem_cons_self
  have hnumeral : trim t ≠ [] := by
    intro hnil
    rw [hnil] at ht
    cases ht
  obtain ⟨d, digits, hcons⟩ := List.exists_cons_of_ne_nil hnumeral
  have hstart : trimStart (others ++ (trim t ++ rest)) = trim t ++ rest := by
    have hd : isBlank d = false := (trimmed_trim t).head d (by rw [hcons]; rfl)
    rw [trimStart_append_of_blank hgap.tail, hcons]
    exact trimStart_eq_self_of_head hd
  rw [List.cons_append, numeralAfterBlank?, if_pos hc, hstart, hscan, Option.map_some, hvalue]

/-! ### Parentheses -/

theorem not_mem_url_of_isBlank {c : Char} (hc : isBlank c = true) : c ∉ "url(".toList := by
  have hnone : ∀ d ∈ "url(".toList, isBlank d = false := by
    simp only [String.reduceToList, List.forall_mem_cons,
      List.not_mem_nil, false_implies, implies_true, and_true]
    decide
  intro hmem
  rw [hnone c hmem] at hc
  cases hc

theorem parenthesisGroups_url (t : Text) :
    parenthesisGroups ("url(".toList ++ t) = parenthesisGroups t := by
  have hafter : after? "url(".toList ('u' :: ("rl(".toList ++ t)) = some t :=
    after?_append "url(".toList t
  change parenthesisGroups ('u' :: ("rl(".toList ++ t)) = _
  rw [parenthesisGroups]
  split
  · next later hlater =>
    obtain rfl : t = later := Option.some.inj (hafter.symm.trans hlater)
    rfl
  · next hnone =>
    rw [hafter] at hnone
    cases hnone

/-- A character that begins neither a reference nor a group is passed over. -/
theorem parenthesisGroups_cons {c : Char} {t : Text} (hc : c ≠ '(')
    (hurl : after? "url(".toList (c :: t) = none) :
    parenthesisGroups (c :: t) = parenthesisGroups t := by
  rw [parenthesisGroups]
  split
  · next later hlater =>
    rw [hurl] at hlater
    cases hlater
  · rw [if_neg hc]

theorem parenthesisGroups_group {inside : Text} (h : ')' ∉ inside) (t : Text) :
    parenthesisGroups ('(' :: (inside ++ ')' :: t)) = inside :: parenthesisGroups t := by
  rw [parenthesisGroups]
  split
  · next later hlater => simp [after?] at hlater
  · rw [if_pos rfl]
    split
    · next inner later hcut =>
      obtain ⟨rfl, rfl⟩ := Prod.mk.inj (Option.some.inj ((cutAt_append h t).symm.trans hcut))
      rfl
    · next hcut =>
      rw [cutAt_append h] at hcut
      cases hcut

/-- Behind a closing parenthesis groups are looked for anew. -/
theorem parenthesisGroups_append_close (a b : Text) :
    parenthesisGroups (a ++ ')' :: b) =
      parenthesisGroups (a ++ [')']) ++ parenthesisGroups b := by
  have hclose : ∀ t, parenthesisGroups (')' :: t) = parenthesisGroups t := fun t =>
    parenthesisGroups_cons (by decide) (after?_cons_ne (by decide) _ _)
  induction a using parenthesisGroups.induct with
  | case1 =>
      rw [List.nil_append, List.nil_append, hclose, hclose]
      simp [parenthesisGroups]
  | case2 c rest later hurl _ ih =>
      rw [after?_eq_some.1 hurl, List.append_assoc, List.append_assoc, parenthesisGroups_url,
        parenthesisGroups_url, ih]
  | case3 rest inside later hcut _ _ ih =>
      obtain ⟨rfl, hinside⟩ := cutAt_eq_some hcut
      rw [List.cons_append, List.cons_append, List.append_assoc, List.append_assoc,
        List.cons_append, List.cons_append, parenthesisGroups_group hinside,
        parenthesisGroups_group hinside, ih, List.cons_append]
  | case4 rest hcut _ =>
      have hrest : ')' ∉ rest := cutAt_eq_none_iff.1 hcut
      rw [List.cons_append, List.cons_append, parenthesisGroups_group hrest,
        parenthesisGroups_group hrest]
      simp [parenthesisGroups]
  | case5 c rest hurl hc ih =>
      have happend : ∀ t, after? "url(".toList (c :: (rest ++ ')' :: t)) = none := by
        intro t
        rw [← List.cons_append, after?_append_cons (by decide), hurl]
        rfl
      rw [List.cons_append, List.cons_append, parenthesisGroups_cons hc (happend b),
        parenthesisGroups_cons hc (happend []), ih]

/-- No group opens in a text without an opening parenthesis, nor at its end. -/
theorem parenthesisGroups_append_of_unopened {a : Text} (h : '(' ∉ a) {c : Char}
    (hc : c ∉ "url(".toList) (b : Text) :
    parenthesisGroups (a ++ c :: b) = parenthesisGroups b := by
  induction a with
  | nil =>
      simp only [String.reduceToList, List.mem_cons, not_or] at hc
      exact parenthesisGroups_cons hc.2.2.2.1 (after?_cons_ne (Ne.symm hc.1) _ _)
  | cons d rest ih =>
      have hurl : after? "url(".toList (d :: (rest ++ c :: b)) = none := by
        rw [← List.cons_append, after?_append_cons hc, Option.map_eq_none_iff,
          Option.eq_none_iff_forall_ne_some]
        intro later hlater
        rw [after?_eq_some.1 hlater] at h
        exact h (by simp)
      rw [List.mem_cons, not_or] at h
      rw [List.cons_append, parenthesisGroups_cons (Ne.symm h.1) hurl, ih h.2]

theorem parenthesisGroups_prepend_of_blank {lead : Text} (hlead : Blank lead) (t : Text) :
    parenthesisGroups (lead ++ t) = parenthesisGroups t := by
  induction lead with
  | nil => rfl
  | cons c rest ih =>
      have hc : isBlank c = true := hlead c List.mem_cons_self
      have hurl : after? "url(".toList (c :: (rest ++ t)) = none :=
        after?_cons_ne (Ne.symm (ne_of_isBlank hc (by decide))) _ _
      rw [List.cons_append, parenthesisGroups_cons (ne_of_isBlank hc (by decide)) hurl,
        ih hlead.tail]

theorem parenthesisGroups_of_unopened {a : Text} (h : '(' ∉ a) : parenthesisGroups a = [] := by
  induction a using parenthesisGroups.induct with
  | case1 => rw [parenthesisGroups]
  | case2 c rest later hurl _ _ =>
      rw [after?_eq_some.1 hurl] at h
      exact absurd (List.mem_append_left _ (by decide)) h
  | case3 rest inside later hcut _ _ _ => exact absurd List.mem_cons_self h
  | case4 rest hcut _ => exact absurd List.mem_cons_self h
  | case5 c rest hurl hc ih =>
      rw [parenthesisGroups_cons hc hurl, ih fun hmem => h (List.mem_cons_of_mem _ hmem)]

/-! ### Decorators -/

/-- A decorator as it is written in small letters. -/
def DecoratorWord.name : DecoratorWord → Text
  | .ecosystem => "ecosystem".toList
  | .market => "market".toList
  | .buy => "buy".toList
  | .build => "build".toList
  | .outsource => "outsource".toList
  | .inertia => "inertia".toList

theorem DecoratorWord.read?_eq_some_iff {t : Text} {word : DecoratorWord} :
    DecoratorWord.read? t = some word ↔ (trim t).map foldCase = word.name := by
  constructor
  · intro h
    simp only [DecoratorWord.read?] at h
    split_ifs at h with h₁ h₂ h₃ h₄ h₅ h₆
    · exact Option.some.inj h ▸ h₁
    · exact Option.some.inj h ▸ h₂
    · exact Option.some.inj h ▸ h₃
    · exact Option.some.inj h ▸ h₄
    · exact Option.some.inj h ▸ h₅
    · exact Option.some.inj h ▸ h₆
  · intro h
    rw [DecoratorWord.read?, h]
    cases word <;> decide

/-- The characters of a decorator are letters of its name, in either case, and blanks. -/
theorem DecoratorWord.char_of_read? {t : Text} {word : DecoratorWord}
    (h : DecoratorWord.read? t = some word) {c : Char} (hc : c ∈ t) :
    isBlank c = true ∨ foldCase c ∈ word.name := by
  obtain ⟨lead, trail, hlead, htrail, ht⟩ := exists_trim t
  rw [ht, List.mem_append, List.mem_append] at hc
  rcases hc with (hc | hc) | hc
  · exact .inl (hlead c hc)
  · right
    rw [← DecoratorWord.read?_eq_some_iff.1 h]
    exact List.mem_map_of_mem hc
  · exact .inl (htrail c hc)

theorem DecoratorWord.break_not_mem {t : Text} {word : DecoratorWord}
    (h : DecoratorWord.read? t = some word) : ∀ c ∈ breakChars, c ∉ t := by
  intro c hc hmem
  rcases DecoratorWord.char_of_read? h hmem with hblank | hletter
  · rw [(breaks_of_mem c hc).blank] at hblank
    cases hblank
  · have hnone : ∀ c ∈ breakChars, ∀ word : DecoratorWord, foldCase c ∉ word.name := by
      simp only [breakChars, List.forall_mem_cons, List.not_mem_nil, false_implies, implies_true,
        and_true]
      refine ⟨?_, ?_, ?_, ?_, ?_⟩ <;> intro word <;> cases word <;> decide
    exact hnone c hc word hletter

/-- The decorators among the words of all parentheses, one after the other. -/
def decoratorWords (t : Text) : List DecoratorWord :=
  ((parenthesisGroups t).flatMap (·.splitOn ',')).filterMap DecoratorWord.read?

/-- What decorators say together: the union of their flags, and the largest of their spacings. -/
def DecoratorReading.ofWords (words : List DecoratorWord) : DecoratorReading :=
  { decorators :=
      { ecosystem := words.contains .ecosystem
        market := words.contains .market
        buy := words.contains .buy
        build := words.contains .build
        outsource := words.contains .outsource }
    spacing := (words.map DecoratorWord.spacing).max?.getD 0
    inertia := words.contains .inertia }

theorem foldl_raise (words : List DecoratorWord) (d : Decorators) :
    words.foldl Decorators.raise d =
      { ecosystem := d.ecosystem || words.contains .ecosystem
        market := d.market || words.contains .market
        buy := d.buy || words.contains .buy
        build := d.build || words.contains .build
        outsource := d.outsource || words.contains .outsource } := by
  induction words generalizing d with
  | nil => simp
  | cons word others ih =>
      rw [List.foldl_cons, ih]
      cases word <;> simp [Decorators.raise]

theorem foldl_spacing (words : List DecoratorWord) :
    words.foldl (fun most word => max most word.spacing) 0 =
      (words.map DecoratorWord.spacing).max?.getD 0 := by
  rw [← List.foldl_map]
  cases words.map DecoratorWord.spacing with
  | nil => rfl
  | cons first others => rw [List.foldl_cons, Nat.zero_max, List.max?_cons', Option.getD_some]

theorem readDecorators_eq (t : Text) : readDecorators t = .ofWords (decoratorWords t) := by
  have hreading : readDecorators t =
      { decorators := (decoratorWords t).foldl Decorators.raise {}
        spacing := (decoratorWords t).foldl (fun most word => max most word.spacing) 0
        inertia := (decoratorWords t).contains .inertia } := rfl
  rw [hreading, foldl_raise, foldl_spacing]
  simp [DecoratorReading.ofWords]

/-- Decorators never say nothing. -/
theorem eq_nil_of_ofWords {words : List DecoratorWord}
    (h : DecoratorReading.ofWords words = .ofWords []) : words = [] := by
  rw [List.eq_nil_iff_forall_not_mem]
  intro word hword
  simp only [DecoratorReading.ofWords, DecoratorReading.mk.injEq, Decorators.mk.injEq] at h
  obtain ⟨⟨hecosystem, hmarket, hbuy, hbuild, houtsource⟩, -, hinertia⟩ := h
  cases word <;> simp_all

end WardleyMaps
