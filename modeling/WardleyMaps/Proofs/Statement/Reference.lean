/-
Module: WardleyMaps.Proofs.Statement.Reference
Purpose: When the text of a reference is read as nothing else.
Main exports: HoldsNoOption, SameOptions, sameOptions_reference, ReferenceHead, OpaqueReference,
  opaqueReference_iff
-/
import WardleyMaps.Proofs.Statement.Numerals
import WardleyMaps.Proofs.Statement.Option

namespace WardleyMaps

open Text

/-!
The reader of decorators passes over the parenthesis of a reference, and the other readers do not
know of references at all. So the text of a reference counts as options of the component, as far as
it holds any (`HoldsNoOption`): a bracket in it may close a label before it, and words of it may be
decorators of a parenthesis that is open before it. A reference without all this leaves every other
field of its component alone (`sameOptions_reference`), and no other reference does so on all lines
(`opaqueReference_iff`).
-/

/-! ### Lines with a reference -/

/-- What follows a head with a reference: the reference and the rest of the line. -/
def referenceText (ref tail : Text) : Text :=
  "url".toList ++ '(' :: (ref ++ ')' :: tail)

/-- A line with a reference. -/
def referenceLine (head ref tail : Text) : Text :=
  head ++ referenceText ref tail

theorem append_referenceText (a : Text) (c : Char) (ref tail : Text) :
    a ++ c :: referenceText ref tail =
      (a ++ c :: "url".toList) ++ '(' :: (ref ++ ')' :: tail) := by
  simp [referenceText]

/-- The bracket of a label opens. -/
def labelOpen? (t : Text) : Option Unit :=
  if (trimStart t).head? = some '[' then some () else none

/-- Texts in which no reader of options finds anything, whatever stands around them. -/
structure HoldsNoOption (ref : Text) : Prop where
  bracket : ']' ∉ ref
  label : findWord "label".toList labelOpen? ref = none
  inertia : ¬ HoldsWord "inertia".toList ref
  evolution : readInlineEvolution ref = none
  listed : (ref.splitOn ',').tail.filterMap DecoratorWord.read? = []
  nested : decoratorWords (ref ++ [')']) = []

/-- Two tails say the same of their component, except for the reference. -/
structure SameOptions (t u : Text) : Prop where
  decorators : decoratorWords t = decoratorWords u
  inertia : hasInertia t = hasInertia u
  evolution : readInlineEvolution t = readInlineEvolution u
  label : givenLabel? t = givenLabel? u

/-! ### Decorators around a reference -/

/-- Behind the part of a text that holds its last comma, a character goes into a piece in the
middle. -/
theorem exists_splitOn_append_cons {mark c : Char} (hc : c ≠ mark) (s r : Text) :
    ∃ middle, c ∈ middle ∧ (s ++ c :: r).splitOn mark =
      (s.splitOn mark).dropLast ++ middle :: (r.splitOn mark).tail := by
  induction s with
  | nil =>
      rw [List.nil_append, List.splitOn_cons_eq_if_modifyHead, if_neg (by simpa using hc)]
      cases hr : r.splitOn mark with
      | nil => exact absurd hr (List.splitOn_ne_nil mark r)
      | cons first others => exact ⟨c :: first, List.mem_cons_self, rfl⟩
  | cons d rest ih =>
      obtain ⟨middle, hmem, hsplit⟩ := ih
      rw [List.cons_append, List.splitOn_cons_eq_if_modifyHead, List.splitOn_cons_eq_if_modifyHead,
        hsplit]
      have hne := List.splitOn_ne_nil mark rest
      split
      · refine ⟨middle, hmem, ?_⟩
        rw [List.dropLast_cons_of_ne_nil hne, List.cons_append]
      · cases hrest : rest.splitOn mark with
        | nil => exact absurd hrest hne
        | cons first others =>
            cases others with
            | nil => exact ⟨d :: middle, List.mem_cons_of_mem _ hmem, rfl⟩
            | cons second others => exact ⟨middle, hmem, rfl⟩

/-- The words of groups. -/
def groupWords (groups : List Text) : List DecoratorWord :=
  (groups.flatMap (·.splitOn ',')).filterMap DecoratorWord.read?

theorem groupWords_append (gs hs : List Text) :
    groupWords (gs ++ hs) = groupWords gs ++ groupWords hs := by
  rw [groupWords, List.flatMap_append, List.filterMap_append, groupWords, groupWords]

/-- A parenthesis in a group leaves its words apart, up to the one in which it stands. -/
theorem groupWords_opened (s r : Text) :
    groupWords [s ++ '(' :: r] =
      (s.splitOn ',').dropLast.filterMap DecoratorWord.read? ++
        (r.splitOn ',').tail.filterMap DecoratorWord.read? := by
  obtain ⟨middle, hmem, hsplit⟩ := exists_splitOn_append_cons (by decide : '(' ≠ ',') s r
  have hnone : DecoratorWord.read? middle = none := by
    rw [Option.eq_none_iff_forall_ne_some]
    intro word hword
    exact DecoratorWord.break_not_mem hword '(' (by decide) hmem
  rw [groupWords, List.flatMap_singleton, hsplit, List.filterMap_append,
    List.filterMap_cons_none hnone]

section

variable {space : Char} (hspace : isBlank space = true)
include hspace

/-- Either the parentheses in front of a reference are all closed, and groups are looked for in it,
or one of them is closed at its end. -/
theorem parenthesisGroups_reference (a : Text) :
    (∃ gs, ∀ ref tail, ')' ∉ ref →
        parenthesisGroups (a ++ space :: referenceText ref tail) =
          gs ++ parenthesisGroups (ref ++ ')' :: tail)) ∨
      ∃ gs s, ∀ ref tail, ')' ∉ ref →
        parenthesisGroups (a ++ space :: referenceText ref tail) =
          gs ++ (s ++ '(' :: ref) :: parenthesisGroups tail := by
  have hfresh : space ∉ "url(".toList := not_mem_url_of_isBlank hspace
  -- Which of the two it is depends on the part in front alone, so the reader is followed in it.
  induction a using parenthesisGroups.induct with
  | case1 =>
      left
      refine ⟨[], fun ref tail _ => ?_⟩
      have hskip := parenthesisGroups_prepend_of_blank (blank_singleton hspace)
        (referenceText ref tail)
      exact hskip.trans (parenthesisGroups_url (ref ++ ')' :: tail))
  | case2 c rest later hurl _ ih =>
      have hskip : ∀ t, parenthesisGroups (c :: rest ++ t) = parenthesisGroups (later ++ t) := by
        intro t
        rw [after?_eq_some.1 hurl, List.append_assoc, parenthesisGroups_url]
      simp only [hskip]
      exact ih
  | case3 rest inside later hcut _ _ ih =>
      obtain ⟨rfl, hinside⟩ := cutAt_eq_some hcut
      have hgroup : ∀ t, parenthesisGroups ('(' :: (inside ++ ')' :: later) ++ t) =
          inside :: parenthesisGroups (later ++ t) := by
        intro t
        rw [List.cons_append, List.append_assoc, List.cons_append, parenthesisGroups_group hinside]
      simp only [hgroup]
      rcases ih with ⟨gs, hgs⟩ | ⟨gs, s, hgs⟩
      · exact .inl ⟨inside :: gs, fun ref tail href => by rw [hgs ref tail href]; rfl⟩
      · exact .inr ⟨inside :: gs, s, fun ref tail href => by rw [hgs ref tail href]; rfl⟩
  | case4 rest hcut _ =>
      -- The parenthesis is not closed in front of the reference, so it takes the reference in.
      right
      refine ⟨[], rest ++ space :: "url".toList, fun ref tail href => ?_⟩
      have hrest : ')' ∉ rest := cutAt_eq_none_iff.1 hcut
      have hinside : ')' ∉ rest ++ space :: "url".toList ++ '(' :: ref := by
        simp [hrest, href, Ne.symm (ne_of_isBlank (d := ')') hspace (by decide))]
      have hshape : '(' :: rest ++ space :: referenceText ref tail =
          '(' :: ((rest ++ space :: "url".toList ++ '(' :: ref) ++ ')' :: tail) := by
        simp [referenceText]
      rw [hshape, parenthesisGroups_group hinside, List.nil_append]
  | case5 c rest hurl hc ih =>
      have hskip : ∀ t, parenthesisGroups (c :: rest ++ space :: t) =
          parenthesisGroups (rest ++ space :: t) := by
        intro t
        have happend : after? "url(".toList (c :: rest ++ space :: t) = none := by
          rw [after?_append_cons hfresh, hurl]
          rfl
        exact parenthesisGroups_cons hc happend
      simp only [hskip]
      exact ih

/-- A reference without options adds no decorators. -/
theorem exists_decoratorWords_reference (a : Text) (tail : Text) :
    ∃ words, ∀ ref, ')' ∉ ref → HoldsNoOption ref →
      decoratorWords (a ++ space :: referenceText ref tail) = words := by
  rcases parenthesisGroups_reference hspace a with ⟨gs, hgs⟩ | ⟨gs, s, hgs⟩
  · refine ⟨groupWords gs ++ decoratorWords tail, fun ref href hnone => ?_⟩
    have hnested : groupWords (parenthesisGroups (ref ++ [')'])) = [] := hnone.nested
    have hgroups := hgs ref tail href
    rw [parenthesisGroups_append_close] at hgroups
    change groupWords (parenthesisGroups _) = _
    rw [hgroups, groupWords_append, groupWords_append, hnested]
    rfl
  · refine ⟨groupWords gs ++ ((s.splitOn ',').dropLast.filterMap DecoratorWord.read? ++
      decoratorWords tail), fun ref href hnone => ?_⟩
    have hopened := groupWords_opened s ref
    rw [hnone.listed, List.append_nil] at hopened
    change groupWords (parenthesisGroups _) = _
    rw [hgs ref tail href, groupWords_append, ← List.singleton_append, groupWords_append, hopened]
    rfl

end

/-! ### Labels around a reference -/

/-- The label whose keyword a text follows, in front of a reference. Behind the reference a bracket
closes it too late for the label to be read. -/
def labelBefore? (tail t : Text) : Option (Option LabelOffset) :=
  match trimStart t with
  | '[' :: rest =>
      ((cutAt ']' rest).map fun parts => offset? parts.1).or ((cutAt ']' tail).map fun _ => none)
  | _ => none

/-- Coordinates hold no parenthesis. -/
theorem offset?_eq_none {inside : Text} {c : Char} (hc : c ∈ ['(', ')']) (h : c ∈ inside) :
    offset? inside = none := by
  cases hpair : readPair "label offset" inside with
  | error cause => simp [offset?, hpair, Except.toOption]
  | ok pair =>
      have hbreaks : Breaks c := breaks_of_mem c (by revert c; simp [breakChars])
      have hcomma : c ≠ ',' := by
        rintro rfl
        simp at hc
      exact absurd h (not_mem_of_readPair hpair hcomma hbreaks.numeral hbreaks.blank)

/-- A bracket that is closed behind a parenthesis holds no offset. -/
theorem offset_cutAt_append {a : Text} (ha : ']' ∉ a) {c : Char} (hc : c ∈ ['(', ')'])
    (hmem : c ∈ a) (b : Text) :
    (cutAt ']' (a ++ b)).map (fun parts => offset? parts.1) = (cutAt ']' b).map fun _ => none := by
  rw [cutAt_append_of_not_mem ha, Option.map_map]
  congr 1
  funext parts
  exact offset?_eq_none hc (List.mem_append_left _ hmem)

section

variable {space : Char} (hspace : isBlank space = true)
include hspace

/-- What a label in front of a reference reads does not depend on the reference. -/
theorem labelAt?_reference {ref : Text} (href : ']' ∉ ref) (tail t : Text) :
    labelAt? (t ++ space :: referenceText ref tail) = labelBefore? tail t := by
  obtain ⟨lead, hlead, ht⟩ := exists_trimStart t
  have hhead := trimStart_head t
  rw [labelBefore?]
  cases hrest : trimStart t with
  | nil =>
      rw [hrest, List.append_nil] at ht
      have hblank : Blank (t ++ [space]) :=
        (ht ▸ hlead).append (blank_singleton hspace)
      have hstart : trimStart (t ++ space :: referenceText ref tail) = referenceText ref tail := by
        rw [← List.singleton_append, ← List.append_assoc, trimStart_append_of_blank hblank]
        rfl
      apply labelAt?_eq_none
      rw [hstart]
      simp [referenceText]
  | cons c rest =>
      have hc : isBlank c = false := hhead c (by rw [hrest]; rfl)
      have hstart : trimStart (t ++ space :: referenceText ref tail) =
          c :: (rest ++ space :: referenceText ref tail) := by
        rw [ht, List.append_assoc, trimStart_append_of_blank hlead, hrest, List.cons_append]
        exact trimStart_append_cons hc [] _
      by_cases hopen : c = '['
      · subst hopen
        rw [labelAt?_opened hstart]
        change _ = ((cutAt ']' rest).map fun parts => offset? parts.1).or _
        cases hcut : cutAt ']' rest with
        | some parts =>
            obtain ⟨hparts, hinside⟩ := cutAt_eq_some hcut
            rw [hparts, List.append_assoc, List.cons_append, cutAt_append hinside]
            rfl
        | none =>
            -- The bracket stays open in the whole reference and takes its parenthesis in.
            have hunclosed : ']' ∉ rest ++ space :: ("url".toList ++ '(' :: (ref ++ [')'])) := by
              have hspace' : ']' ≠ space := Ne.symm (ne_of_isBlank hspace (by decide))
              simp [cutAt_eq_none_iff.1 hcut, href, hspace']
            have hshape : rest ++ space :: referenceText ref tail =
                rest ++ space :: ("url".toList ++ '(' :: (ref ++ [')'])) ++ tail := by
              simp [referenceText]
            rw [hshape, offset_cutAt_append (c := '(') hunclosed (by simp) (by simp),
              Option.map_none, Option.none_or]
      · rw [labelAt?_eq_none (by simpa [hstart] using hopen)]
        split
        · next opened heq =>
          exact absurd (List.cons.inj heq).1 hopen
        · rfl

/-- The label of a tail with a reference without options, told without the reference. -/
theorem givenLabel?_reference {ref : Text} (hnone : HoldsNoOption ref) (a tail : Text) :
    givenLabel? (a ++ space :: referenceText ref tail) =
      (findWord "label".toList (labelBefore? tail) a).or (givenLabel? tail) := by
  have hfront : (fun t => labelAt? (t ++ space :: referenceText ref tail)) = labelBefore? tail :=
    funext (labelAt?_reference hspace hnone.bracket tail)
  have hword : findWord "label".toList
      (fun t => labelAt? (t ++ '(' :: (ref ++ ')' :: tail))) "url".toList = none :=
    rfl
  have hinside : findWord "label".toList (fun t => labelAt? (t ++ ')' :: tail)) ref = none := by
    rw [findWord_eq_none_iff wordText_label.ne_nil]
    intro before after href hbefore
    have hopen :=
      (findWord_eq_none_iff wordText_label.ne_nil).1 hnone.label before after href hbefore
    apply labelAt?_eq_none
    rw [trimStart_append_cons (by decide)]
    unfold labelOpen? at hopen
    cases hafter : trimStart after with
    | nil => simp
    | cons c rest =>
        rw [hafter] at hopen
        simpa using hopen
  rw [givenLabel?_eq, givenLabel?_eq,
    findWord_append wordText_label (isWord_of_isBlank hspace), hfront, referenceText,
    findWord_append wordText_label (by decide), hword,
    findWord_append wordText_label (by decide), hinside, Option.none_or, Option.none_or]

/-! ### References without options -/

/-- Two references without options leave the other options of a tail alike. -/
theorem sameOptions_reference {ref other : Text} (href : ')' ∉ ref) (hother : ')' ∉ other)
    (hnone : HoldsNoOption ref) (hnone' : HoldsNoOption other) (a tail : Text) :
    SameOptions (a ++ space :: referenceText ref tail)
      (a ++ space :: referenceText other tail) := by
  obtain ⟨words, hwords⟩ := exists_decoratorWords_reference hspace a tail
  have hinertia : ∀ {t}, HoldsNoOption t →
      hasInertia (a ++ space :: referenceText t tail) =
        (hasInertia (a ++ space :: "url".toList) || hasInertia tail) := by
    intro t ht
    have hfalse : hasInertia t = false := by
      rw [← Bool.not_eq_true, hasInertia_iff]
      exact ht.inertia
    rw [append_referenceText, hasInertia_append (c := '(') (by decide),
      hasInertia_append (c := ')') (by decide), hfalse, Bool.false_or]
  have hevolution : ∀ {t}, HoldsNoOption t →
      readInlineEvolution (a ++ space :: referenceText t tail) =
        (readInlineEvolution (a ++ space :: "url".toList)).or (readInlineEvolution tail) := by
    intro t ht
    rw [append_referenceText, readInlineEvolution_append (breaks_of_mem '(' (by decide)),
      readInlineEvolution_append (breaks_of_mem ')' (by decide)), ht.evolution, Option.none_or]
  constructor
  · rw [hwords ref href hnone, hwords other hother hnone']
  · rw [hinertia hnone, hinertia hnone']
  · rw [hevolution hnone, hevolution hnone']
  · rw [givenLabel?_reference hspace hnone, givenLabel?_reference hspace hnone']

end

/-! ### Components -/

/-- What is read, but for the reference; none if nothing is. -/
def withoutReference : Except Cause Component → Option Component
  | .ok c => some { c with reference := none }
  | .error _ => none

section

variable {submap : Bool} {number : Nat} {line : Text}

theorem withoutReference_readComponent {placed : Placed}
    (hplaced : readPlaced (componentKeyword submap)
      (afterKeyword (componentKeyword submap).toList line) = .ok placed)
    (hne : placed.name ≠ []) :
    withoutReference (readComponent submap number line) =
      (readLabel (readDecorators placed.tail).spacing placed.tail).toOption.map fun label =>
        { placed.component submap number label with reference := none } := by
  have hname : requireText (componentKeyword submap) "name" placed.name = .ok placed.name :=
    requireText_eq_ok.2 ⟨hne, rfl⟩
  rw [readComponent, hplaced]
  change withoutReference (requireText (componentKeyword submap) "name" placed.name >>= fun name =>
    readLabel (readDecorators placed.tail).spacing placed.tail >>= fun label => _) = _
  rw [hname]
  cases readLabel (readDecorators placed.tail).spacing placed.tail <;> rfl

/-- Two lines with the same name and position, and with options that say the same, are read alike
but for their references. -/
theorem withoutReference_congr {other name inside t u : Text} (hsame : SameOptions t u)
    (ht : readPlaced (componentKeyword submap)
        (afterKeyword (componentKeyword submap).toList line) =
      (readPosition (componentKeyword submap ++ " coordinates") inside).map fun position =>
        { name, position, tail := t })
    (hu : readPlaced (componentKeyword submap)
        (afterKeyword (componentKeyword submap).toList other) =
      (readPosition (componentKeyword submap ++ " coordinates") inside).map fun position =>
        { name, position, tail := u }) :
    withoutReference (readComponent submap number line) =
      withoutReference (readComponent submap number other) := by
  cases hposition : readPosition (componentKeyword submap ++ " coordinates") inside with
  | error cause =>
      rw [hposition] at ht hu
      rw [readComponent, readComponent, ht, hu]
      rfl
  | ok position =>
      rw [hposition] at ht hu
      by_cases hne : name = []
      · have hnone : requireText (componentKeyword submap) "name" name =
            .error (.without (componentKeyword submap) "name") := by
          rw [hne]
          rfl
        rw [readComponent, readComponent, ht, hu]
        change withoutReference (requireText (componentKeyword submap) "name" name >>= _) =
          withoutReference (requireText (componentKeyword submap) "name" name >>= _)
        rw [hnone]
        rfl
      · rw [withoutReference_readComponent ht hne, withoutReference_readComponent hu hne,
          toOption_readLabel, toOption_readLabel, readDecorators_eq, readDecorators_eq,
          hsame.decorators, hsame.label]
        simp only [Placed.component, readDecorators_eq, hsame.decorators, hsame.inertia,
          hsame.evolution]

end

/-! ### Lines -/

/-- What may stand in front of a reference: the keyword, and coordinates with a blank somewhere
behind them. -/
structure ReferenceHead (keyword head : Text) : Prop where
  keyword : startsWithKeyword keyword head = true
  brackets : ∃ front inside behind, head = front ++ '[' :: (inside ++ ']' :: behind) ∧
    '[' ∉ front ∧ ']' ∉ inside ∧ ∃ space ∈ behind.getLast?, isBlank space = true
  apart : ¬ "url(".toList <:+: head

theorem readPlaced_eq_map {statement : String} {t : Text} {b : Bracketed}
    (h : requireBracket statement "[visibility, maturity]" t = .ok b) :
    readPlaced statement t =
      (readPosition (statement ++ " coordinates") b.inside).map fun position =>
        { name := trim b.before, position, tail := b.after } := by
  rw [readPlaced, h]
  change (readPosition (statement ++ " coordinates") b.inside >>= _) = _
  cases readPosition (statement ++ " coordinates") b.inside <;> rfl

/-- The parts of a line with a reference. The name and the position do not depend on the
reference. -/
theorem readPlaced_referenceLine {keyword lead gap inside : Text} (hkeyword : Token keyword)
    (hlead : Blank lead) (hgap : '[' ∉ gap) (hinside : ']' ∉ inside) (statement : String)
    (behind ref tail : Text) :
    readPlaced statement (afterKeyword keyword (referenceLine
        (lead ++ (keyword ++ (gap ++ '[' :: (inside ++ ']' :: behind)))) ref tail)) =
      (readPosition (statement ++ " coordinates") inside).map fun position =>
        { name := trim (trimStart gap), position,
          tail := behind ++ referenceText ref (trimEnd tail) } := by
  have hline : referenceLine (lead ++ (keyword ++ (gap ++ '[' :: (inside ++ ']' :: behind)))) ref
      tail = lead ++ (keyword ++ (gap ++ '[' :: (inside ++ ']' :: (behind ++
        referenceText ref tail)))) := by
    simp [referenceLine]
  have htrimmed : trim (gap ++ '[' :: (inside ++ ']' :: (behind ++ referenceText ref tail))) =
      trimStart gap ++ '[' :: inside ++ ']' :: (behind ++ referenceText ref (trimEnd tail)) := by
    have hend := trimEnd_append_cons (c := ')') (by decide)
      (trimStart gap ++ '[' :: (inside ++ ']' :: (behind ++ ("url".toList ++ '(' :: ref)))) tail
    rw [trim, trimStart_append_cons (by decide)]
    simpa [referenceText] using hend
  have hopen : '[' ∉ trimStart gap := fun hmem => hgap ((trimStart_suffix gap).subset hmem)
  have hbracket : requireBracket statement "[visibility, maturity]"
      (afterKeyword keyword (referenceLine
        (lead ++ (keyword ++ (gap ++ '[' :: (inside ++ ']' :: behind)))) ref tail)) =
        .ok { before := trimStart gap, inside,
              after := behind ++ referenceText ref (trimEnd tail) } := by
    rw [hline, afterKeyword_append hkeyword hlead, htrimmed]
    exact requireBracket_eq_ok.2 ⟨rfl, hopen, hinside⟩
  exact readPlaced_eq_map hbracket

/-- The first bracket of a head stands behind the keyword. -/
theorem ReferenceHead.exists_parts {keyword head : Text} (hkeyword : Token keyword)
    (h : ReferenceHead keyword head) :
    ∃ lead gap inside a space, Blank lead ∧ '[' ∉ gap ∧ ']' ∉ inside ∧ isBlank space = true ∧
      head = lead ++ (keyword ++ (gap ++ '[' :: (inside ++ ']' :: (a ++ [space])))) := by
  obtain ⟨front, inside, behind, hhead, hfront, hinside, space, hlast, hspace⟩ := h.brackets
  obtain ⟨rest, htrim, -⟩ := startsWithKeyword_iff.1 h.keyword
  obtain ⟨lead, trail, hlead, -, hwhole⟩ := exists_trim head
  obtain ⟨a, rfl⟩ := List.getLast?_eq_some_iff.1 hlast
  have hparts : lead ++ keyword ++ (rest ++ trail) =
      front ++ '[' :: (inside ++ ']' :: (a ++ [space])) := by
    rw [← hhead, hwhole, htrim]
    simp
  obtain ⟨gap, rfl⟩ : ∃ gap, front = lead ++ keyword ++ gap := by
    rcases List.append_eq_append_iff.1 hparts with ⟨gap, hgap, -⟩ | ⟨gap, hgap, hopen⟩
    · exact ⟨gap, hgap⟩
    · cases gap with
      | nil => exact ⟨[], by simpa using hgap.symm⟩
      | cons c gap =>
          obtain rfl : '[' = c := (List.cons.inj hopen).1
          have hmem : '[' ∈ lead ++ keyword := by simp [hgap]
          rcases List.mem_append.1 hmem with hmem | hmem
          · exact absurd hmem (not_mem_of_blank (by decide) hlead)
          · exact absurd rfl (hkeyword.unbroken _ hmem).2
  refine ⟨lead, gap, inside, a, space, hlead, ?_, hinside, hspace, by simp [hhead]⟩
  exact fun hmem => hfront (List.mem_append_right _ hmem)

/-- A reference without options is as good as any other one. -/
theorem withoutReference_of_holdsNoOption {ref other : Text} (href : ')' ∉ ref)
    (hother : ')' ∉ other) (hnone : HoldsNoOption ref) (hnone' : HoldsNoOption other)
    {submap : Bool} (number : Nat) {head : Text}
    (hhead : ReferenceHead (componentKeyword submap).toList head) (tail : Text) :
    withoutReference (readComponent submap number (referenceLine head ref tail)) =
      withoutReference (readComponent submap number (referenceLine head other tail)) := by
  have hkeyword : Token (componentKeyword submap).toList := by
    cases submap <;> decide
  obtain ⟨lead, gap, inside, a, space, hlead, hgap, hinside, hspace, rfl⟩ :=
    hhead.exists_parts hkeyword
  have hplaced := fun t => readPlaced_referenceLine hkeyword hlead hgap hinside
    (componentKeyword submap) (a ++ [space]) t tail
  simp only [List.append_assoc, List.singleton_append] at hplaced
  exact withoutReference_congr (sameOptions_reference hspace href hother hnone hnone' a _)
    (hplaced ref) (hplaced other)

/-- Where no parenthesis opens in a reference, no group does. -/
theorem nested_of_unopened {ref : Text} (h : '(' ∉ ref) : decoratorWords (ref ++ [')']) = [] := by
  rw [decoratorWords, parenthesisGroups_of_unopened (by simpa using h)]
  rfl

theorem holdsNoOption_letter : HoldsNoOption ['x'] where
  bracket := by decide
  label := rfl
  inertia := by
    rw [← hasInertia_iff]
    decide
  evolution := rfl
  listed := by decide
  nested := nested_of_unopened (by decide)

/-! ### References with options -/

/-- A component at the middle of the map, without options. -/
def plainComponent : Component :=
  { line := 0, name := ['A'], position := { visibility := 0.5, maturity := 0.5 } }

/-- The head of its line, with what follows its coordinates. -/
def plainHead (behind : Text) : Text :=
  "component".toList ++ (" A ".toList ++ '[' :: ("0.5, 0.5".toList ++ ']' :: behind))

/-- A tail that says nothing but its reference. -/
structure SaysNothing (t : Text) : Prop where
  decorators : decoratorWords t = []
  inertia : hasInertia t = false
  evolution : readInlineEvolution t = none
  label : givenLabel? t ≠ some none

theorem saysNothing_of_read {behind ref tail : Text}
    (h : withoutReference (readComponent false 0 (referenceLine (plainHead behind) ref tail)) =
      some plainComponent) : SaysNothing (behind ++ referenceText ref (trimEnd tail)) := by
  have hkeyword : Token (componentKeyword false).toList := by decide
  have hgap : '[' ∉ " A ".toList := by decide
  have hinside : ']' ∉ "0.5, 0.5".toList := by decide
  have hposition : readPosition (componentKeyword false ++ " coordinates") "0.5, 0.5".toList =
      .ok plainComponent.position := by
    decide +kernel
  have hplaced := readPlaced_referenceLine hkeyword blank_nil hgap hinside
    (componentKeyword false) behind ref tail
  rw [hposition] at hplaced
  have hname : trim (trimStart " A ".toList) ≠ [] := by decide
  obtain ⟨label, hlabel, hc⟩ := Option.map_eq_some_iff.1
    ((withoutReference_readComponent hplaced hname).symm.trans h)
  rw [toOption_readLabel] at hlabel
  simp only [Placed.component, plainComponent, Component.mk.injEq, Bool.or_eq_false_iff,
    readDecorators_eq] at hc
  obtain ⟨-, -, -, ⟨hinertia, hword⟩, hevolution, -, hdecorators, hspacing, -, -⟩ := hc
  refine ⟨eq_nil_of_ofWords ?_, hword, hevolution, ?_⟩
  · generalize DecoratorReading.ofWords _ = reading at hinertia hdecorators hspacing
    cases reading
    subst hinertia hdecorators hspacing
    rfl
  · intro hnone
    rw [hnone] at hlabel
    cases hlabel

/-- A label that is open in front of a reference is closed by a bracket in it. -/
theorem givenLabel?_closed {ref : Text} (h : ']' ∈ ref) (tail : Text) :
    givenLabel? (" label [ ".toList ++ referenceText ref tail) = some none := by
  obtain ⟨⟨inside, later⟩, hcut⟩ : ∃ parts, cutAt ']' ref = some parts :=
    Option.ne_none_iff_exists'.1 fun hnone => cutAt_eq_none_iff.1 hnone h
  obtain ⟨rfl, hinside⟩ := cutAt_eq_some hcut
  have hfresh : ']' ∉ " url(".toList ++ inside := by simp [hinside]
  have hlabel : labelInside? ([' '] ++ '[' :: ((" url(".toList ++ inside) ++
      ']' :: (later ++ ')' :: tail))) = some (" url(".toList ++ inside) :=
    labelInside?_bracket (by decide) hfresh _
  have hoffset : offset? (" url(".toList ++ inside) = none :=
    offset?_eq_none (c := '(') (by simp) (by simp)
  have hshape : " label [ ".toList ++ referenceText (inside ++ ']' :: later) tail =
      [' '] ++ ("label".toList ++ ([' '] ++ '[' :: ((" url(".toList ++ inside) ++
        ']' :: (later ++ ')' :: tail)))) := by
    simp [referenceText]
  rw [givenLabel?_eq, hshape, findWord_prepend_of_blank wordText_label _ (by decide)]
  apply findWord_of_accept wordText_label
  rw [labelAt?, hlabel, Option.map_some, hoffset]

/-- Behind a reference every bracket in it is closed too late. -/
theorem labelAt?_eq_none_of_closed {t : Text} (h : ']' ∉ t) :
    labelAt? (t ++ [')', ']']) = (labelOpen? t).map fun _ => none := by
  have hstart : trimStart (t ++ [')', ']']) = trimStart t ++ [')', ']'] :=
    trimStart_append_cons (by decide) t [']']
  have hrest : ']' ∉ trimStart t := fun hmem => h ((trimStart_suffix t).subset hmem)
  by_cases hopen : (trimStart t).head? = some '['
  · obtain ⟨rest, ht⟩ := List.head?_eq_some_iff.1 hopen
    rw [ht] at hstart hrest
    have hinside : ']' ∉ rest ++ [')'] := by
      simpa using fun hmem => hrest (List.mem_cons_of_mem _ hmem)
    have hcut := offset_cutAt_append (c := ')') hinside (by simp) (by simp) [']']
    rw [List.append_assoc] at hcut
    rw [labelAt?_opened hstart, labelOpen?, if_pos hopen]
    exact hcut
  · have hother : (trimStart (t ++ [')', ']'])).head? ≠ some '[' := by
      rw [hstart]
      cases ht : trimStart t with
      | nil => simp
      | cons c rest => simpa [ht] using hopen
    rw [labelAt?_eq_none hother, labelOpen?, if_neg hopen]
    rfl

/-- A label that opens in a reference is closed behind it. -/
theorem givenLabel?_opened {ref : Text} (hbracket : ']' ∉ ref)
    (hopen : findWord "label".toList labelOpen? ref ≠ none) :
    givenLabel? (' ' :: referenceText ref [']']) = some none := by
  have hword : findWord "label".toList
      (fun t => labelAt? (t ++ '(' :: (ref ++ ')' :: [']']))) "url".toList = none :=
    rfl
  have hinside : findWord "label".toList (fun t => labelAt? (t ++ [')', ']'])) ref = some none := by
    cases hfound : findWord "label".toList (fun t => labelAt? (t ++ [')', ']'])) ref with
    | none =>
        rw [findWord_eq_none_iff wordText_label.ne_nil] at hfound
        apply absurd _ hopen
        rw [findWord_eq_none_iff wordText_label.ne_nil]
        intro before after href hbefore
        have hafter : ']' ∉ after := by
          intro hmem
          apply hbracket
          rw [href]
          simp [hmem]
        have hnone := hfound before after href hbefore
        rwa [labelAt?_eq_none_of_closed hafter, Option.map_eq_none_iff] at hnone
    | some offset =>
        obtain ⟨rest, hsuffix, haccept⟩ := exists_suffix_of_findWord hfound
        have hrest : ']' ∉ rest := fun hmem => hbracket (hsuffix.subset hmem)
        rw [labelAt?_eq_none_of_closed hrest] at haccept
        obtain ⟨-, -, rfl⟩ := Option.map_eq_some_iff.1 haccept
        rfl
  have hspace := findWord_prepend_of_blank wordText_label labelAt? (by decide : Blank [' '])
    (referenceText ref [']'])
  rw [givenLabel?_eq, ← List.singleton_append, hspace, referenceText,
    findWord_append wordText_label (by decide), hword,
    findWord_append wordText_label (by decide), hinside]
  rfl

/-- What a reference adds to the decorators of a component, where nothing else is in parentheses. -/
theorem decoratorWords_reference {ref : Text} (href : ')' ∉ ref) :
    decoratorWords (' ' :: referenceText ref []) = decoratorWords (ref ++ [')']) ∧
      decoratorWords (" ( ".toList ++ referenceText ref []) =
        (ref.splitOn ',').tail.filterMap DecoratorWord.read? := by
  have hspace : ∀ t, parenthesisGroups (' ' :: t) = parenthesisGroups t := fun t =>
    parenthesisGroups_cons (by decide) (after?_cons_ne (by decide) _ _)
  have hurl : parenthesisGroups (referenceText ref []) = parenthesisGroups (ref ++ [')']) :=
    parenthesisGroups_url (ref ++ [')'])
  have hshape : " ( ".toList ++ referenceText ref [] =
      ' ' :: '(' :: ((" url".toList ++ '(' :: ref) ++ ')' :: []) := by
    simp [referenceText]
  have hinside : ')' ∉ " url".toList ++ '(' :: ref := by simp [href]
  have hgroup : parenthesisGroups (" ( ".toList ++ referenceText ref []) =
      [" url".toList ++ '(' :: ref] := by
    rw [hshape, hspace, parenthesisGroups_group hinside]
    simp [parenthesisGroups]
  constructor
  · rw [decoratorWords, hspace, hurl, decoratorWords]
  · have hwords := groupWords_opened " url".toList ref
    rw [decoratorWords, hgroup]
    exact hwords

/-- A reference that is as good as any other one on all lines holds no option. -/
theorem holdsNoOption_of_saysNothing {ref : Text} (href : ')' ∉ ref)
    (halone : SaysNothing (' ' :: referenceText ref []))
    (hlabel : SaysNothing (" label [ ".toList ++ referenceText ref []))
    (hopen : SaysNothing (" ( ".toList ++ referenceText ref []))
    (hclose : SaysNothing (' ' :: referenceText ref [']'])) : HoldsNoOption ref := by
  have hbracket : ']' ∉ ref := fun hmem => hlabel.label (givenLabel?_closed hmem [])
  have hshape : ' ' :: referenceText ref [] = (' ' :: "url".toList) ++ '(' :: (ref ++ ')' :: []) :=
    append_referenceText [] ' ' ref []
  obtain ⟨hnested, hlisted⟩ := decoratorWords_reference href
  constructor
  · exact hbracket
  · by_contra hne
    exact hclose.label (givenLabel?_opened hbracket hne)
  · have hinertia := halone.inertia
    rw [hshape, hasInertia_append (c := '(') (by decide), hasInertia_append (c := ')') (by decide),
      Bool.or_eq_false_iff, Bool.or_eq_false_iff] at hinertia
    rw [← hasInertia_iff, hinertia.2.1]
    decide
  · have hevolution := halone.evolution
    rw [hshape, readInlineEvolution_append (breaks_of_mem '(' (by decide)),
      readInlineEvolution_append (breaks_of_mem ')' (by decide)), Option.or_eq_none_iff,
      Option.or_eq_none_iff] at hevolution
    exact hevolution.2.1
  · rw [← hlisted]
    exact hopen.decorators
  · rw [← hnested]
    exact halone.decorators

/-- What stands around a reference to show that it is not opaque: nothing, a label or a parenthesis
that is open before it, or a bracket that closes behind it. -/
def probes : List (Text × Text) :=
  [([' '], []), (" label [ ".toList, []), (" ( ".toList, []), ([' '], [']'])]

theorem referenceHead_of_probe :
    ∀ probe ∈ probes, ReferenceHead (componentKeyword false).toList (plainHead probe.1) := by
  have hparts : ∀ probe ∈ probes, startsWithKeyword (componentKeyword false).toList
        (plainHead probe.1) = true ∧ probe.1.getLast? = some ' ' ∧
      cut "url(".toList (plainHead probe.1) = none := by
    decide +kernel
  intro probe hprobe
  obtain ⟨hkeyword, hspace, hurl⟩ := hparts probe hprobe
  exact ⟨hkeyword, ⟨"component A ".toList, "0.5, 0.5".toList, probe.1, rfl, by decide, by decide,
    ' ', hspace, by decide⟩, cut_eq_none_iff.1 hurl⟩

theorem withoutReference_of_probe :
    ∀ probe ∈ probes, trimEnd probe.2 = probe.2 ∧ cut "url(".toList probe.2 = none ∧
      withoutReference (readComponent false 0
        (referenceLine (plainHead probe.1) ['x'] probe.2)) = some plainComponent := by
  decide +kernel

/-- The text of a reference is opaque: whatever else a line with it says, it says with the
reference `x` too. -/
def OpaqueReference (ref : Text) : Prop :=
  ∀ (submap : Bool) (number : Nat) (head tail : Text),
    ReferenceHead (componentKeyword submap).toList head → ¬ "url(".toList <:+: tail →
      withoutReference (readComponent submap number (referenceLine head ref tail)) =
        withoutReference (readComponent submap number (referenceLine head ['x'] tail))

theorem OpaqueReference.saysNothing {ref : Text} (h : OpaqueReference ref) :
    ∀ probe ∈ probes, SaysNothing (probe.1 ++ referenceText ref probe.2) := by
  intro probe hprobe
  obtain ⟨htrim, hurl, hletter⟩ := withoutReference_of_probe probe hprobe
  have hread := h false 0 (plainHead probe.1) probe.2 (referenceHead_of_probe probe hprobe)
    (cut_eq_none_iff.1 hurl)
  rw [hletter] at hread
  simpa only [htrim] using saysNothing_of_read hread

/-- A reference is opaque if and only if it holds nothing that some reader of options finds. -/
theorem opaqueReference_iff {ref : Text} (href : ')' ∉ ref) :
    OpaqueReference ref ↔ HoldsNoOption ref := by
  constructor
  · intro hopaque
    have hnothing := hopaque.saysNothing
    simp only [probes, List.forall_mem_cons] at hnothing
    obtain ⟨halone, hlabel, hopen, hclose, -⟩ := hnothing
    exact holdsNoOption_of_saysNothing href halone hlabel hopen hclose
  · intro hnone submap number head tail hhead _
    exact withoutReference_of_holdsNoOption href (by decide) hnone holdsNoOption_letter number hhead
      tail

/-- A name of two words is opaque, the word `inertia` is not. -/
theorem opaqueReference_shop_not_inertia :
    OpaqueReference "tea, shop".toList ∧ ¬ OpaqueReference "inertia".toList := by
  have hshop : HoldsNoOption "tea, shop".toList := by
    constructor
    · decide
    · rfl
    · rw [← hasInertia_iff]
      decide
    · rfl
    · decide
    · exact nested_of_unopened (by decide)
  have hinertia : ¬ HoldsNoOption "inertia".toList := fun h =>
    h.inertia (hasInertia_iff.1 (by decide))
  exact ⟨(opaqueReference_iff (by decide)).2 hshop,
    fun h => hinertia ((opaqueReference_iff (by decide)).1 h)⟩

end WardleyMaps
