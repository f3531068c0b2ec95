/-
Module: WardleyMaps.Proofs.Statement.Annotation
Purpose: An annotation that is written as it should be is read back.
Main exports: NoteParts, NoteParts.On.unique, readNumberedNote_eq_ok_iff, PlaceRow, ListGaps,
  placeRow_iff, PlaceBracket, WrittenNote, writtenNote_iff, readNumberedNote_written
-/
import WardleyMaps.Proofs.Number.Digits
import WardleyMaps.Proofs.Statement.Keyword
import WardleyMaps.Proofs.Statement.Places

namespace WardleyMaps

open Text

/-!
An annotation is written with its number, a bracket with one place or a list of places in brackets
of their own, and a text (`WrittenNote`). The reader looks for less: for digits, for the first
bracket behind them and for the innermost brackets of that one. It takes a line apart in one way
only (`NoteParts.On.unique`), and a line that is written as it should be is taken apart as it was
put together (`writtenNote_iff`), whatever brackets the text may hold.
-/

/-! ### The parts of a line -/

/-- What the reader of an annotation takes a line apart into, behind the keyword. -/
structure NoteParts where
  digits : Text
  values : List Nat
  skipped : Text
  inside : Text
  behind : Text

/-- The parts are those of the line. -/
structure NoteParts.On (p : NoteParts) (line : Text) : Prop where
  whole : afterKeyword "annotation".toList line =
    p.digits ++ (p.skipped ++ '[' :: (p.inside ++ ']' :: p.behind))
  numbered : p.digits ≠ []
  digits : SaysDigits p.digits p.values
  ends : ∀ c ∈ p.skipped.head?, isDigit c = false
  first : '[' ∉ p.skipped
  balanced : Balanced p.inside

section

variable {p q : NoteParts} {line : Text}

theorem NoteParts.On.bracket (h : p.On line) :
    FirstBracket (p.skipped ++ '[' :: (p.inside ++ ']' :: p.behind)) p.skipped p.inside p.behind :=
  ⟨rfl, h.first, h.balanced⟩

theorem NoteParts.On.spanDigits (h : p.On line) :
    spanDigits (afterKeyword "annotation".toList line) =
      (p.values, p.skipped ++ '[' :: (p.inside ++ ']' :: p.behind)) := by
  refine spanDigits_eq_iff.2 ⟨p.digits, h.whole, h.digits, ?_⟩
  cases hskipped : p.skipped with
  | nil =>
      intro c hc
      obtain rfl := Option.some.inj hc
      decide
  | cons c rest => simpa [hskipped] using h.ends

/-- A line is taken apart in one way only. -/
theorem NoteParts.On.unique (h : p.On line) (h' : q.On line) : p = q := by
  obtain ⟨hvalues, hrest⟩ := Prod.mk.inj (h.spanDigits.symm.trans h'.spanDigits)
  have hdigits : p.digits = q.digits := by
    have hwhole := h.whole.symm.trans h'.whole
    rw [hrest] at hwhole
    exact List.append_cancel_right hwhole
  obtain ⟨hskipped, hinside, hbehind⟩ := h.bracket.unique (hrest ▸ h'.bracket)
  cases p
  cases q
  simp_all

end

theorem readPlaces_trimStart (t : Text) : readPlaces (trimStart t) = readPlaces t := by
  obtain ⟨lead, hlead, ht⟩ := exists_trimStart t
  have hfree : '[' ∉ lead := not_mem_of_blank (by decide) hlead
  conv_rhs => rw [ht, readPlaces, cutAt_append_of_not_mem hfree]
  rw [readPlaces]
  cases cutAt '[' (trimStart t) <;> rfl

/-- What the reader makes of the parts of a line. -/
def NoteParts.draft (p : NoteParts) (number : Nat) (places : List Position) : AnnotationDraft :=
  { line := number, digits := p.values, places, text := trim p.behind }

/-- The annotation that the parts of a line make up, with its number in the decimal system. -/
def NoteParts.note (p : NoteParts) (number : Nat) (places : List Position) : NumberedNote :=
  { line := number, number := Nat.ofDigits 10 p.values.reverse, places, text := trim p.behind }

theorem NoteParts.settle_draft_iff {p : NoteParts} {number : Nat} {places : List Position}
    {note : NumberedNote} :
    (p.draft number places).settle = .ok note ↔
      p.values.length ≤ maxIntegerDigits ∧ note = p.note number places := by
  have hdraft : (p.draft number places).settle =
      if maxIntegerDigits < p.values.length then .error ⟨p.values.length⟩
      else .ok (p.note number places) := by
    rw [NoteParts.note, ← digitsValue_eq_ofDigits]
    rfl
  rw [hdraft]
  split
  · next hlong => simp [hlong]
  · next hshort => simp [Nat.not_lt.1 hshort, eq_comm]

/-- An annotation is read from the digits behind its keyword and the first bracket behind them. -/
theorem readNumberedNote_eq_ok_iff {number : Nat} {line : Text} {draft : AnnotationDraft} :
    readNumberedNote number line = .ok draft ↔
      ∃ p : NoteParts, p.On line ∧
        ∃ places, SaysPlaces p.inside places ∧ draft = p.draft number places := by
  constructor
  · intro h
    rw [readNumberedNote] at h
    split at h
    · cases h
    next values rest hvalues hspan =>
    obtain ⟨⟨places, text⟩, hplaces, hdraft⟩ := bind_eq_ok.1 h
    obtain rfl := Except.ok.inj hdraft
    rw [readPlaces_trimStart] at hplaces
    obtain ⟨digits, hwhole, hdigits, hends⟩ := spanDigits_eq_iff.1 hspan
    obtain ⟨skipped, inside, behind, hbracket, hsaid, rfl⟩ := readPlaces_eq_ok_iff.1 hplaces
    obtain ⟨rfl, hfirst, hbalanced⟩ := hbracket
    refine ⟨⟨digits, values, skipped, inside, behind⟩, ?_, places, hsaid, rfl⟩
    refine ⟨hwhole, hdigits.ne_nil_iff.2 fun hnil => hvalues hnil, hdigits, ?_, hfirst, hbalanced⟩
    intro c hc
    apply hends c
    rw [Option.mem_def] at hc
    rw [List.head?_append, hc]
    rfl
  · rintro ⟨p, hp, places, hsaid, rfl⟩
    have hread := readPlaces_eq_ok_iff.2 ⟨_, _, _, hp.bracket, hsaid, rfl⟩
    rw [readNumberedNote, hp.spanDigits]
    cases hvalues : p.values with
    | nil => exact absurd hvalues (hp.digits.ne_nil_iff.1 hp.numbered)
    | cons value others =>
        simp only [readPlaces_trimStart, hread, NoteParts.draft, hvalues]
        rfl

/-! ### Lists of places -/

/-- Places in brackets of their own, with commas between the brackets, and blanks around
everything. -/
inductive PlaceRow : Text → List Position → Prop
  | last {lead inside trail : Text} {p : Position} (hlead : Blank lead)
      (hposition : SaysPosition inside p) (htrail : Blank trail) :
      PlaceRow (lead ++ '[' :: (inside ++ ']' :: trail)) [p]
  | more {lead inside space rest : Text} {p : Position} {others : List Position}
      (hlead : Blank lead) (hposition : SaysPosition inside p) (hspace : Blank space)
      (hrest : PlaceRow rest others) :
      PlaceRow (lead ++ '[' :: (inside ++ ']' :: (space ++ ',' :: rest))) (p :: others)

/-- Gaps as a list has them: a comma behind every bracket but the last, and blanks. -/
def ListGaps : List Group → Prop
  | [] => False
  | [g] => Blank g.gap
  | g :: others => trim g.gap = [','] ∧ ListGaps others

/-- A list of places is a text with nothing but blanks and commas around its innermost brackets. -/
theorem placeRow_iff {t : Text} {places : List Position} :
    PlaceRow t places ↔
      ∃ first groups, TakenApart t first groups ∧ Blank first ∧ ListGaps groups ∧
        List.Forall₂ SaysPosition (groups.map Group.inside) places := by
  constructor
  · intro h
    induction h with
    | @last lead inside trail p hlead hposition htrail =>
        have hg := hposition.innermost (apart_of_blank htrail)
        exact ⟨lead, [⟨inside, trail⟩], ⟨rfl, apart_of_blank hlead, by simpa using hg⟩, hlead,
          htrail, .cons hposition .nil⟩
    | @more lead inside space rest p others hlead hposition hspace _ ih =>
        obtain ⟨first, groups, hparts, hfirst, hgaps, heach⟩ := ih
        obtain ⟨rfl, -, hinnermost⟩ := hparts
        have hfree : ']' ∉ space ++ ',' :: first := by
          simp [not_mem_of_blank (c := ']') (by decide) hspace,
            not_mem_of_blank (c := ']') (by decide) hfirst]
        have hg := hposition.innermost (apart_of_no_closing hfree)
        have hwhole : space ++ ',' :: rejoin first groups =
            rejoin (space ++ ',' :: first) groups := by
          rw [List.append_cons space ',' first, rejoin_append]
          simp
        refine ⟨lead, ⟨inside, space ++ ',' :: first⟩ :: groups,
          ⟨by rw [hwhole]; rfl, apart_of_blank hlead, List.forall_mem_cons.2 ⟨hg, hinnermost⟩⟩,
          hlead, ?_, .cons hposition heach⟩
        cases groups with
        | nil => exact hgaps.elim
        | cons g others =>
            refine ⟨?_, hgaps⟩
            have htrim := trim_surrounded hspace (by decide : Trimmed [',']) hfirst
            simpa using htrim
  · rintro ⟨first, groups, hparts, hfirst, hgaps, heach⟩
    induction groups generalizing t first places with
    | nil => exact hgaps.elim
    | cons g others ih =>
        obtain ⟨p, later, hposition, hlater, rfl⟩ := List.forall₂_cons_left_iff.1 heach
        cases others with
        | nil =>
            obtain rfl := List.forall₂_nil_left_iff.1 hlater
            rw [hparts.whole]
            exact .last hfirst hposition hgaps
        | cons g' others' =>
            obtain ⟨hcomma, hgaps⟩ := hgaps
            obtain ⟨space, next, hspace, hnext, hgap⟩ := exists_trim g.gap
            rw [hcomma] at hgap
            have hbehind : TakenApart (rejoin next (g' :: others')) next (g' :: others') :=
              ⟨rfl, apart_of_blank hnext, fun h hmem =>
                hparts.innermost h (List.mem_cons_of_mem g hmem)⟩
            have hwhole : rejoin g.gap (g' :: others') =
                space ++ ',' :: rejoin next (g' :: others') := by
              rw [hgap, rejoin_append]
              simp
            rw [hparts.whole, rejoin, hwhole]
            exact .more hfirst hposition hspace (ih _ hbehind hnext hgaps hlater)

/-- The bracket of an annotation: one place, or a list of places. -/
inductive PlaceBracket (inside : Text) : List Position → Prop
  | single {p : Position} (hposition : SaysPosition inside p) : PlaceBracket inside [p]
  | list {places : List Position} (hrow : PlaceRow inside places) : PlaceBracket inside places

theorem PlaceRow.balanced {t : Text} {places : List Position} (h : PlaceRow t places) :
    Balanced t := by
  induction h with
  | last hlead hposition htrail =>
      exact (balanced_of_blank hlead).append
        (.bracket hposition.balanced (balanced_of_blank htrail))
  | more hlead hposition hspace _ ih =>
      have hcomma : Balanced (',' :: _) := .plain (by decide) (by decide) ih
      exact (balanced_of_blank hlead).append
        (.bracket hposition.balanced ((balanced_of_blank hspace).append hcomma))

theorem PlaceBracket.balanced {inside : Text} {places : List Position}
    (h : PlaceBracket inside places) : Balanced inside := by
  cases h with
  | single hposition => exact hposition.balanced
  | list hrow => exact hrow.balanced

/-- A list of places begins with a bracket. -/
theorem PlaceRow.opening {t : Text} {places : List Position} (h : PlaceRow t places) :
    (trim t).head? = some '[' := by
  have hopening {lead : Text} (hlead : Blank lead) (rest : Text) :
      (trim (lead ++ '[' :: rest)).head? = some '[' := by
    rw [trim_prepend_of_blank hlead]
    exact congrArg List.head? (trim_append_cons (c := '[') (by decide) [] rest)
  cases h with
  | last hlead _ _ => exact hopening hlead _
  | more hlead _ _ _ => exact hopening hlead _

/-- The bracket of an annotation is read as its places. -/
theorem PlaceBracket.saysPlaces {inside : Text} {places : List Position}
    (h : PlaceBracket inside places) : SaysPlaces inside places := by
  cases h with
  | single hposition => exact .single hposition
  | list hrow =>
      obtain ⟨first, groups, hparts, -, hgaps, heach⟩ := placeRow_iff.1 hrow
      refine .several hrow.opening hparts ?_ heach
      rintro rfl
      exact hgaps

/-! ### Lines -/

/-- An annotation as it is written: the keyword, the digits of a number, a bracket with its places
and a text, with blanks in between. -/
inductive WrittenNote : Text → List Nat → List Position → Text → Prop
  | intro {lead gap digits space inside space' text trail : Text} {values : List Nat}
      {places : List Position} (hlead : Blank lead) (hgap : Blank gap) (hgapNe : gap ≠ [])
      (hdigits : SaysDigits digits values) (hdigitsNe : digits ≠ []) (hspace : Blank space)
      (hplaces : PlaceBracket inside places) (hspace' : Blank space') (htext : Trimmed text)
      (htrail : Blank trail) :
      WrittenNote (lead ++ ("annotation".toList ++ (gap ++ (digits ++ (space ++
        '[' :: (inside ++ ']' :: (space' ++ (text ++ trail)))))))) values places text

/-- What is written is taken apart as it was put together. -/
theorem WrittenNote.exists_on {line text : Text} {values : List Nat} {places : List Position}
    (h : WrittenNote line values places text) :
    ∃ p : NoteParts, p.On line ∧ Blank p.skipped ∧ PlaceBracket p.inside places ∧
      p.values = values ∧ trim p.behind = text := by
  obtain @⟨lead, gap, digits, space, inside, space', text, trail, values, places, hlead, hgap, -,
    hdigits, hdigitsNe, hspace, hplaces, hspace', htext, htrail⟩ := h
  have hfront : trimStart (digits ++ (space ++ '[' :: inside)) =
      digits ++ (space ++ '[' :: inside) := by
    obtain ⟨d, others, rfl⟩ := List.exists_cons_of_ne_nil hdigitsNe
    exact trimStart_eq_self_of_head (hdigits.head d rfl)
  refine ⟨⟨digits, values, space, inside, trimEnd (space' ++ (text ++ trail))⟩,
    ⟨?_, hdigitsNe, hdigits, ?_, not_mem_of_blank (by decide) hspace, hplaces.balanced⟩,
    hspace, hplaces, rfl, ?_⟩
  · have hsplit : digits ++ (space ++ '[' :: (inside ++ ']' :: (space' ++ (text ++ trail)))) =
        (digits ++ (space ++ '[' :: inside)) ++ ']' :: (space' ++ (text ++ trail)) := by
      simp
    rw [afterKeyword_append (by decide) hlead, trim_prepend_of_blank hgap, hsplit,
      trim_append_cons (by decide), hfront]
    simp
  · exact fun c hc => isDigit_of_isBlank (hspace c (List.mem_of_mem_head? hc))
  · rw [trim_trimEnd, ← List.append_assoc, trim_surrounded hspace' htext htrail]

/-- A line with the keyword is written as an annotation if nothing but blanks is passed over in
front of its first bracket, and this bracket holds a place or a list of places. -/
theorem writtenNote_iff {line text : Text} {values : List Nat} {places : List Position}
    (hkeyword : startsWithKeyword "annotation".toList line = true) :
    WrittenNote line values places text ↔
      ∃ p : NoteParts, p.On line ∧ Blank p.skipped ∧ PlaceBracket p.inside places ∧
        p.values = values ∧ trim p.behind = text := by
  refine ⟨WrittenNote.exists_on, ?_⟩
  rintro ⟨p, hp, hskipped, hplaces, rfl, rfl⟩
  obtain ⟨gap, hgap, hwhole, hgapNil⟩ := exists_gap_of_startsWithKeyword hkeyword
  obtain ⟨lead, trail, hlead, htrail, hline⟩ := exists_trim line
  obtain ⟨space', rest, hspace', hrest, hbehind⟩ := exists_trim p.behind
  have hgapNe : gap ≠ [] := by
    rw [ne_eq, hgapNil, hp.whole]
    simp [hp.numbered]
  have hshape : line = lead ++ ("annotation".toList ++ (gap ++ (p.digits ++ (p.skipped ++
      '[' :: (p.inside ++ ']' :: (space' ++ (trim p.behind ++ (rest ++ trail)))))))) := by
    conv_lhs => rw [hline, hwhole, hp.whole, hbehind]
    simp
  rw [hshape]
  exact .intro hlead hgap hgapNe hp.digits hp.numbered hskipped hplaces hspace'
    (trimmed_trim p.behind) (hrest.append htrail)

/-- An annotation that is written as it should be is read back: its number, its places in their
order, and its text, whatever brackets the text may hold. -/
theorem readNumberedNote_written {line text : Text} {values : List Nat} {places : List Position}
    (h : WrittenNote line values places text) (hshort : values.length ≤ maxIntegerDigits)
    (number : Nat) :
    ∃ draft, readNumberedNote number line = .ok draft ∧
      draft.settle =
        .ok { line := number, number := Nat.ofDigits 10 values.reverse, places, text } := by
  obtain ⟨p, hp, -, hplaces, rfl, rfl⟩ := h.exists_on
  refine ⟨p.draft number places, ?_, ?_⟩
  · exact readNumberedNote_eq_ok_iff.2 ⟨p, hp, places, hplaces.saysPlaces, rfl⟩
  · exact NoteParts.settle_draft_iff.2 ⟨hshort, rfl⟩

/-- A list of two places with a text that closes and opens brackets of its own. -/
theorem readNumberedNote_written_two :
    ∃ draft, readNumberedNote 7
        "annotation 12 [[0.1, 0.2],[ .5 , 1e-1 ] ] ] up to [3]".toList = .ok draft ∧
      draft.settle =
        .ok { line := 7, number := 12, places := [⟨0.1, 0.2⟩, ⟨0.5, 0.1⟩],
              text := "] up to [3]".toList } := by
  have hfirst : SaysPosition "0.1, 0.2".toList ⟨0.1, 0.2⟩ :=
    ⟨"0.1".toList, " 0.2".toList, rfl, by decide +kernel, by decide +kernel⟩
  have hsecond : SaysPosition " .5 , 1e-1 ".toList ⟨0.5, 0.1⟩ :=
    ⟨" .5 ".toList, " 1e-1 ".toList, rfl, by decide +kernel, by decide +kernel⟩
  have hlast := PlaceRow.last blank_nil hsecond (by decide : Blank [' '])
  have hrow := PlaceRow.more blank_nil hfirst blank_nil hlast
  have hdigits : SaysDigits "12".toList [1, 2] := .cons (by decide) (.cons (by decide) .nil)
  have hwritten := WrittenNote.intro blank_nil (by decide : Blank [' ']) (by decide) hdigits
    (by decide) (by decide : Blank [' ']) (.list hrow) (by decide : Blank [' '])
    (by decide : Trimmed "] up to [3]".toList) blank_nil
  exact readNumberedNote_written hwritten (by decide) 7

end WardleyMaps
