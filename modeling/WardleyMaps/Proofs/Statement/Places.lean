/-
Module: WardleyMaps.Proofs.Statement.Places
Purpose: What the first bracket of an annotation says.
Main exports: SaysPosition, readPosition_eq_ok, SaysPlaces, FirstBracket, FirstBracket.unique,
  readPlaces_eq_ok_iff
-/
import WardleyMaps.Proofs.Statement.Brackets
import WardleyMaps.Proofs.Statement.Coordinates

namespace WardleyMaps

open Text

/-!
The places of an annotation are read from the first bracket of a text and the one that closes it:
the bracket is a position, or its innermost brackets are (`SaysPlaces`). What stands in front of it
is passed over, and what stands behind it is the text (`readPlaces_eq_ok_iff`).
-/

/-! ### Positions -/

/-- Two numerals with a comma between them, and blanks around both. -/
def SaysPosition (inside : Text) (p : Position) : Prop :=
  ∃ first second, inside = first ++ ',' :: second ∧
    Double.read? (trim first) = some p.visibility ∧ Double.read? (trim second) = some p.maturity

theorem readPosition_eq_ok {field : String} {inside : Text} {p : Position} :
    readPosition field inside = .ok p ↔ SaysPosition inside p := by
  constructor
  · intro h
    obtain ⟨⟨a, b⟩, hpair, hp⟩ := bind_eq_ok.1 h
    obtain rfl := Except.ok.inj hp
    obtain ⟨numbers, hnumbers, hboth⟩ := bind_eq_ok.1 hpair
    split at hboth
    · next x y =>
      obtain ⟨rfl, rfl⟩ := Prod.mk.inj (Except.ok.inj hboth)
      unfold readCoordinates at hnumbers
      dsimp only at hnumbers
      split at hnumbers
      · cases hnumbers
      have heach := mapM_eq_ok_iff.1 hnumbers
      rw [List.forall₂_map_left_iff, List.forall₂_cons_right_iff] at heach
      obtain ⟨first, others, hfirst, hothers, hparts⟩ := heach
      obtain ⟨second, last, hsecond, hlast, rfl⟩ := List.forall₂_cons_right_iff.1 hothers
      obtain rfl := List.forall₂_nil_right_iff.1 hlast
      rw [readNumber_eq_ok, trim_trim] at hfirst hsecond
      refine ⟨first, second, ?_, hfirst, hsecond⟩
      have hjoined : [','].intercalate (inside.splitOn ',') = inside := List.intercalate_splitOn ','
      rw [hparts] at hjoined
      simpa [List.intercalate] using hjoined.symm
    · cases hboth
  · rintro ⟨first, second, rfl, hfirst, hsecond⟩
    rw [readPosition, readPair_of_read? field hfirst hsecond]
    rfl

/-- A numeral has no bracket in it, so nor has a position. -/
theorem SaysPosition.no_bracket {inside : Text} {p : Position} (h : SaysPosition inside p) :
    '[' ∉ inside ∧ ']' ∉ inside := by
  obtain ⟨first, second, rfl, hfirst, hsecond⟩ := h
  have apart {c : Char} (hnumeral : ¬ NumeralChar c) (hblank : isBlank c = false)
      (hcomma : c ≠ ',') : c ∉ first ++ ',' :: second := by
    have free {t : Text} {x : Double} (hread : Double.read? (trim t) = some x) : c ∉ t := by
      intro hmem
      rcases numeralChar_or_blank hread hmem with hc | hc
      · exact hnumeral hc
      · rw [hc] at hblank
        cases hblank
    simp [free hfirst, free hsecond, hcomma]
  exact ⟨apart (by rw [NumeralChar]; decide +kernel) (by decide) (by decide),
    apart (by rw [NumeralChar]; decide +kernel) (by decide) (by decide)⟩

theorem SaysPosition.balanced {inside : Text} {p : Position} (h : SaysPosition inside p) :
    Balanced inside :=
  balanced_of_no_bracket h.no_bracket.1 h.no_bracket.2

theorem SaysPosition.innermost {inside gap : Text} {p : Position} (h : SaysPosition inside p)
    (hgap : Apart gap) : Group.Innermost ⟨inside, gap⟩ :=
  ⟨h.no_bracket.1, h.no_bracket.2, hgap⟩

theorem saysPosition_trim_iff {inside : Text} {p : Position} :
    SaysPosition (trim inside) p ↔ SaysPosition inside p := by
  constructor
  · rintro ⟨first, second, htrim, hfirst, hsecond⟩
    obtain ⟨lead, trail, hlead, htrail, hinside⟩ := exists_trim inside
    rw [htrim] at hinside
    refine ⟨lead ++ first, second ++ trail, by simpa using hinside, ?_, ?_⟩
    · rw [trim_prepend_of_blank hlead, hfirst]
    · rw [trim_append_of_blank htrail, hsecond]
  · rintro ⟨first, second, rfl, hfirst, hsecond⟩
    refine ⟨trimStart first, trimEnd second, trim_append_cons (by decide) first second, ?_, ?_⟩
    · rw [trim_trimStart, hfirst]
    · rw [trim_trimEnd, hsecond]

/-! ### Places -/

/-- What a bracket is read as: a position, or, if it begins with a bracket, the positions in its
innermost brackets. -/
inductive SaysPlaces (inside : Text) : List Position → Prop
  | single {p : Position} (hposition : SaysPosition inside p) : SaysPlaces inside [p]
  | several {first : Text} {groups : List Group} {places : List Position}
      (hopening : (trim inside).head? = some '[') (hparts : TakenApart inside first groups)
      (hne : groups ≠ [])
      (heach : List.Forall₂ SaysPosition (groups.map Group.inside) places) :
      SaysPlaces inside places

/-- The first bracket of a text, what is passed over in front of it, and what follows the bracket
that closes it. -/
structure FirstBracket (t skipped inside behind : Text) : Prop where
  whole : t = skipped ++ '[' :: (inside ++ ']' :: behind)
  first : '[' ∉ skipped
  balanced : Balanced inside

theorem firstBracket_iff {t skipped inside behind : Text} :
    FirstBracket t skipped inside behind ↔
      ∃ opened, cutAt '[' t = some (skipped, opened) ∧
        closingBracket 0 opened = some (inside, behind) := by
  constructor
  · rintro ⟨rfl, hfirst, hbalanced⟩
    exact ⟨_, cutAt_append hfirst _, closingBracket_zero_iff.2 ⟨rfl, hbalanced⟩⟩
  · rintro ⟨opened, hcut, hclosing⟩
    obtain ⟨rfl, hfirst⟩ := cutAt_eq_some hcut
    obtain ⟨rfl, hbalanced⟩ := closingBracket_zero_iff.1 hclosing
    exact ⟨rfl, hfirst, hbalanced⟩

/-- A text has one first bracket. -/
theorem FirstBracket.unique {t skipped inside behind skipped' inside' behind' : Text}
    (h : FirstBracket t skipped inside behind) (h' : FirstBracket t skipped' inside' behind') :
    skipped = skipped' ∧ inside = inside' ∧ behind = behind' := by
  obtain ⟨opened, hcut, hclosing⟩ := firstBracket_iff.1 h
  obtain ⟨opened', hcut', hclosing'⟩ := firstBracket_iff.1 h'
  obtain ⟨rfl, rfl⟩ := Prod.mk.inj (Option.some.inj (hcut.symm.trans hcut'))
  obtain ⟨rfl, rfl⟩ := Prod.mk.inj (Option.some.inj (hclosing.symm.trans hclosing'))
  exact ⟨rfl, rfl, rfl⟩

theorem mapM_readPosition_iff {field : String} {pieces : List Text} {places : List Position} :
    pieces.mapM (readPosition field) = .ok places ↔ List.Forall₂ SaysPosition pieces places := by
  rw [mapM_eq_ok_iff]
  simp only [readPosition_eq_ok]

theorem startsWith_opening_iff {t : Text} :
    startsWith ['['] t = true ↔ t.head? = some '[' := by
  rw [startsWith, Option.isSome_iff_exists]
  simp only [after?_eq_some]
  cases t <;> simp

theorem saysPlaces_iff {inside : Text} {pieces : List Text} {places : List Position}
    (hpieces : (if startsWith ['['] (trim inside) then innermostGroups none (trim inside)
      else [trim inside]) = pieces) :
    SaysPlaces inside places ↔ pieces ≠ [] ∧ List.Forall₂ SaysPosition pieces places := by
  obtain ⟨first, groups, hparts⟩ := exists_takenApart inside
  by_cases hopening : startsWith ['['] (trim inside) = true
  · rw [if_pos hopening, innermostGroups_trim, hparts.innermostGroups] at hpieces
    subst hpieces
    rw [startsWith_opening_iff] at hopening
    constructor
    · rintro (hposition | ⟨-, hparts', hne, heach⟩)
      · have hmem : '[' ∈ inside := (infix_trim inside).subset (List.mem_of_mem_head? hopening)
        exact absurd hmem hposition.no_bracket.1
      · obtain ⟨rfl, rfl⟩ := hparts.unique hparts'
        exact ⟨by simpa using hne, heach⟩
    · rintro ⟨hne, heach⟩
      exact .several hopening hparts (by simpa using hne) heach
  · rw [if_neg hopening] at hpieces
    subst hpieces
    rw [startsWith_opening_iff] at hopening
    constructor
    · rintro (hposition | ⟨hopened, -, -, -⟩)
      · exact ⟨by simp, .cons (saysPosition_trim_iff.2 hposition) .nil⟩
      · exact absurd hopened hopening
    · rintro ⟨-, heach⟩
      obtain ⟨p, others, hposition, hothers, rfl⟩ := List.forall₂_cons_left_iff.1 heach
      obtain rfl := List.forall₂_nil_left_iff.1 hothers
      exact .single (saysPosition_trim_iff.1 hposition)

/-- The places of an annotation are those that its first bracket says, and its text is what follows
this bracket. -/
theorem readPlaces_eq_ok_iff {t text : Text} {places : List Position} :
    readPlaces t = .ok (places, text) ↔
      ∃ skipped inside behind, FirstBracket t skipped inside behind ∧
        SaysPlaces inside places ∧ text = trim behind := by
  simp only [firstBracket_iff]
  unfold readPlaces
  constructor
  · intro h
    split at h
    · cases h
    next skipped opened hcut =>
    split at h
    · cases h
    next inside behind hclosing =>
    dsimp only at h
    generalize hpieces : (if startsWith ['['] (trim inside) then innermostGroups none (trim inside)
      else [trim inside]) = pieces at h
    split at h
    · cases h
    next hne =>
    obtain ⟨found, hfound, hparts⟩ := bind_eq_ok.1 h
    obtain ⟨rfl, rfl⟩ := Prod.mk.inj (Except.ok.inj hparts)
    refine ⟨skipped, inside, behind, ⟨opened, hcut, hclosing⟩, ?_, rfl⟩
    exact (saysPlaces_iff hpieces).2 ⟨by simpa using hne, mapM_readPosition_iff.1 hfound⟩
  · rintro ⟨skipped, inside, behind, ⟨opened, hcut, hclosing⟩, hplaces, rfl⟩
    obtain ⟨hne, heach⟩ := (saysPlaces_iff rfl).1 hplaces
    simp only [hcut, hclosing]
    rw [if_neg (by simpa using hne), mapM_readPosition_iff.2 heach]
    rfl

end WardleyMaps
