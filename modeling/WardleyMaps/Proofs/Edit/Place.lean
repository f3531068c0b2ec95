/-
Module: WardleyMaps.Proofs.Edit.Place
Purpose: The lines of a source in both forms, and the line on which an edit is made.
Main exports: sourceForms_getElem?, map_raw_sourceForms, mem_matchingLines, exists_of_locateFirst,
  exists_form_of_locateFirst, locateFirst_append, bareLines_replace, updatePosition_eq_ok,
  updateEvolution_eq_ok
-/
import WardleyMaps.Edit.Evolution
import WardleyMaps.Proofs.Comment.Segment
import WardleyMaps.Proofs.Document.Pass
import WardleyMaps.Proofs.Text.Cut

namespace WardleyMaps

open Text

/-!
The three views of a source, its lines, its lines without comments and the flags of bodies, are
lists of one length, so a line and its number determine a form. An edit is made on the first form on
which a span is found; all other lines are taken over (`exists_of_locateFirst`).
-/

theorem sourceForms_getElem? {source : Text} {i : Nat} {form : SourceLine} :
    (sourceForms source)[i]? = some form ↔
      (lines source)[i]? = some form.raw ∧ (bareLines source)[i]? = some form.bare ∧
        (inBody (bareLines source))[i]? = some form.hidden := by
  obtain ⟨raw, bare, hidden⟩ := form
  simp only [sourceForms, bareLines, List.zip, List.getElem?_zipWith]
  cases (lines source)[i]? <;> cases (stripLines false (lines source))[i]? <;>
    cases (inBody (stripLines false (lines source)))[i]? <;> simp

theorem length_sourceForms (source : Text) :
    (sourceForms source).length = (lines source).length := by
  simp [sourceForms, inBody, length_inBodyFrom, length_stripLines]

theorem exists_form_of_bare {source : Text} {i : Nat} {bare : Text}
    (h : (bareLines source)[i]? = some bare) :
    ∃ form, (sourceForms source)[i]? = some form ∧ form.bare = bare := by
  have hlt : i < (sourceForms source).length := by
    rw [length_sourceForms, ← length_stripLines false]
    exact (List.getElem?_eq_some_iff.1 h).1
  have hform := List.getElem?_eq_getElem hlt
  obtain ⟨-, hbare, -⟩ := sourceForms_getElem?.1 hform
  exact ⟨_, hform, Option.some.inj (hbare.symm.trans h)⟩

theorem map_raw_sourceForms (source : Text) :
    (sourceForms source).map (·.raw) = lines source := by
  apply List.ext_getElem?
  intro i
  rw [List.getElem?_map]
  cases hform : (sourceForms source)[i]? with
  | some form => exact (sourceForms_getElem?.1 hform).1.symm
  | none =>
      rw [List.getElem?_eq_none_iff, length_sourceForms] at hform
      exact (List.getElem?_eq_none hform).symm

theorem mem_matchingLines {source name : Text} {number : Nat} :
    number ∈ matchingLines source name ↔
      ∃ i form, number = i + 1 ∧ (sourceForms source)[i]? = some form ∧ form.hidden = false ∧
        declares name form.bare = true := by
  simp only [matchingLines, List.mem_filterMap, Prod.exists, Option.ite_none_right_eq_some,
    Bool.and_eq_true, Bool.not_eq_true', List.mk_mem_zipIdx_iff_le_and_getElem?_sub,
    Option.some.injEq]
  constructor
  · rintro ⟨form, n, ⟨hle, hform⟩, ⟨hhidden, hdeclares⟩, rfl⟩
    exact ⟨n - 1, form, by omega, hform, hhidden, hdeclares⟩
  · rintro ⟨i, form, rfl, hform, hhidden, hdeclares⟩
    exact ⟨form, i + 1, ⟨by omega, hform⟩, ⟨hhidden, hdeclares⟩, rfl⟩

/-- The place that is found is on a line with a span, and no line above it has one. -/
theorem exists_of_locateFirst {locate : SourceLine → Option Span} {forms : List SourceLine}
    {p : EditPlace} (h : locateFirst locate forms = some p) :
    ∃ above form below, forms = above ++ form :: below ∧
      (∀ other ∈ above, locate other = none) ∧ locate form = some p.span ∧
      p.above = above.map (·.raw) ∧ p.below = below.map (·.raw) := by
  induction forms generalizing p with
  | nil => cases h
  | cons head rest ih =>
      rw [locateFirst] at h
      cases hspan : locate head with
      | some span =>
          rw [hspan] at h
          obtain rfl := Option.some.inj h
          exact ⟨[], head, rest, rfl, by simp, hspan, rfl, rfl⟩
      | none =>
          rw [hspan] at h
          obtain ⟨q, hq, rfl⟩ := Option.map_eq_some_iff.1 h
          obtain ⟨above, form, below, rfl, habove, hform, hqabove, hqbelow⟩ := ih hq
          refine ⟨head :: above, form, below, rfl, ?_, hform, by simp [hqabove], hqbelow⟩
          exact List.forall_mem_cons.2 ⟨hspan, habove⟩

/-- The place that is found is on the first line with a span. -/
theorem exists_form_of_locateFirst {locate : SourceLine → Option Span} {forms : List SourceLine}
    {p : EditPlace} (h : locateFirst locate forms = some p) :
    ∃ form, forms[p.above.length]? = some form ∧ locate form = some p.span ∧
      ∀ j < p.above.length, ∀ earlier ∈ forms[j]?, locate earlier = none := by
  obtain ⟨above, form, below, rfl, habove, hspan, hpAbove, -⟩ := exists_of_locateFirst h
  rw [hpAbove, List.length_map]
  refine ⟨form, by simp, hspan, ?_⟩
  intro j hj earlier hearlier
  rw [List.getElem?_append_left hj] at hearlier
  exact habove earlier (List.mem_of_getElem? hearlier)

/-- The first line with a span is found. -/
theorem locateFirst_append {locate : SourceLine → Option Span} {above : List SourceLine}
    (habove : ∀ other ∈ above, locate other = none) {form : SourceLine} {span : Span}
    (hform : locate form = some span) (below : List SourceLine) :
    locateFirst locate (above ++ form :: below) =
      some { above := above.map (·.raw), span, below := below.map (·.raw) } := by
  induction above with
  | nil => simp [locateFirst, hform]
  | cons head rest ih =>
      obtain ⟨hhead, hrest⟩ := List.forall_mem_cons.1 habove
      rw [List.cons_append, locateFirst, hhead, ih hrest]
      rfl

/-- Nothing is found when no line has a span. -/
theorem locateFirst_eq_none {locate : SourceLine → Option Span} {forms : List SourceLine} :
    locateFirst locate forms = none ↔ ∀ form ∈ forms, locate form = none := by
  induction forms with
  | nil => simp [locateFirst]
  | cons head rest ih =>
      rw [locateFirst, List.forall_mem_cons]
      cases hspan : locate head with
      | some span => simp
      | none => simp [ih]

/-! ### One line without comments -/

/-- A line without comments is replaced by another one, and with comments left out all other lines
stay the same. -/
theorem bareLines_replace {source a b : Text} {above below : List Text}
    (hlines : lines source = above ++ a :: below)
    (hbare : (bareLines source)[above.length]? = some (trimEnd a)) (hblank : ¬ Blank a)
    (hkeep : Uncommented (isAddressLine a) a → Uncommented (isAddressLine b) b)
    (hnewline : '\n' ∉ b) :
    bareLines source = stripLines false above ++ trimEnd a :: stripLines false below ∧
      bareLines (unlines (above ++ b :: below)) =
        stripLines false above ++ trimEnd b :: stripLines false below := by
  rw [bareLines, hlines] at hbare
  obtain ⟨hblock, hold⟩ := uncommented_of_stripLines hbare hblank
  constructor
  · rw [bareLines, hlines, stripLines_uncommented hblock hold]
  · rw [bareLines, lines_replace hlines hnewline, stripLines_uncommented hblock (hkeep hold)]

/-! ### Edits -/

/-- A position is written at the first place that is found for it. -/
theorem updatePosition_eq_ok {source name : Text} {position : Position} {precision : Int}
    {edited : Edited} :
    updatePosition source name position precision = .ok (some edited) ↔
      ∃ p pair, locateFirst (positionSpan name) (sourceForms source) = some p ∧
        pairText precision position = .ok pair ∧ edited = p.write pair := by
  rw [updatePosition, bind_eq_ok]
  simp only [Except.ok.injEq, Option.map_eq_some_iff]
  constructor
  · rintro ⟨pair, hpair, p, hlocated, rfl⟩
    exact ⟨p, pair, hlocated, hpair, rfl⟩
  · rintro ⟨p, pair, hlocated, hpair, rfl⟩
    exact ⟨pair, hpair, p, hlocated, rfl⟩

/-- A maturity is written at the first place that is found for it. -/
theorem updateEvolution_eq_ok {source name : Text} {maturity : Double} {precision : Int}
    {edited : Edited} :
    updateEvolution source name maturity precision = .ok (some edited) ↔
      ∃ p numeral, locateFirst (maturitySpan name) (sourceForms source) = some p ∧
        maturity.fixedText precision = .ok numeral ∧ edited = p.write numeral := by
  unfold updateEvolution
  cases locateFirst (maturitySpan name) (sourceForms source) with
  | none => simp
  | some p => cases maturity.fixedText precision <;> simp [Except.map, eq_comm]

theorem updateEvolution_eq_none {source name : Text} {maturity : Double} {precision : Int} :
    updateEvolution source name maturity precision = .ok none ↔
      ∀ form ∈ sourceForms source, maturitySpan name form = none := by
  rw [← locateFirst_eq_none]
  unfold updateEvolution
  cases locateFirst (maturitySpan name) (sourceForms source) with
  | none => simp
  | some p => cases maturity.fixedText precision <;> simp [Except.map]

end WardleyMaps
