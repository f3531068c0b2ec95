/-
Module: WardleyMaps.Proofs.Edit.Commute
Purpose: Positions of different names can be written in either order.
Main exports: Unnamed, OnlyForm, applyPosition_of_only, exists_form_written, DeclaredOnce,
  applyPosition_comm
-/
import WardleyMaps.Proofs.Edit.Kept

namespace WardleyMaps

open Text

/-!
When two names are declared on one line each, an edit for the one replaces one entry of the list of
lines and leaves the other name's line, and where its brackets stand on it, as they are. So both
orders replace the same two entries by the same lines (`applyPosition_comm`). The line of a name may
be one whose brackets are never closed: then nothing is written for this name, in either order.
-/

/-! ### One line for a name -/

/-- A line into which nothing is written for a name: it does not declare the name, or lies inside a
body, and it is no note that holds the name. -/
structure Unnamed (name : Text) (form : SourceLine) : Prop where
  undeclared : form.hidden = true ∨ declares name form.bare = false
  unnoted : noteHolds name form.bare = false

theorem Unnamed.refill {name old new : Text} {form form' : SourceLine} (h : Unnamed name form)
    (unopened : '[' ∉ name) (hidden : form'.hidden = form.hidden)
    (refilled : Refilled old new form.bare form'.bare) : Unnamed name form' := by
  constructor
  · rw [hidden, ← refilled.declares_eq unopened]
    exact h.undeclared
  · rw [← refilled.noteHolds_eq]
    exact h.unnoted

/-- Of all lines a position for a name may be written into one only. -/
structure OnlyForm (name : Text) (forms : List SourceLine) (i : Nat) (form : SourceLine) :
    Prop where
  here : forms[i]? = some form
  others : ∀ j other, j ≠ i → forms[j]? = some other → Unnamed name other

/-- What the line of a name becomes when a text is written for this name. -/
def SourceLine.written (form : SourceLine) (name new : Text) : Text :=
  ((positionSpan name form).map (·.line new)).getD form.raw

section

variable {name : Text} {forms : List SourceLine} {i : Nat} {form : SourceLine}

theorem OnlyForm.locateFirst (only : OnlyForm name forms i form) :
    ∃ above below, above.length = i ∧ forms.map (·.raw) = above ++ form.raw :: below ∧
      locateFirst (positionSpan name) forms =
        (positionSpan name form).map fun span => { above, span, below } := by
  obtain ⟨above, below, rfl, rfl⟩ := exists_around only.here
  have refused : ∀ j other, j ≠ above.length → (above ++ form :: below)[j]? = some other →
      positionSpan name other = none := by
    intro j other apart there
    have unnamed := only.others j other apart there
    exact positionSpan_eq_none unnamed.undeclared unnamed.unnoted
  have refused_above : ∀ other ∈ above, positionSpan name other = none := by
    intro other mem
    obtain ⟨j, hj⟩ := List.getElem?_of_mem mem
    have before : j < above.length := (List.getElem?_eq_some_iff.1 hj).1
    exact refused j other before.ne (by rw [List.getElem?_append_left before, hj])
  refine ⟨above.map (·.raw), below.map (·.raw), List.length_map _, by simp, ?_⟩
  cases found : positionSpan name form with
  | some span => exact locateFirst_append refused_above found below
  | none =>
      rw [Option.map_none, locateFirst_eq_none]
      intro other mem
      obtain ⟨j, there⟩ := List.getElem?_of_mem mem
      by_cases same : j = above.length
      · rw [same, List.getElem?_append_right le_rfl, Nat.sub_self, List.getElem?_cons_zero] at there
        rwa [← Option.some.inj there]
      · exact refused j other same there

end

section

variable {source name new : Text} {i : Nat} {form : SourceLine}

/-- An edit for a name with one line replaces this line. -/
theorem applyPosition_of_only (only : OnlyForm name (sourceForms source) i form)
    {position : Position} {precision : Int} (written : pairText precision position = .ok new) :
    applyPosition source name position precision =
      .ok (unlines ((lines source).set i (form.written name new))) := by
  obtain ⟨above, below, rfl, raws, located⟩ := only.locateFirst
  rw [map_raw_sourceForms] at raws
  rw [applyPosition, updatePosition, written, located, raws, set_around rfl, SourceLine.written]
  cases positionSpan name form with
  | some span => rfl
  | none =>
      simp only [Option.map_none, Option.getD_none, ← raws, unlines_lines]
      rfl

/-- Where a line has no comment its brackets are passed. -/
theorem EditPlace.quiet_of_uncommented {p : EditPlace}
    (at_line : lines source = p.above ++ p.line :: p.below) (bracketed : p.span.Bracketed p.line)
    (uncommented : (bareLines source)[p.above.length]? = some (trimEnd p.line)) : p.Quiet := by
  obtain ⟨front, tail, before, -, line⟩ := exists_brackets bracketed
  have shape : p.line = front ++ '[' :: (p.span.old ++ ']' :: tail) := line _
  have visible : ¬ Blank p.line := by
    intro blank
    have bracket := blank '[' (by simp [shape])
    rw [isBlank_openingBracket] at bracket
    cases bracket
  rw [bareLines, at_line] at uncommented
  obtain ⟨block, plain⟩ := uncommented_of_stripLines uncommented visible
  have parts := plain
  rw [shape, uncommented_append plain_openingBracket, uncommented_append plain_closingBracket,
    ← shape] at parts
  refine .inl ⟨?_, parts.2.1⟩
  rw [EditPlace.state_eq_settled before, block]
  exact (parts.1.isCode.settled).symm ▸ ScanState.isCode_outside false

/-- Writing into the one line of a name gives a source with the same forms but for this line, which
is recognised as before. -/
theorem exists_form_written (only : OnlyForm name (sourceForms source) i form)
    (uncommented : form.bare = trimEnd form.raw) (visible : form.hidden = false)
    (inert : Inert new) :
    ∃ form' old, form'.raw = form.written name new ∧ form'.hidden = form.hidden ∧
      Refilled old new form.bare form'.bare ∧
      sourceForms (unlines ((lines source).set i (form.written name new))) =
        (sourceForms source).set i form' := by
  obtain ⟨above, below, rfl, raws, -⟩ := only.locateFirst
  rw [map_raw_sourceForms] at raws
  rw [raws, set_around rfl, SourceLine.written]
  cases found : positionSpan name form with
  | none =>
      refine ⟨form, [], rfl, rfl, .same _, ?_⟩
      rw [Option.map_none, Option.getD_none, ← raws, unlines_lines]
      obtain ⟨inside, here⟩ := List.getElem?_eq_some_iff.1 only.here
      rw [← here, List.set_getElem_self]
  | some span =>
      have bracketed := positionSpan_bracketed found
      let p : EditPlace := { above, span, below }
      have line : form.raw = p.line := bracketed.on.line
      rw [line] at bracketed raws
      have quiet : p.Quiet := by
        apply EditPlace.quiet_of_uncommented raws bracketed
        rw [← line, ← uncommented]
        exact (sourceForms_getElem?.1 only.here).2.1
      obtain ⟨bare, refilled, written⟩ :=
        sourceForms_write raws only.here found quiet (fun _ => visible) inert
      exact ⟨{ form with raw := p.span.line new, bare }, span.old, rfl, rfl, refilled, written⟩

end

/-! ### Two names -/

/-- A name is declared on one line only, outside of bodies. No note holds the name, and leaving
comments out takes nothing but blanks at its end away from the line. -/
structure DeclaredOnce (source name : Text) (number : Nat) : Prop where
  only : matchingLines source name = [number]
  unnoted : ∀ form ∈ sourceForms source, noteHolds name form.bare = false
  uncommented : ∀ form ∈ (sourceForms source)[number - 1]?, form.bare = trimEnd form.raw

theorem DeclaredOnce.exists_only {source name : Text} {number : Nat}
    (h : DeclaredOnce source name number) :
    ∃ i form, number = i + 1 ∧ OnlyForm name (sourceForms source) i form ∧
      form.bare = trimEnd form.raw ∧ form.hidden = false := by
  have mem : number ∈ matchingLines source name := h.only ▸ List.mem_singleton_self number
  obtain ⟨i, form, rfl, here, visible, -⟩ := mem_matchingLines.1 mem
  refine ⟨i, form, rfl, ⟨here, ?_⟩, h.uncommented form here, visible⟩
  intro j other apart there
  refine ⟨?_, h.unnoted other (List.mem_of_getElem? there)⟩
  by_contra named
  rw [not_or, Bool.not_eq_true, Bool.not_eq_false] at named
  have again : j + 1 ∈ matchingLines source name :=
    mem_matchingLines.2 ⟨j, other, rfl, there, named⟩
  rw [h.only, List.mem_singleton] at again
  omega

/-- After an edit for one name the line of the other name is the same one. -/
theorem OnlyForm.set {name : Text} {forms : List SourceLine} {i j : Nat}
    {form other other' : SourceLine} (only : OnlyForm name forms i form) (apart : j ≠ i)
    (there : forms[j]? = some other) (unnamed : Unnamed name other') :
    OnlyForm name (forms.set j other') i form := by
  refine ⟨by rw [List.getElem?_set_ne apart]; exact only.here, ?_⟩
  intro k form' away found
  by_cases same : j = k
  · subst same
    rw [List.getElem?_set_self (List.getElem?_eq_some_iff.1 there).1] at found
    rwa [← Option.some.inj found]
  · rw [List.getElem?_set_ne same] at found
    exact only.others k form' away found

/-- Two edits, one after the other. -/
theorem applyPosition_twice {source first second a b : Text} {i j : Nat} {form other : SourceLine}
    {p q : Position} {precision places : Int}
    (only : OnlyForm first (sourceForms source) i form)
    (uncommented : form.bare = trimEnd form.raw) (visible : form.hidden = false)
    (onlyOther : OnlyForm second (sourceForms source) j other) (unopenedOther : '[' ∉ second)
    (apart : i ≠ j) (inert : Inert a) (written : pairText precision p = .ok a)
    (writtenOther : pairText places q = .ok b) :
    (applyPosition source first p precision).bind (applyPosition · second q places) =
      .ok (unlines
        (((lines source).set i (form.written first a)).set j (other.written second b))) := by
  obtain ⟨form', old, raw, hidden, refilled, forms⟩ :=
    exists_form_written only uncommented visible inert
  have unnamed : Unnamed second form' :=
    (onlyOther.others i form apart only.here).refill unopenedOther hidden refilled
  have onlyAgain := onlyOther.set apart only.here unnamed
  rw [← forms] at onlyAgain
  have raws : lines (unlines ((lines source).set i (form.written first a))) =
      (lines source).set i (form.written first a) := by
    rw [← map_raw_sourceForms, forms, List.map_set, map_raw_sourceForms, raw]
  rw [applyPosition_of_only only written]
  change applyPosition _ second q places = _
  rw [applyPosition_of_only onlyAgain writtenOther, raws]

theorem exists_pairText_iff {precision : Int} (position : Position) :
    (∃ pair, pairText precision position = .ok pair) ↔
      0 ≤ precision ∧ precision < (Nat.pow 2 31 : Nat) := by
  constructor
  · rintro ⟨pair, written⟩
    obtain ⟨visibility, -, first, -, -⟩ := pairText_eq_ok.1 written
    exact (fixedText_eq_ok first).2
  · rintro ⟨least, most⟩
    exact exists_pairText least most position

theorem exists_pairText_of_applyPosition {source name text : Text} {position : Position}
    {precision : Int} (h : applyPosition source name position precision = .ok text) :
    ∃ pair, pairText precision position = .ok pair := by
  cases written : pairText precision position with
  | ok pair => exact ⟨pair, rfl⟩
  | error e =>
      rw [applyPosition, updatePosition, written] at h
      cases h

/-- Positions of two names that are declared on one line each can be written in either order: both
orders give the same text, and they give one just when both positions can be written. -/
theorem applyPosition_comm {source a b : Text} {i j : Nat} (first : DeclaredOnce source a i)
    (second : DeclaredOnce source b j) (apart : i ≠ j) (unopened : '[' ∉ a)
    (unopenedOther : '[' ∉ b) {p q : Position} (pv : p.visibility.isFinite = true)
    (pm : p.maturity.isFinite = true) (qv : q.visibility.isFinite = true)
    (qm : q.maturity.isFinite = true) (precision places : Int) :
    (∀ text, (applyPosition source a p precision).bind (applyPosition · b q places) = .ok text ↔
      (applyPosition source b q places).bind (applyPosition · a p precision) = .ok text) ∧
    ((∃ text, (applyPosition source a p precision).bind (applyPosition · b q places) = .ok text) ↔
      (0 ≤ precision ∧ precision < (Nat.pow 2 31 : Nat)) ∧
        0 ≤ places ∧ places < (Nat.pow 2 31 : Nat)) := by
  rw [← exists_pairText_iff p, ← exists_pairText_iff q]
  by_cases writable : (∃ x, pairText precision p = .ok x) ∧ ∃ y, pairText places q = .ok y
  · obtain ⟨⟨x, hx⟩, y, hy⟩ := writable
    obtain ⟨m, form, rfl, only, bare, visible⟩ := first.exists_only
    obtain ⟨n, other, rfl, onlyOther, bareOther, visibleOther⟩ := second.exists_only
    have away : m ≠ n := fun same => apart (by rw [same])
    rw [applyPosition_twice only bare visible onlyOther unopenedOther away
        (inert_of_pairText pv pm hx) hx hy,
      applyPosition_twice onlyOther bareOther visibleOther only unopened away.symm
        (inert_of_pairText qv qm hy) hy hx, List.set_comm _ _ away]
    exact ⟨fun _ => Iff.rfl, iff_of_true ⟨_, rfl⟩ ⟨⟨x, hx⟩, y, hy⟩⟩
  · -- In either order one of the edits fails.
    have refused : ∀ text,
        (applyPosition source a p precision).bind (applyPosition · b q places) ≠ .ok text := by
      intro text done
      obtain ⟨middle, one, two⟩ := bind_eq_ok.1 done
      exact writable
        ⟨exists_pairText_of_applyPosition one, exists_pairText_of_applyPosition two⟩
    have refusedOther : ∀ text,
        (applyPosition source b q places).bind (applyPosition · a p precision) ≠ .ok text := by
      intro text done
      obtain ⟨middle, one, two⟩ := bind_eq_ok.1 done
      exact writable
        ⟨exists_pairText_of_applyPosition two, exists_pairText_of_applyPosition one⟩
    exact ⟨fun text => iff_of_false (refused text) (refusedOther text),
      iff_of_false (fun ⟨text, done⟩ => refused text done) writable⟩

/-- Two declarations with braces between their brackets, and a comment with a bracket. -/
def tableSource : Text :=
  "component Cup [0.1, \x7b0.2\x7d]\n/* tea [ */\nanchor Pot [0.5\x7d \x7b]".toList

theorem applyPosition_comm_cup_pot :
    DeclaredOnce tableSource "Cup".toList 1 ∧ DeclaredOnce tableSource "Pot".toList 3 ∧
      (applyPosition tableSource "Cup".toList { visibility := 0.5, maturity := 0.25 } 2).bind
        (applyPosition · "Pot".toList { visibility := 0.9, maturity := 0.1 } 1) =
        .ok "component Cup [0.50, 0.25]\n/* tea [ */\nanchor Pot [0.9, 0.1]".toList := by
  have cup : DeclaredOnce tableSource "Cup".toList 1 :=
    ⟨by decide +kernel, by decide +kernel, by decide +kernel⟩
  have pot : DeclaredOnce tableSource "Pot".toList 3 :=
    ⟨by decide +kernel, by decide +kernel, by decide +kernel⟩
  refine ⟨cup, pot, ?_⟩
  rw [(applyPosition_comm cup pot (by decide) (by decide) (by decide) (by decide +kernel)
    (by decide +kernel) (by decide +kernel) (by decide +kernel) 2 1).1]
  decide +kernel

end WardleyMaps
