/-
Module: WardleyMaps.Proofs.Edit.CommentFree
Purpose: When an edit leaves comments alone.
Main exports: EditPlace.marks, EditPlace.CommentFree, EditPlace.Replaces,
  EditPlace.bareLines_getElem?, commentFree_iff
-/
import WardleyMaps.Proofs.Comment.Segment
import WardleyMaps.Proofs.Edit.Place
import WardleyMaps.Proofs.Edit.Span

namespace WardleyMaps

open Text

/-!
A statement is recognised on its line without comments, but the span of an edit is looked for on the
line as it stands in the source. What is found first there may lie in a comment, or hold one. The
edit leaves comments alone exactly when no comment is open where the span begins and none begins in
it (`commentFree_iff`). A maturity token holds no slash, so for it only the first of these matters.
The characters that belong to comments are those that are left out before a document is read, but
for blanks at the ends of lines (`EditPlace.bareLines_getElem?`).
-/

/-! ### The comments around a place -/

/-- The line of a place as it stands in the source. -/
def EditPlace.line (p : EditPlace) : Text :=
  p.span.line p.span.old

/-- For each character of the line, whether it belongs to a comment. -/
def EditPlace.marks (p : EditPlace) : List Bool :=
  commentMarks (isAddressLine p.line) (.start (blockAfter false p.above)) p.line

/-- The same for the characters of the span. -/
def EditPlace.spanMarks (p : EditPlace) : List Bool :=
  (p.marks.drop p.span.before.length).take p.span.old.length

/-- No character of the span belongs to a comment. -/
def EditPlace.CommentFree (p : EditPlace) : Prop :=
  ∀ mark ∈ p.spanMarks, mark = false

instance (p : EditPlace) : Decidable p.CommentFree :=
  inferInstanceAs (Decidable (∀ mark ∈ p.spanMarks, mark = false))

/-- Where the scanner of comments stands when it reaches the span. -/
def EditPlace.state (p : EditPlace) : ScanState :=
  scanEnd (isAddressLine p.line) (.start (blockAfter false p.above)) p.span.before

/-- An edit replaces the span of a place in a source, and nothing else. -/
structure EditPlace.Replaces (p : EditPlace) (source : Text) (edited : Edited) : Prop where
  before : source = p.source p.span.old
  after : edited = p.write edited.written

/-- What is left of the line without comments are the characters that belong to none, up to the
blanks at the end. -/
theorem EditPlace.bareLines_getElem? {p : EditPlace} {source : Text}
    (h : lines source = p.above ++ p.line :: p.below) :
    (bareLines source)[p.above.length]? = some (trimEnd (unmarked p.marks p.line)) := by
  rw [bareLines, h, stripLines_append,
    List.getElem?_append_right (by rw [length_stripLines]), length_stripLines, Nat.sub_self,
    stripLines, keepOutside_eq_scan]
  rfl

/-! ### From the line to the span -/

/-- Behind a plain character the scanner stands in a settled state, and the marks of the span are
those that it makes from there. -/
theorem EditPlace.spanMarks_eq {p : EditPlace} {mark : Char} (hmark : Plain mark)
    (h : ∃ front, p.span.before = front ++ [mark]) :
    p.state.settled = p.state ∧
      p.spanMarks = (commentMarks (isAddressLine p.line) p.state (p.span.old ++ p.span.after)).take
        p.span.old.length := by
  obtain ⟨front, hfront⟩ := h
  have hline : p.line = front ++ mark :: (p.span.old ++ p.span.after) := by
    rw [line, Span.line, hfront]
    simp
  have hstate : p.state =
      (scanEnd (isAddressLine p.line) (.start (blockAfter false p.above)) front).settled := by
    rw [state, hfront, scanEnd_append hmark]
    rfl
  constructor
  · rw [hstate]
    cases scanEnd (isAddressLine p.line) (.start (blockAfter false p.above)) front <;> rfl
  · have hlength : p.span.before.length = front.length + 1 := by
      rw [hfront, List.length_append, List.length_singleton]
    rw [spanMarks, marks, hstate, hlength]
    conv_lhs => rw [hline]
    rw [commentMarks_append hmark, drop_around (length_commentMarks _ _ _), ← hline]

/-- A span that begins in a comment is not free of comments, unless it is empty. -/
theorem EditPlace.not_commentFree {p : EditPlace} {mark : Char} (hmark : Plain mark)
    (h : ∃ front, p.span.before = front ++ [mark]) (hstate : ¬ p.state.IsCode)
    (hne : p.span.old ≠ []) : ¬ p.CommentFree := by
  obtain ⟨c, cs, hold⟩ := List.exists_cons_of_ne_nil hne
  intro hfree
  rw [CommentFree, (spanMarks_eq hmark h).2, hold, List.cons_append, commentMarks,
    List.length_cons, List.take_succ_cons, List.forall_mem_cons] at hfree
  have htrue := ScanState.step_of_not_isCode hstate (isAddressLine p.line) c
    (cs ++ p.span.after).head?
  rw [hfree.1] at htrue
  exact absurd htrue Bool.false_ne_true

theorem EditPlace.state_eq_outside {p : EditPlace} {mark : Char} (hmark : Plain mark)
    (h : ∃ front, p.span.before = front ++ [mark]) (hstate : p.state.IsCode) :
    p.state = .outside false := by
  rw [← (spanMarks_eq hmark h).1, hstate.settled]

/-- Contents of brackets are free of comments exactly when they are empty, or when the opening
bracket stands in code and no comment begins between the brackets. -/
theorem EditPlace.commentFree_iff_of_bracket {p : EditPlace}
    (h : ∃ front, p.span.before = front ++ ['[']) (hafter : ∃ tail, p.span.after = ']' :: tail) :
    p.CommentFree ↔
      p.span.old = [] ∨ p.state.IsCode ∧ Uncommented (isAddressLine p.line) p.span.old := by
  by_cases hstate : p.state.IsCode
  · have houtside := state_eq_outside plain_openingBracket h hstate
    have hmarks : p.spanMarks =
        commentMarks (isAddressLine p.line) (.outside false) p.span.old := by
      obtain ⟨tail, htail⟩ := hafter
      rw [(spanMarks_eq plain_openingBracket h).2, houtside, htail,
        commentMarks_append plain_closingBracket, List.take_left' (length_commentMarks _ _ _)]
    rw [CommentFree, hmarks]
    constructor
    · intro hfree
      exact .inr ⟨hstate, hfree⟩
    · rintro (hnil | ⟨-, hfree⟩)
      · rw [hnil]
        intro mark hmark
        cases hmark
      · exact hfree
  · constructor
    · intro hfree
      by_contra hcontra
      rw [not_or] at hcontra
      exact not_commentFree plain_openingBracket h hstate hcontra.1 hfree
    · rintro (hnil | ⟨hcode, -⟩)
      · intro mark hmark
        rw [spanMarks, hnil] at hmark
        simp at hmark
      · exact absurd hcode hstate

/-- A maturity token is free of comments exactly when it begins in code. -/
theorem EditPlace.commentFree_iff_of_maturity {p : EditPlace} {blank : Char}
    (hblank : isBlank blank = true) (h : ∃ front, p.span.before = front ++ [blank])
    (htoken : MaturityText p.span.old) : p.CommentFree ↔ p.state.IsCode := by
  have hplain := Plain.of_isBlank hblank
  constructor
  · intro hfree
    by_contra hstate
    exact not_commentFree hplain h hstate htoken.ne_nil hfree
  · intro hstate
    rw [CommentFree, (spanMarks_eq hplain h).2]
    have hslash : '/' ∉ p.span.old := htoken.not_mem (by decide +kernel) (by decide)
    exact commentMarks_of_slash_not_mem hstate hslash p.span.after

/-! ### The two edits -/

/-- The line of a place that was found is a line of the source. -/
theorem EditPlace.lines_eq {source : Text} {locate : SourceLine → Option Span} {p : EditPlace}
    (hlocated : locateFirst locate (sourceForms source) = some p)
    (hlocate : ∀ form span, locate form = some span → form.raw = span.line span.old) :
    lines source = p.above ++ p.line :: p.below := by
  obtain ⟨above, form, below, hforms, -, hspan, habove, hbelow⟩ := exists_of_locateFirst hlocated
  rw [← map_raw_sourceForms, hforms, List.map_append, List.map_cons, hlocate form _ hspan, habove,
    hbelow]
  rfl

theorem EditPlace.replaces_write {source : Text} {p : EditPlace}
    (h : lines source = p.above ++ p.line :: p.below) (new : Text) :
    p.Replaces source (p.write new) := by
  refine ⟨?_, rfl⟩
  rw [← unlines_lines source, h]
  rfl

/-- An edit of a position leaves comments alone exactly when there is nothing between the brackets,
or when the opening bracket stands in code and no comment begins between the brackets; an edit of a
maturity exactly when the token begins in code. -/
theorem commentFree_iff (source name : Text) (position : Position) (maturity : Double)
    (precision : Int) (edited : Edited) :
    (updatePosition source name position precision = .ok (some edited) →
      ∃ p, locateFirst (positionSpan name) (sourceForms source) = some p ∧
        p.Replaces source edited ∧
        (p.CommentFree ↔
          p.span.old = [] ∨ p.state.IsCode ∧ Uncommented (isAddressLine p.line) p.span.old)) ∧
    (updateEvolution source name maturity precision = .ok (some edited) →
      ∃ p, locateFirst (maturitySpan name) (sourceForms source) = some p ∧
        p.Replaces source edited ∧ (p.CommentFree ↔ p.state.IsCode)) := by
  constructor
  · intro h
    obtain ⟨new, -, hedited⟩ := bind_eq_ok.1 h
    obtain ⟨p, hlocated, rfl⟩ := Option.map_eq_some_iff.1 (Except.ok.inj hedited)
    obtain ⟨above, form, below, -, -, hspan, -, -⟩ := exists_of_locateFirst hlocated
    obtain ⟨hon, hafter⟩ := positionSpan_eq_some hspan
    have hlines :=
      EditPlace.lines_eq hlocated fun _ _ hfound => (positionSpan_eq_some hfound).1.line
    exact ⟨p, hlocated, EditPlace.replaces_write hlines new,
      EditPlace.commentFree_iff_of_bracket hon.before hafter⟩
  · intro h
    unfold updateEvolution at h
    split at h
    · cases h
    · next p hlocated =>
      cases hnew : maturity.fixedText precision with
      | error e =>
          rw [hnew] at h
          cases h
      | ok new =>
          rw [hnew] at h
          obtain rfl := Option.some.inj (Except.ok.inj h)
          obtain ⟨above, form, below, -, -, hspan, -, -⟩ := exists_of_locateFirst hlocated
          obtain ⟨blank, hblank, hon, htoken⟩ := maturitySpan_eq_some hspan
          have hlines := EditPlace.lines_eq hlocated fun _ _ hfound =>
            have ⟨_, _, hon, _⟩ := maturitySpan_eq_some hfound
            hon.line
          exact ⟨p, hlocated, EditPlace.replaces_write hlines new,
            EditPlace.commentFree_iff_of_maturity hblank hon.before htoken⟩

/-- Here the declaration in the comment is rewritten instead of the one behind it. -/
theorem not_commentFree_of_commented_declaration :
    let source := "/* component A [0.9, 0.9] */ component A [0.1, 0.2]".toList
    let edited : Edited :=
      { lineNumber := 1
        written := "0.50, 0.60".toList
        source := "/* component A [0.50, 0.60] */ component A [0.1, 0.2]".toList }
    updatePosition source "A".toList { visibility := 0.5, maturity := 0.6 } 2 = .ok (some edited) ∧
      ∃ p : EditPlace, p.Replaces source edited ∧ ¬ p.CommentFree := by
  intro source edited
  have hupdate : updatePosition source "A".toList { visibility := 0.5, maturity := 0.6 } 2 =
      .ok (some edited) := by decide +kernel
  obtain ⟨p, hlocated, hreplaces, hiff⟩ := (commentFree_iff _ _ _ 0.6 _ _).1 hupdate
  have hplace : locateFirst (positionSpan "A".toList) (sourceForms source) =
      some
        { above := []
          span :=
            { before := "/* component A [".toList
              old := "0.9, 0.9".toList
              after := "] */ component A [0.1, 0.2]".toList }
          below := [] } := by decide +kernel
  rw [hplace] at hlocated
  obtain rfl := Option.some.inj hlocated
  refine ⟨hupdate, _, hreplaces, ?_⟩
  rw [hiff]
  decide +kernel

end WardleyMaps
