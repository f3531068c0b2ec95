/-
Module: WardleyMaps.Proofs.Edit.Frame
Purpose: The span of a source that an edit replaces, and all that it keeps.
Main exports: unlines_append_cons, SameButLine, Edited.Rewrites, EditPlace.rewrites, edited_frame
-/
import WardleyMaps.Proofs.Edit.CommentFree
import WardleyMaps.Proofs.Statement.Coordinates

namespace WardleyMaps

open Text

/-!
An edit is made on one line of a source. Seen on the source as one text it replaces one span, and
whatever stands around the span is kept (`edited_frame`): the contents of a pair of brackets for a
position, a whole maturity token for a maturity. Neither the old nor the new text of a span holds a
newline, so no line moves, and no line but the one of the edit changes.
-/

/-! ### One line in the text of all lines -/

theorem unlines_cons_cons (first second : Text) (others : List Text) :
    unlines (first :: second :: others) = first ++ ['\n'] ++ unlines (second :: others) := by
  simp [unlines]

/-- Each line but the last one ends with a newline. -/
theorem unlines_append_cons (above : List Text) (line : Text) (below : List Text) :
    unlines (above ++ line :: below) =
      above.flatMap (· ++ ['\n']) ++ line ++ below.flatMap ('\n' :: ·) := by
  have hbelow : ∀ first : Text, unlines (first :: below) = first ++ below.flatMap ('\n' :: ·) := by
    induction below with
    | nil => simp [unlines]
    | cons second rest ih =>
        intro first
        rw [unlines_cons_cons, ih, List.flatMap_cons]
        simp
  induction above with
  | nil => simpa using hbelow line
  | cons first rest ih =>
      obtain ⟨second, others, hrest⟩ : ∃ second others, rest ++ line :: below = second :: others :=
        List.exists_cons_of_ne_nil (by simp)
      rw [List.cons_append, hrest, unlines_cons_cons, ← hrest, ih, List.flatMap_cons]
      simp only [List.append_assoc]

/-- Two texts with as many lines, all of which are the same but the one with a number. -/
structure SameButLine (number : Nat) (a b : Text) : Prop where
  length : (lines a).length = (lines b).length
  others : ∀ i, i + 1 ≠ number → (lines a)[i]? = (lines b)[i]?

/-- An edit of a source writes its text in place of `old`, between `before` and `after`. -/
structure Edited.Rewrites (edited : Edited) (source before old after : Text) : Prop where
  found : source = before ++ old ++ after
  result : edited.source = before ++ edited.written ++ after
  lines : SameButLine edited.lineNumber source edited.source
  unbroken : '\n' ∉ old

theorem EditPlace.newline_not_mem_line {source : Text} {p : EditPlace}
    (hlines : lines source = p.above ++ p.line :: p.below) : '\n' ∉ p.line :=
  newline_not_mem_of_mem_lines (t := source) (by simp [hlines])

/-- Writing at a place of a source changes one of its lines. -/
theorem EditPlace.lines_source {source new : Text} {p : EditPlace}
    (hlines : lines source = p.above ++ p.line :: p.below) (hnew : '\n' ∉ new) :
    lines (p.source new) = p.above ++ p.span.line new :: p.below := by
  have hline := EditPlace.newline_not_mem_line hlines
  rw [line, Span.line, List.mem_append, List.mem_append, not_or, not_or] at hline
  refine lines_replace hlines ?_
  rw [Span.line, List.mem_append, List.mem_append, not_or, not_or]
  exact ⟨⟨hline.1.1, hnew⟩, hline.2⟩

/-- Writing at a place of a source replaces its span in the source. -/
theorem EditPlace.rewrites {source new : Text} {p : EditPlace}
    (hlines : lines source = p.above ++ p.line :: p.below) (hnew : '\n' ∉ new) :
    (p.write new).Rewrites source (p.above.flatMap (· ++ ['\n']) ++ p.span.before) p.span.old
      (p.span.after ++ p.below.flatMap ('\n' :: ·)) := by
  have hold : '\n' ∉ p.span.old := fun hmem =>
    EditPlace.newline_not_mem_line hlines (by simp [line, Span.line, hmem])
  have hwritten : lines (p.write new).source = p.above ++ p.span.line new :: p.below :=
    EditPlace.lines_source hlines hnew
  refine ⟨?_, ?_, ⟨?_, ?_⟩, hold⟩
  · rw [← unlines_lines source, hlines, unlines_append_cons]
    simp [line, Span.line]
  · rw [write, EditPlace.source, unlines_append_cons]
    simp [Span.line]
  · rw [hlines, hwritten]
    simp
  · intro i hi
    have hne : i ≠ p.above.length := fun heq => hi (by rw [heq]; rfl)
    rw [hlines, hwritten, List.getElem?_append, List.getElem?_append]
    split
    · rfl
    · obtain ⟨k, hk⟩ : ∃ k, i - p.above.length = k + 1 := ⟨i - p.above.length - 1, by omega⟩
      rw [hk, List.getElem?_cons_succ, List.getElem?_cons_succ]

/-! ### What is written -/

theorem newline_not_mem_of_fixedText {precision : Int} {x : Double} {t : Text}
    (h : x.fixedText precision = .ok t) : '\n' ∉ t := by
  by_cases hx : x.isFinite = true
  · exact (written_fixedText hx h).not_mem (by decide)
  · unfold Double.fixedText at h
    cases hplaces : placesOf precision with
    | error e => simp [hplaces, Except.map] at h
    | ok places =>
        simp only [hplaces, Except.map, Except.ok.injEq] at h
        subst h
        cases x with
        | finite negative units hunits => simp [Double.isFinite] at hx
        | nan => exact (by decide : '\n' ∉ "nan".toList)
        | infinite negative =>
            cases negative with
            | true => exact (by decide : '\n' ∉ "-inf".toList)
            | false => exact (by decide : '\n' ∉ "inf".toList)

theorem pairText_eq_ok {precision : Int} {position : Position} {pair : Text} :
    pairText precision position = .ok pair ↔
      ∃ visibility maturity, position.visibility.fixedText precision = .ok visibility ∧
        position.maturity.fixedText precision = .ok maturity ∧
        pair = visibility ++ ", ".toList ++ maturity := by
  simp only [pairText, bind_eq_ok, Except.ok.injEq]
  constructor
  · rintro ⟨visibility, hvisibility, maturity, hmaturity, rfl⟩
    exact ⟨visibility, maturity, hvisibility, hmaturity, rfl⟩
  · rintro ⟨visibility, maturity, hvisibility, hmaturity, rfl⟩
    exact ⟨visibility, hvisibility, maturity, hmaturity, rfl⟩

theorem newline_not_mem_of_pairText {precision : Int} {position : Position} {pair : Text}
    (h : pairText precision position = .ok pair) : '\n' ∉ pair := by
  obtain ⟨visibility, maturity, hvisibility, hmaturity, rfl⟩ := pairText_eq_ok.1 h
  rw [List.mem_append, List.mem_append, not_or, not_or]
  exact ⟨⟨newline_not_mem_of_fixedText hvisibility, by decide⟩,
    newline_not_mem_of_fixedText hmaturity⟩

/-- A token that ends at the end of its line ends there in the source as well. -/
theorem MaturityShape.before_newline {token rest : Text} (h : MaturityShape token rest)
    (below : List Text) : MaturityShape token (rest ++ below.flatMap ('\n' :: ·)) := by
  refine ⟨h.parts, ?_⟩
  cases rest with
  | cons c cs => exact h.ended
  | nil =>
      cases below with
      | nil => simp
      | cons line others =>
          intro c hc
          obtain rfl : '\n' = c := by simpa using hc
          exact ⟨isDigit_of_isBlank isBlank_newline, by decide⟩

/-- An edit of a position replaces all that stands between two brackets of one line by the two
numerals, an edit of a maturity replaces one maturity token behind a blank by the numeral; the rest
of the source stays as it is, line by line. -/
theorem edited_frame (source name : Text) (position : Position) (maturity : Double)
    (precision : Int) (edited : Edited) :
    (updatePosition source name position precision = .ok (some edited) →
      ∃ before old after visibility maturity,
        edited.Rewrites source (before ++ ['[']) old (']' :: after) ∧ ']' ∉ old ∧
        position.visibility.fixedText precision = .ok visibility ∧
        position.maturity.fixedText precision = .ok maturity ∧
        edited.written = visibility ++ ", ".toList ++ maturity) ∧
    (updateEvolution source name maturity precision = .ok (some edited) →
      ∃ before blank old after,
        edited.Rewrites source (before ++ [blank]) old after ∧ isBlank blank = true ∧
        MaturityShape old after ∧ maturity.fixedText precision = .ok edited.written) := by
  constructor
  · intro h
    obtain ⟨p, pair, hlocated, hpair, rfl⟩ := updatePosition_eq_ok.1 h
    obtain ⟨above, form, below, -, -, hspan, -, -⟩ := exists_of_locateFirst hlocated
    have hlines :=
      EditPlace.lines_eq hlocated fun _ _ hfound => (positionSpan_bracketed hfound).on.line
    have hrewrites := EditPlace.rewrites hlines (newline_not_mem_of_pairText hpair)
    obtain ⟨⟨-, front, hfront⟩, hclosed, tail, htail⟩ := positionSpan_bracketed hspan
    obtain ⟨visibility, maturity, hvisibility, hmaturity, hpairEq⟩ := pairText_eq_ok.1 hpair
    rw [hfront, htail, ← List.append_assoc, List.cons_append] at hrewrites
    exact ⟨_, _, _, visibility, maturity, hrewrites, hclosed, hvisibility, hmaturity, hpairEq⟩
  · intro h
    obtain ⟨p, numeral, hlocated, hnumeral, rfl⟩ := updateEvolution_eq_ok.1 h
    obtain ⟨above, form, below, -, -, hspan, -, -⟩ := exists_of_locateFirst hlocated
    have hlines := EditPlace.lines_eq hlocated fun _ _ hfound =>
      have ⟨_, _, hon, _⟩ := maturitySpan_shape hfound
      hon.line
    have hrewrites := EditPlace.rewrites hlines (newline_not_mem_of_fixedText hnumeral)
    obtain ⟨blank, hblank, ⟨-, front, hfront⟩, hshape⟩ := maturitySpan_shape hspan
    rw [hfront, ← List.append_assoc] at hrewrites
    exact ⟨_, blank, _, _, hrewrites, hblank, hshape.before_newline p.below, hnumeral⟩

/-- Both edits of a source whose lines end in carriage returns and blanks. -/
theorem edited_frame_tea :
    let source := "component Tea [0.1, 0.2]\r\nevolve Tea 0.5 \r".toList
    (∃ edited before old after visibility maturity,
      updatePosition source "Tea".toList { visibility := 0.45, maturity := 0.4 } 2 =
        .ok (some edited) ∧
      edited.Rewrites source (before ++ ['[']) old (']' :: after) ∧ ']' ∉ old ∧
      Double.fixedText 2 0.45 = .ok visibility ∧ Double.fixedText 2 0.4 = .ok maturity ∧
      edited.written = visibility ++ ", ".toList ++ maturity) ∧
    ∃ edited before blank old after,
      updateEvolution source "Tea".toList 0.7 2 = .ok (some edited) ∧
      edited.Rewrites source (before ++ [blank]) old after ∧ isBlank blank = true ∧
      MaturityShape old after ∧ Double.fixedText 2 0.7 = .ok edited.written := by
  intro source
  have hposition : updatePosition source "Tea".toList { visibility := 0.45, maturity := 0.4 } 2 =
      .ok (some { lineNumber := 1
                  written := "0.45, 0.40".toList
                  source := "component Tea [0.45, 0.40]\r\nevolve Tea 0.5 \r".toList }) := by
    decide +kernel
  have hevolution : updateEvolution source "Tea".toList 0.7 2 =
      .ok (some { lineNumber := 2
                  written := "0.70".toList
                  source := "component Tea [0.1, 0.2]\r\nevolve Tea 0.70 \r".toList }) := by
    decide +kernel
  obtain ⟨before, old, after, visibility, maturity, hrewrites⟩ :=
    (edited_frame source "Tea".toList { visibility := 0.45, maturity := 0.4 } 0.7 2 _).1 hposition
  obtain ⟨front, blank, token, rest, hrewritten⟩ :=
    (edited_frame source "Tea".toList { visibility := 0.45, maturity := 0.4 } 0.7 2 _).2 hevolution
  exact ⟨⟨_, before, old, after, visibility, maturity, hposition, hrewrites⟩,
    _, front, blank, token, rest, hevolution, hrewritten⟩

end WardleyMaps
