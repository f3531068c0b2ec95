/-
Module: WardleyMaps.Proofs.Comment.OnePass
Purpose: Comments are left out of a source in one pass over the characters of its lines.
Main exports: scanLines, stripLines_eq_scanLines, lines_stripComments, stripComments_onePass
-/
import WardleyMaps.Proofs.Comment.Scanner

namespace WardleyMaps

open Text

/-!
The scanner takes one step for each character (`ScanState.step`). Inside a block it skips all up to
and with the next `*/`. Outside it copies characters up to `/*`, which opens a block, or up to a
`//` that counts, behind which nothing is copied any more. On a line with an address no `//` counts,
and directly behind a colon it does not either: both of its slashes are copied, and only `/*` may
still begin at the second one. From one line to the next nothing is kept but whether a block is
open.
-/

/-- The scanner over lines, one after the other. Of each line that is left which it copies, up to
the blanks at the end. The flag tells that a block comment is open before the lines. -/
def scanLines : Bool → List Text → List Text
  | _, [] => []
  | inBlock, line :: rest =>
      let (copied, stillOpen) := scan (isAddressLine line) (.start inBlock) line
      trimEnd copied :: scanLines stillOpen rest

theorem stripLines_eq_scanLines (inBlock : Bool) (ls : List Text) :
    stripLines inBlock ls = scanLines inBlock ls := by
  induction ls generalizing inBlock with
  | nil => rfl
  | cons line rest ih =>
      rw [stripLines, scanLines, keepOutside_eq_scan]
      exact congrArg _ (ih _)

/-! ### The lines of what is left -/

/-- Only characters of a text are copied. -/
theorem scan_sublist (address : Bool) (s : ScanState) (t : Text) :
    (scan address s t).1.Sublist t := by
  induction t generalizing s with
  | nil => exact List.Sublist.slnil
  | cons c rest ih =>
      rw [scan_cons]
      split
      · exact (ih _).cons c
      · exact (ih _).cons_cons c

theorem trimEnd_sublist (t : Text) : (trimEnd t).Sublist t := by
  obtain ⟨trail, -, whole⟩ := exists_trimEnd t
  conv_rhs => rw [whole]
  exact List.sublist_append_left _ _

/-- No newline comes into a line. -/
theorem newline_not_mem_of_mem_scanLines {inBlock : Bool} {ls : List Text} {left : Text}
    (single : ∀ line ∈ ls, '\n' ∉ line) (mem : left ∈ scanLines inBlock ls) : '\n' ∉ left := by
  induction ls generalizing inBlock with
  | nil => cases mem
  | cons line rest ih =>
      rw [List.forall_mem_cons] at single
      rw [scanLines] at mem
      rcases List.mem_cons.1 mem with rfl | later
      · intro newline
        have copied := (trimEnd_sublist _).subset newline
        exact single.1 ((scan_sublist _ _ line).subset copied)
      · exact ih single.2 later

/-- What is left of a source has the lines that are left of its lines. -/
theorem lines_stripComments (source : Text) :
    lines (stripComments source) = stripLines false (lines source) := by
  have single : ∀ line ∈ lines source, '\n' ∉ line := fun _ => newline_not_mem_of_mem_lines
  have nonempty : stripLines false (lines source) ≠ [] := by
    rw [← List.length_pos_iff, length_stripLines, List.length_pos_iff]
    exact List.splitOn_ne_nil '\n' source
  rw [stripComments]
  apply lines_unlines nonempty
  intro left mem
  rw [stripLines_eq_scanLines] at mem
  exact newline_not_mem_of_mem_scanLines single mem

/-- Without its comments a source has as many lines as before, and they are what one pass of the
scanner over the lines of the source copies of them, up to the blanks at their ends. -/
theorem stripComments_onePass (source : Text) :
    (lines (stripComments source)).length = (lines source).length ∧
      lines (stripComments source) = scanLines false (lines source) := by
  rw [lines_stripComments]
  exact ⟨length_stripLines false _, stripLines_eq_scanLines false _⟩

/-- The slashes behind a colon do not count, but a block opens at the second one. -/
example : stripComments "see http://*b*/c // d".toList = "see http:/c".toList := by
  decide +kernel

end WardleyMaps
