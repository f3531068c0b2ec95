/-
Module: WardleyMaps.Proofs.Document.Insert
Purpose: What a line without a statement does to the document around it.
Main exports: insertLine, makeRoom, LeavesNothing, markLines_insert, read_insertLine
-/
import WardleyMaps.Proofs.Comment.Blanks
import WardleyMaps.Proofs.Document.Marked

namespace WardleyMaps

open Text

/-!
A blank line may be put anywhere into a map source, also into a body or into a block comment, and a
line with nothing but a comment may be put wherever no block comment is open: the document is the
same, and each entity and problem from below the new line has moved down by one
(`read_insertLine`). Such a line leaves nothing behind when comments are left out, and does not
change what is open there (`LeavesNothing`); an empty line changes neither the marks nor the bodies
of the lines around it (`markLines_insert`).
-/

/-- The source with one more line behind its first `k` lines. -/
def insertLine (source : Text) (k : Nat) (line : Text) : Text :=
  unlines ((lines source).take k ++ line :: (lines source).drop k)

/-- The number of a line once there is one more line behind the first `k` lines. -/
def makeRoom (k n : Nat) : Nat :=
  if k < n then n + 1 else n

theorem makeRoom_of_le {k n : Nat} (h : n ≤ k) : makeRoom k n = n :=
  if_neg (Nat.not_lt.2 h)

theorem makeRoom_of_lt {k n : Nat} (h : k < n) : makeRoom k n = n + 1 :=
  if_pos h

theorem strictMono_makeRoom (k : Nat) : StrictMono (makeRoom k) := by
  intro m n h
  unfold makeRoom
  split <;> split <;> omega

/-! ### Lines of which nothing is left -/

/-- Of the line only blanks are left, and a block comment is open behind it if one is before it. -/
def LeavesNothing (inBlock : Bool) (line : Text) : Prop :=
  Blank (keepOutside (isAddressLine line) inBlock line).1 ∧
    (keepOutside (isAddressLine line) inBlock line).2 = inBlock

theorem leavesNothing_of_blank (inBlock : Bool) {line : Text} (h : Blank line) :
    LeavesNothing inBlock line := by
  rw [LeavesNothing, keepOutside_eq_scan]
  cases inBlock with
  | false =>
      have hscan := scan_outside_prepend_of_blank (isAddressLine line) h []
      rw [List.append_nil] at hscan
      rw [ScanState.start, if_neg Bool.false_ne_true, hscan]
      exact ⟨h.append blank_nil, rfl⟩
  | true =>
      rw [ScanState.start, if_pos rfl, scan_inside_of_blank _ h]
      exact ⟨blank_nil, rfl⟩

theorem leavesNothing_of_comment {line : Text} (h : startsWith "//".toList (trim line) = true) :
    LeavesNothing false line := by
  obtain ⟨lead, trail, hlead, -, hline⟩ := exists_trim line
  obtain ⟨rest, hrest⟩ : ∃ rest, trim line = '/' :: '/' :: rest := by
    obtain ⟨rest, hafter⟩ := Option.isSome_iff_exists.1 h
    exact ⟨rest, after?_eq_some.1 hafter⟩
  have haddress : isAddressLine line = false := by
    simp [isAddressLine, startsWith, hrest, after?]
  rw [LeavesNothing, haddress, keepOutside_eq_scan, ScanState.start, if_neg Bool.false_ne_true,
    hline, List.append_assoc, scan_outside_prepend_of_blank false hlead, hrest,
    List.cons_append, List.cons_append, scan_comment]
  exact ⟨hlead.append blank_nil, rfl⟩

/-- A line that leaves nothing becomes an empty one; the lines around it stay as they are. -/
theorem stripLines_insert {inBlock : Bool} {above : List Text} {line : Text}
    (h : LeavesNothing (blockAfter inBlock above) line) (below : List Text) :
    stripLines inBlock (above ++ line :: below) =
      stripLines inBlock above ++ [] :: stripLines (blockAfter inBlock above) below := by
  have hnil :
      trimEnd (keepOutside (isAddressLine line) (blockAfter inBlock above) line).1 = [] := by
    rw [trimEnd_eq_rdropWhile, List.rdropWhile_eq_nil_iff]
    exact h.1
  rw [stripLines_append, stripLines]
  simp only [hnil, h.2]

/-! ### Bodies around an empty line -/

/-- An empty line changes no mark. -/
theorem exists_inBodyFrom_insert (isOpen : Bool) (above below : List Text) :
    ∃ marks mark later, marks.length = above.length ∧
      inBodyFrom isOpen (above ++ [] :: below) = marks ++ mark :: later ∧
      inBodyFrom isOpen (above ++ below) = marks ++ later := by
  induction above generalizing isOpen with
  | nil =>
      refine ⟨[], hiddenBy isOpen [] below, inBodyFrom isOpen below, rfl, ?_, rfl⟩
      rw [List.nil_append, inBodyFrom_cons, openAfter_of_trim_nil trim_nil, List.nil_append]
  | cons line rest ih =>
      obtain ⟨marks, mark, later, hlen, hwith, hwithout⟩ := ih (openAfter isOpen line)
      have hany : (rest ++ [] :: below).any closesBody = (rest ++ below).any closesBody := by
        simp [closesBody]
      have hhidden : hiddenBy isOpen line (rest ++ [] :: below) =
          hiddenBy isOpen line (rest ++ below) := by
        cases isOpen <;> simp only [hiddenBy, hany]
      refine ⟨hiddenBy isOpen line (rest ++ below) :: marks, mark, later, by simp [hlen], ?_, ?_⟩
      · rw [List.cons_append, inBodyFrom_cons, hwith, hhidden, List.cons_append]
      · rw [List.cons_append, inBodyFrom_cons, hwithout, List.cons_append]

/-- The written lines of a document with one more empty line are those without it, those below with
the next number. -/
theorem markLines_insert (above below : List Text) :
    (markLines (above ++ [] :: below)).filter MarkedLine.written =
      ((markLines (above ++ below)).map
        (MarkedLine.renumber (makeRoom above.length))).filter MarkedLine.written := by
  obtain ⟨marks, mark, later, hlen, hwith, hwithout⟩ := exists_inBodyFrom_insert false above below
  have hempty : MarkedLine.written (mark, [], 1 + above.length) = false := rfl
  have habove : (marks.zip (above.zipIdx 1)).map (MarkedLine.renumber (makeRoom above.length)) =
      marks.zip (above.zipIdx 1) :=
    map_renumber_zip_zipIdx (fun i hi => makeRoom_of_le (by omega)) marks
  have hbelow : (later.zip (below.zipIdx (1 + above.length))).map
      (MarkedLine.renumber (makeRoom above.length)) =
        later.zip (below.zipIdx (1 + above.length + 1)) :=
    map_renumber_zip_zipIdx (fun i _ => (makeRoom_of_lt (by omega)).trans (by omega)) later
  rw [markLines, markLines, inBody, inBody, hwith, hwithout, List.zipIdx_append,
    List.zipIdx_append, List.zipIdx_cons, List.zip_append (by simp [hlen]),
    List.zip_append (by simp [hlen]), List.zip_cons_cons, List.map_append, habove, hbelow,
    List.filter_append, List.filter_append,
    List.filter_cons_of_neg (by rw [hempty]; exact Bool.false_ne_true)]

/-! ### The document around the line -/

theorem lines_insertLine {line : Text} (h : '\n' ∉ line) (source : Text) (k : Nat) :
    lines (insertLine source k line) =
      (lines source).take k ++ line :: (lines source).drop k := by
  refine lines_unlines (by simp) fun other hother => ?_
  rcases List.mem_append.1 hother with hmem | hmem
  · exact newline_not_mem_of_mem_lines (List.mem_of_mem_take hmem)
  · rcases List.mem_cons.1 hmem with rfl | hmem
    · exact h
    · exact newline_not_mem_of_mem_lines (List.mem_of_mem_drop hmem)

/-- A blank line anywhere, and a line with nothing but a comment outside of block comments, changes
nothing in a document but the numbers of the lines below it. -/
theorem read_insertLine {source line : Text} {k : Nat} (hk : k ≤ (lines source).length)
    (hnewline : '\n' ∉ line)
    (h : Blank line ∨ startsWith "//".toList (trim line) = true ∧
      blockAfter false ((lines source).take k) = false) :
    Document.read (insertLine source k line) =
      (Document.read source).map (Document.renumber (makeRoom k)) := by
  have hleaves : LeavesNothing (blockAfter false ((lines source).take k)) line := by
    rcases h with hblank | ⟨hcomment, hblock⟩
    · exact leavesNothing_of_blank _ hblank
    · rw [hblock]
      exact leavesNothing_of_comment hcomment
  have hwith : bareLines (insertLine source k line) =
      stripLines false ((lines source).take k) ++
        [] :: stripLines (blockAfter false ((lines source).take k)) ((lines source).drop k) := by
    rw [bareLines, lines_insertLine hnewline, stripLines_insert hleaves]
  have hwithout : bareLines source =
      stripLines false ((lines source).take k) ++
        stripLines (blockAfter false ((lines source).take k)) ((lines source).drop k) := by
    rw [bareLines, ← stripLines_append, List.take_append_drop]
  have hlength : (stripLines false ((lines source).take k)).length = k := by
    rw [length_stripLines, List.length_take, Nat.min_eq_left hk]
  refine Document.read_renumber (strictMono_makeRoom k) ?_
  rw [hwith, hwithout, Findings.ofLines_eq_ofMarked, Findings.ofLines_eq_ofMarked,
    ← Findings.ofMarked_written, markLines_insert, Findings.ofMarked_written,
    Findings.ofMarked_renumber, hlength]

/-- A comment within the body of a pipeline moves its component and a later problem down. -/
theorem read_insertLine_body :
    let source := "pipeline Kettle\n\x7b\ncomponent Cup [0.5]\n\x7d\ncomponent Tea".toList
    let longer :=
      "pipeline Kettle\n\x7b\n // cups\ncomponent Cup [0.5]\n\x7d\ncomponent Tea".toList
    let doc (child problem : Nat) : Document :=
      { pipelines := [{ line := 1, name := "Kettle".toList, shown := true, first := 0.5,
                        last := 0.5,
                        children := [{ line := child, name := "Cup".toList, maturity := 0.5 }] }]
        problems := [{ line := problem, cause := .missing "component" "[visibility, maturity]" }] }
    Document.read source = .ok (doc 3 5) ∧ Document.read longer = .ok (doc 4 6) := by
  intro source longer doc
  have hread : Document.read source = .ok (doc 3 5) := by decide +kernel
  have hinsert : insertLine source 2 " // cups".toList = longer := by decide +kernel
  have hlonger : Document.read (insertLine source 2 " // cups".toList) =
      (Document.read source).map (Document.renumber (makeRoom 2)) :=
    read_insertLine (by decide +kernel) (by decide) (.inr (by decide +kernel))
  rw [hinsert, hread] at hlonger
  exact ⟨hread, hlonger⟩

end WardleyMaps
