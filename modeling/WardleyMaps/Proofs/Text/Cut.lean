/-
Module: WardleyMaps.Proofs.Text.Cut
Purpose: Where texts are cut: at newlines, at marks, and at the edges of words.
Main exports: Text.lines_unlines, Text.unlines_lines, Text.newline_not_mem_of_mem_lines,
  Text.infix_of_mem_splitOn, Text.cutAt_append, Text.findEdge_append_of_blank
-/
import WardleyMaps.Proofs.Text.Trim
import WardleyMaps.Text.Cut

namespace WardleyMaps.Text

/-!
`lines` and `unlines` are inverse to each other on lists of lines that hold no newline. The
remaining facts say where the first occurrence of a mark is when a text is written as what stands
before the mark, the mark, and what follows.
-/

/-! ### Pieces between marks -/

theorem not_mem_of_mem_splitOn {mark : Char} {t piece : Text} (h : piece ∈ t.splitOn mark) :
    mark ∉ piece := by
  induction t generalizing piece with
  | nil =>
      simp only [List.splitOn_nil, List.mem_singleton] at h
      simp [h]
  | cons c cs ih =>
      rw [List.splitOn_cons_eq_if_modifyHead] at h
      split at h
      · rcases List.mem_cons.1 h with rfl | h
        · simp
        · exact ih h
      · next hc =>
        cases hs : cs.splitOn mark with
        | nil => exact absurd hs (List.splitOn_ne_nil mark cs)
        | cons first others =>
            rw [hs, List.modifyHead_cons] at h
            rcases List.mem_cons.1 h with rfl | h
            · have hfirst : mark ∉ first := ih (by rw [hs]; exact List.mem_cons_self)
              simp only [beq_iff_eq] at hc
              simp [hfirst, Ne.symm hc]
            · exact ih (by rw [hs]; exact List.mem_cons_of_mem _ h)

/-- Every character but the marks lies in one of the pieces. -/
theorem mem_piece_of_mem {mark c : Char} {t : Text} (h : c ∈ t) (hc : c ≠ mark) :
    ∃ piece ∈ t.splitOn mark, c ∈ piece := by
  induction t with
  | nil => simp at h
  | cons d ds ih =>
      rw [List.splitOn_cons_eq_if_modifyHead]
      split
      · next hd =>
        rcases List.mem_cons.1 h with rfl | h
        · exact absurd (by simpa using hd) hc
        · obtain ⟨piece, hp, hcp⟩ := ih h
          exact ⟨piece, List.mem_cons_of_mem _ hp, hcp⟩
      · cases hs : ds.splitOn mark with
        | nil => exact absurd hs (List.splitOn_ne_nil mark ds)
        | cons first others =>
            rw [List.modifyHead_cons]
            rcases List.mem_cons.1 h with rfl | h
            · exact ⟨c :: first, List.mem_cons_self, List.mem_cons_self⟩
            · obtain ⟨piece, hp, hcp⟩ := ih h
              rw [hs] at hp
              rcases List.mem_cons.1 hp with rfl | hp
              · exact ⟨d :: piece, List.mem_cons_self, List.mem_cons_of_mem _ hcp⟩
              · exact ⟨piece, List.mem_cons_of_mem _ hp, hcp⟩

theorem mem_intersperse {α : Type} {x mark : α} {l : List α} (mem : x ∈ l) :
    x ∈ l.intersperse mark := by
  induction l with
  | nil => cases mem
  | cons head rest ih =>
      cases rest with
      | nil => exact mem
      | cons next others =>
          rw [List.intersperse_cons_cons]
          rcases List.mem_cons.1 mem with rfl | mem
          · exact List.mem_cons_self
          · exact List.mem_cons_of_mem _ (List.mem_cons_of_mem _ (ih mem))

/-- The pieces between marks are pieces of the text. -/
theorem infix_of_mem_splitOn {mark : Char} {t piece : Text} (mem : piece ∈ t.splitOn mark) :
    piece <:+: t := by
  have inside : piece <:+: [mark].intercalate (t.splitOn mark) :=
    List.infix_of_mem_flatten (mem_intersperse mem)
  rwa [List.intercalate_splitOn] at inside

/-! ### Lines -/

theorem newline_not_mem_of_mem_lines {t line : Text} (h : line ∈ lines t) : '\n' ∉ line :=
  not_mem_of_mem_splitOn h

@[simp]
theorem unlines_lines (t : Text) : unlines (lines t) = t :=
  List.intercalate_splitOn '\n'

theorem lines_unlines {ls : List Text} (hne : ls ≠ []) (h : ∀ line ∈ ls, '\n' ∉ line) :
    lines (unlines ls) = ls :=
  List.splitOn_intercalate '\n' h hne

/-- Another line in the place of one of a text. -/
theorem lines_replace {t a b : Text} {above below : List Text}
    (split : lines t = above ++ a :: below) (single : '\n' ∉ b) :
    lines (unlines (above ++ b :: below)) = above ++ b :: below := by
  have others : ∀ line ∈ lines t, '\n' ∉ line := fun _ => newline_not_mem_of_mem_lines
  rw [split, List.forall_mem_append, List.forall_mem_cons] at others
  refine lines_unlines (by simp) ?_
  rw [List.forall_mem_append, List.forall_mem_cons]
  exact ⟨others.1, single, others.2.2⟩

/-- What stands around the entry of a list at a place. -/
theorem exists_around {α : Type} {l : List α} {i : Nat} {x : α} (h : l[i]? = some x) :
    ∃ above below, l = above ++ x :: below ∧ above.length = i := by
  obtain ⟨hi, rfl⟩ := List.getElem?_eq_some_iff.1 h
  refine ⟨l.take i, l.drop (i + 1), ?_, by simp; omega⟩
  rw [← List.drop_eq_getElem_cons hi, List.take_append_drop]

theorem drop_around {α : Type} {above : List α} {i : Nat} (h : above.length = i) (x : α)
    (below : List α) : (above ++ x :: below).drop (i + 1) = below := by
  have hsplit : above ++ x :: below = (above ++ [x]) ++ below := by simp
  rw [hsplit, List.drop_left' (by simp [h])]

/-! ### Marks -/

theorem cutAt_append_of_not_mem {mark : Char} {a : Text} (h : mark ∉ a) (b : Text) :
    cutAt mark (a ++ b) = (cutAt mark b).map fun (before, rest) => (a ++ before, rest) := by
  induction a with
  | nil => simp
  | cons c rest ih =>
      rw [List.mem_cons, not_or] at h
      rw [List.cons_append, cutAt, if_neg (Ne.symm h.1), ih h.2, Option.map_map]
      rfl

theorem cutAt_append {mark : Char} {before : Text} (h : mark ∉ before) (rest : Text) :
    cutAt mark (before ++ mark :: rest) = some (before, rest) := by
  induction before with
  | nil => simp [cutAt]
  | cons c cs ih =>
      rw [List.mem_cons, not_or] at h
      simp [cutAt, Ne.symm h.1, ih h.2]

/-- What stands in front of the end of a line. -/
theorem cutAt_eq_none_iff {mark : Char} {t : Text} : cutAt mark t = none ↔ mark ∉ t := by
  induction t with
  | nil => simp [cutAt]
  | cons c cs ih =>
      rw [cutAt, List.mem_cons, not_or, ← ih]
      by_cases h : c = mark
      · simp [h]
      · simp [h, Ne.symm h]

theorem take_before {line front rest : Text} (h : line = front ++ rest) :
    line.take (line.length - rest.length) = front := by
  rw [h, List.length_append, Nat.add_sub_cancel, List.take_left]

theorem after?_cons_ne {p c : Char} (h : p ≠ c) (ps cs : Text) :
    after? (p :: ps) (c :: cs) = none := by
  simp [after?, h]

/-! ### The first place -/

/-- What does not begin with a blank is found behind blanks as it is without them. -/
theorem findPlace_append_of_blank {α : Type} {accept : Text → Option α}
    (hrefuse : ∀ c t, isBlank c = true → accept (c :: t) = none) {lead : Text} (hlead : Blank lead)
    (t : Text) : findPlace accept (lead ++ t) = findPlace accept t := by
  induction lead with
  | nil => rfl
  | cons c cs ih =>
      rw [List.cons_append, findPlace, hrefuse c _ (hlead c List.mem_cons_self)]
      exact ih hlead.tail

theorem findPlace_of_accept {α : Type} {accept : Text → Option α} {t : Text} {found : α}
    (h : accept t = some found) (hne : t ≠ []) : findPlace accept t = some found := by
  cases t with
  | nil => exact absurd rfl hne
  | cons c cs => simp [findPlace, h]

/-! ### Edges of words -/

theorem findEdge_append_of_blank {α : Type} {accept : Text → Option α}
    (h : ∀ c t, isBlank c = true → accept (c :: t) = none) {lead : Text} (hlead : Blank lead)
    (t : Text) : findEdge accept false (lead ++ t) = findEdge accept false t := by
  induction lead with
  | nil => rfl
  | cons c cs ih =>
      have hc : isBlank c = true := hlead c List.mem_cons_self
      rw [List.cons_append, findEdge]
      simp only [Bool.false_eq_true, ↓reduceIte, h c _ hc, isWord_of_isBlank hc]
      exact ih hlead.tail

theorem findEdge_of_accept {α : Type} {accept : Text → Option α} {t : Text} {found : α}
    (h : accept t = some found) (hne : t ≠ []) : findEdge accept false t = some found := by
  cases t with
  | nil => exact absurd rfl hne
  | cons c cs => simp [findEdge, h]

end WardleyMaps.Text
