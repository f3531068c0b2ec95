/-
Module: WardleyMaps.Proofs.Document.LongNumber
Purpose: An annotation whose number is too long stops the reading of the whole source.
Main exports: numberTooLong, exists_settled_iff, numberTooLong_of_digits, Document.read_of_long
-/
import WardleyMaps.Proofs.Comment.Segment
import WardleyMaps.Proofs.Document.Pass
import WardleyMaps.Proofs.Document.Renumber
import WardleyMaps.Proofs.Number.Written
import WardleyMaps.Proofs.Statement.Keyword

namespace WardleyMaps

open Text

/-!
Numbers of annotations are converted after all lines were read, and one that is too long is no
problem of its line but a fault of the reading. A line has such a number if it is an annotation that
can be read up to the conversion (`numberTooLong`). Any row of digits that is long enough makes such
a line (`numberTooLong_of_digits`), wherever it stands in a source (`Document.read_of_long`).
-/

/-- Whether a line is an annotation whose number has more digits than are converted. -/
def numberTooLong (line : Text) : Bool :=
  startsWithKeyword "annotation".toList line &&
    match readNumberedNote 0 line with
    | .ok draft => maxIntegerDigits < draft.digits.length
    | .error _ => false

/-! ### One line -/

theorem AnnotationDraft.exists_settle_iff {draft : AnnotationDraft} :
    (∃ note, draft.settle = .ok note) ↔ draft.digits.length ≤ maxIntegerDigits := by
  rw [settle]
  split
  · next long => exact iff_of_false (by rintro ⟨note, settled⟩; cases settled) (Nat.not_le.2 long)
  · next short => exact iff_of_true ⟨_, rfl⟩ (Nat.not_lt.1 short)

/-- The digits of an annotation are the same under every number of its line. -/
theorem numberTooLong_eq (number : Nat) (line : Text) :
    numberTooLong line =
      (startsWithKeyword "annotation".toList line &&
        match readNumberedNote number line with
        | .ok draft => maxIntegerDigits < draft.digits.length
        | .error _ => false) := by
  have other : readNumberedNote 0 line =
      (readNumberedNote number line).map (AnnotationDraft.renumber fun _ => 0) :=
    readNumberedNote_renumber (fun _ => 0) number line
  rw [numberTooLong, other]
  cases readNumberedNote number line <;> rfl

/-- What the pass over one keyword gathers from one line. -/
theorem items_collectKeyword_singleton {α : Type} (keyword : String)
    (build : Nat → Text → Except Cause α) (number : Nat) (line : Text) :
    (collectKeyword keyword build [(line, number)]).items =
      if startsWithKeyword keyword.toList line then (build number line).toOption.toList
      else [] := by
  rw [collectKeyword, collect_eq, List.filterMap_cons, List.filterMap_nil, itemOn]
  cases recognised : startsWithKeyword keyword.toList line with
  | false => simp [kindOf, recognised]
  | true =>
      rw [kindOf_unit recognised, Option.bind_some]
      cases build number line <;> rfl

/-- What the pass over annotations gathers from one line can be converted unless the number is too
long. -/
theorem exists_settled_iff (number : Nat) (line : Text) :
    (∃ notes, (collectKeyword "annotation" readNumberedNote [(line, number)]).items.mapM
      AnnotationDraft.settle = .ok notes) ↔ numberTooLong line = false := by
  rw [numberTooLong_eq number, items_collectKeyword_singleton]
  cases startsWithKeyword "annotation".toList line with
  | false => exact iff_of_true ⟨[], rfl⟩ rfl
  | true =>
      cases readNumberedNote number line with
      | error cause => exact iff_of_true ⟨[], rfl⟩ rfl
      | ok draft =>
          rw [Bool.true_and, decide_eq_false_iff_not, Nat.not_lt,
            ← AnnotationDraft.exists_settle_iff]
          constructor
          · rintro ⟨notes, settled⟩
            exact exists_of_mapM_eq_ok settled draft (List.mem_singleton_self _)
          · rintro ⟨note, settled⟩
            have one : [draft].mapM AnnotationDraft.settle = .ok [note] := by
              rw [List.mapM_cons, settled]
              rfl
            exact ⟨[note], one⟩

/-- A row of digits that is long enough makes the line one with a number that is too long, if what
follows the digits can be read. -/
theorem numberTooLong_of_digits {digits behind : Text} (decimal : ∀ c ∈ digits, c.isDigit = true)
    (long : maxIntegerDigits < digits.length)
    (apart : ∀ c ∈ behind.head?, Text.isDigit c = false)
    (ends : ∀ c ∈ (digits ++ behind).getLast?, isBlank c = false)
    (placed : (readPlaces (trimStart behind)).isOk = true) :
    numberTooLong ("annotation".toList ++ ' ' :: (digits ++ behind)) = true := by
  obtain ⟨first, others, rfl⟩ : ∃ first others, digits = first :: others :=
    List.exists_cons_of_length_pos (by omega)
  have trimmed : Trimmed (first :: others ++ behind) := by
    refine ⟨?_, ends⟩
    rintro c hc
    cases hc
    exact isBlank_of_digit (digitValue?_of_isDigit (decimal first List.mem_cons_self))
  have word : Token "annotation".toList := by decide
  obtain ⟨keyword, rest⟩ := keyword_of_line word trimmed (by simp)
  have read : ∃ places text, readNumberedNote 0
      ("annotation".toList ++ ' ' :: (first :: others ++ behind)) =
        .ok { line := 0, digits := digitValues (first :: others), places, text } := by
    rw [readNumberedNote, rest, spanDigits_append decimal apart]
    simp only [digitValues, List.map_cons]
    cases found : readPlaces (trimStart behind) with
    | error cause => rw [found] at placed; cases placed
    | ok parts => exact ⟨parts.1, parts.2, rfl⟩
  obtain ⟨places, text, read⟩ := read
  rw [numberTooLong, keyword, read]
  simpa [digitValues] using long

/-- Blanks at its end do not matter. -/
theorem numberTooLong_trimEnd (line : Text) :
    numberTooLong (trimEnd line) = numberTooLong line := by
  simp only [numberTooLong, startsWithKeyword, readNumberedNote, afterKeyword, trim_trimEnd]

/-! ### Whole sources -/

/-- A source with such a line cannot be read. -/
theorem Document.read_of_long {source line : Text} {i : Nat}
    (atLine : (bareLines source)[i]? = some line) (long : numberTooLong line = true) :
    ∃ e, Document.read source = .error e := by
  cases read : Document.read source with
  | error e => exact ⟨e, rfl⟩
  | ok doc =>
      exfalso
      obtain ⟨annotations, settled, -⟩ := Document.read_eq_ok.1 read
      rw [numberTooLong_eq (i + 1), Bool.and_eq_true] at long
      obtain ⟨keyword, long⟩ := long
      cases draft : readNumberedNote (i + 1) line with
      | error cause => rw [draft] at long; cases long
      | ok draft' =>
          have found : draft' ∈ (Findings.ofLines (bareLines source)).drafts.items := by
            refine mem_items_collect.2 ⟨(line, i + 1), ?_, (), kindOf_unit keyword, draft⟩
            exact List.mk_mem_zipIdx_iff_le_and_getElem?_sub.2 ⟨by omega, by simpa using atLine⟩
          have short := AnnotationDraft.exists_settle_iff.1
            (exists_of_mapM_eq_ok settled draft' found)
          rw [draft, decide_eq_true_eq] at long
          omega

/-- Without comments a source of one line is this line, up to the blanks at its end. -/
theorem bareLines_of_line {line : Text} (single : '\n' ∉ line)
    (uncommented : Uncommented (isAddressLine line) line) : bareLines line = [trimEnd line] := by
  have one : lines line = [line] := by
    have joined : unlines [line] = line := by simp [unlines]
    conv_lhs => rw [← joined]
    exact lines_unlines (List.cons_ne_nil _ _) (by simpa using single)
  rw [bareLines, one, ← List.nil_append [line], stripLines_uncommented rfl uncommented]
  rfl

/-- An annotation whose number is a row of ones. -/
def onesNote (count : Nat) : Text :=
  "annotation".toList ++ ' ' :: (List.replicate count '1' ++ " [0.1, 0.2]".toList)

theorem numberTooLong_onesNote {count : Nat} (long : maxIntegerDigits < count) :
    numberTooLong (onesNote count) = true := by
  apply numberTooLong_of_digits
  · intro c mem
    rw [List.eq_of_mem_replicate mem]
    decide
  · rwa [List.length_replicate]
  · intro c first
    cases first
    decide
  · intro c last
    rw [List.getLast?_append_of_ne_nil _ (by decide)] at last
    cases last
    decide
  · decide

/-- The characters of the line are those of the line with a single one. -/
theorem not_mem_onesNote {c : Char} (other : c ∉ onesNote 1) (count : Nat) :
    c ∉ onesNote count := by
  intro mem
  apply other
  unfold onesNote at mem ⊢
  rw [List.mem_append, List.mem_cons, List.mem_append] at mem ⊢
  refine mem.imp_right (Or.imp_right (Or.imp_left ?_))
  intro ones
  rw [List.eq_of_mem_replicate ones]
  exact List.mem_cons_self

/-- A source of this line only cannot be read if there are too many ones. -/
theorem exists_error_read_onesNote {count : Nat} (long : maxIntegerDigits < count) :
    ∃ e, Document.read (onesNote count) = .error e := by
  have bare : bareLines (onesNote count) = [trimEnd (onesNote count)] :=
    bareLines_of_line (not_mem_onesNote (by decide) count)
      (uncommented_of_slash_not_mem (not_mem_onesNote (by decide) count))
  have atLine : (bareLines (onesNote count))[0]? = some (trimEnd (onesNote count)) := by
    rw [bare]
    rfl
  apply Document.read_of_long atLine
  rw [numberTooLong_trimEnd]
  exact numberTooLong_onesNote long

end WardleyMaps
