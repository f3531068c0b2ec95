/-
Module: WardleyMaps.Proofs.Edit.LineEnd
Purpose: Blanks at the ends of lines, carriage returns among them, matter neither to the reader nor
  to the editors.
Main exports: crlf, lines_crlf, sourceForms_crlf, locateFirst_returned, lineEnds_indifferent
-/
import WardleyMaps.Proofs.Comment.Blanks
import WardleyMaps.Proofs.Document.Blanks
import WardleyMaps.Proofs.Edit.Frame
import WardleyMaps.Proofs.Edit.Trailing

namespace WardleyMaps

open Text

/-!
A document is read from its lines without the blanks at their ends, whatever these are. In a source
in which a carriage return stands before each newline, every line but the last has one more blank
behind it. The editors find the same spans on these lines, so an edit of such a source is the edit
of the source without the carriage returns, with them put in again (`lineEnds_indifferent`).
-/

/-! ### Carriage returns -/

/-- The source with a carriage return before each newline. -/
def crlf (source : Text) : Text :=
  source.flatMap fun c => if c = '\n' then ['\r', '\n'] else [c]

/-- All entries of a list but the last are changed. -/
def mapButLast {α : Type} (f : α → α) : List α → List α
  | [] => []
  | [last] => [last]
  | x :: y :: rest => f x :: mapButLast f (y :: rest)

/-- The line with a carriage return behind it. -/
def withReturn (line : Text) : Text :=
  line ++ ['\r']

theorem blank_return : Blank ['\r'] := by
  decide

theorem crlf_of_not_mem {t : Text} (h : '\n' ∉ t) : crlf t = t := by
  induction t with
  | nil => rfl
  | cons c cs ih =>
      rw [List.mem_cons, not_or] at h
      rw [crlf, List.flatMap_cons, if_neg (Ne.symm h.1)]
      exact congrArg (c :: ·) (ih h.2)

theorem crlf_append (a b : Text) : crlf (a ++ b) = crlf a ++ crlf b :=
  List.flatMap_append

/-- The carriage returns stand at the ends of all lines but the last. -/
theorem crlf_unlines {ls : List Text} (single : ∀ line ∈ ls, '\n' ∉ line) :
    crlf (unlines ls) = unlines (mapButLast withReturn ls) := by
  induction ls with
  | nil => rfl
  | cons line rest ih =>
      rw [List.forall_mem_cons] at single
      cases rest with
      | nil => simpa [unlines, mapButLast] using crlf_of_not_mem single.1
      | cons next others =>
          have more : ∃ first later, mapButLast withReturn (next :: others) = first :: later := by
            cases others <;> exact ⟨_, _, rfl⟩
          obtain ⟨first, later, hmore⟩ := more
          rw [unlines_cons_cons, crlf_append, crlf_append, crlf_of_not_mem single.1, ih single.2,
            mapButLast, hmore, unlines_cons_cons]
          simp [crlf, withReturn]

section

variable {α : Type} {f : α → α}

theorem mapButLast_append_cons (above : List α) (x : α) (below : List α) :
    mapButLast f (above ++ x :: below) = above.map f ++ mapButLast f (x :: below) := by
  induction above with
  | nil => rfl
  | cons y rest ih =>
      obtain ⟨z, others, hrest⟩ : ∃ z others, rest ++ x :: below = z :: others :=
        List.exists_cons_of_ne_nil (by simp)
      rw [List.cons_append, hrest, mapButLast, ← hrest, ih, List.map_cons, List.cons_append]

theorem length_mapButLast (l : List α) : (mapButLast f l).length = l.length := by
  induction l with
  | nil => rfl
  | cons x rest ih =>
      cases rest with
      | nil => rfl
      | cons y others => rw [mapButLast, List.length_cons, ih, ← List.length_cons]

/-- What the change keeps holds of all entries. -/
theorem forall_mem_mapButLast {P : α → Prop} (h : ∀ x, P x → P (f x)) {l : List α}
    (all : ∀ x ∈ l, P x) : ∀ x ∈ mapButLast f l, P x := by
  induction l with
  | nil => exact all
  | cons x rest ih =>
      cases rest with
      | nil => exact all
      | cons y others =>
          rw [List.forall_mem_cons] at all
          rw [mapButLast, List.forall_mem_cons]
          exact ⟨h x all.1, ih all.2⟩

theorem map_mapButLast {β : Type} {g : α → β} {f' : β → β} (h : ∀ x, g (f x) = f' (g x))
    (l : List α) : (mapButLast f l).map g = mapButLast f' (l.map g) := by
  induction l with
  | nil => rfl
  | cons x rest ih =>
      cases rest with
      | nil => rfl
      | cons y others => rw [mapButLast, List.map_cons, ih, h]; rfl

theorem zipWith_mapButLast {β γ : Type} {g : α → β → γ} {f' : γ → γ}
    (h : ∀ x y, g (f x) y = f' (g x y)) {xs : List α} {ys : List β}
    (hlen : xs.length = ys.length) :
    List.zipWith g (mapButLast f xs) ys = mapButLast f' (List.zipWith g xs ys) := by
  induction xs generalizing ys with
  | nil => rfl
  | cons x rest ih =>
      obtain ⟨y, ys, rfl⟩ := List.exists_cons_of_length_eq_add_one hlen.symm
      cases rest with
      | nil =>
          obtain rfl := List.length_eq_zero_iff.1 (by simpa using hlen.symm)
          rfl
      | cons x' others =>
          obtain ⟨y', ys, rfl⟩ :=
            List.exists_cons_of_length_eq_add_one (by simpa using hlen.symm)
          rw [mapButLast, List.zipWith_cons_cons, ih (by simpa using hlen), h]
          rfl

end

theorem lines_crlf (source : Text) :
    lines (crlf source) = mapButLast withReturn (lines source) := by
  have single : ∀ line ∈ lines source, '\n' ∉ line := fun _ => newline_not_mem_of_mem_lines
  have nonempty : lines source ≠ [] := List.splitOn_ne_nil '\n' source
  have returned : ∀ line ∈ mapButLast withReturn (lines source), '\n' ∉ line :=
    forall_mem_mapButLast (fun line h => by simpa [withReturn] using h) single
  have nonempty' : mapButLast withReturn (lines source) ≠ [] := by
    rwa [← List.length_pos_iff, length_mapButLast, List.length_pos_iff]
  conv_lhs => rw [← unlines_lines source, crlf_unlines single]
  exact lines_unlines nonempty' returned

theorem lengthened_mapButLast (ls : List Text) :
    List.Forall₂ Lengthened ls (mapButLast withReturn ls) := by
  induction ls with
  | nil => exact .nil
  | cons line rest ih =>
      cases rest with
      | nil => exact .cons ⟨[], blank_nil, by simp⟩ .nil
      | cons next others => exact .cons ⟨['\r'], blank_return, rfl⟩ ih

/-! ### Edits -/

/-- The forms of the lines with the carriage returns in the source. -/
theorem sourceForms_crlf (source : Text) :
    sourceForms (crlf source) = mapButLast (SourceLine.lengthen ['\r']) (sourceForms source) := by
  have hbare : stripLines false (mapButLast withReturn (lines source)) =
      stripLines false (lines source) :=
    stripLines_lengthened (lengthened_mapButLast _) false
  have hlen : (lines source).length =
      ((stripLines false (lines source)).zip
        (inBody (stripLines false (lines source)))).length := by
    rw [List.length_zip, length_inBody, length_stripLines, Nat.min_self]
  have each : ∀ (raw : Text) (view : Text × Bool),
      SourceLine.mk (withReturn raw) view.1 view.2 =
        (SourceLine.mk raw view.1 view.2).lengthen ['\r'] :=
    fun _ _ => rfl
  rw [sourceForms, lines_crlf]
  simp only [hbare]
  exact zipWith_mapButLast each hlen

/-- The place with the carriage returns in the source. -/
def EditPlace.returned (p : EditPlace) : EditPlace :=
  { above := p.above.map withReturn
    span := if p.below = [] then p.span else p.span.lengthen ['\r']
    below := mapButLast withReturn p.below }

/-- The edit with the carriage returns in the source. -/
def Edited.returned (edited : Edited) : Edited :=
  { edited with source := crlf edited.source }

/-- The same place is found with the carriage returns and without them. -/
theorem locateFirst_returned {locate : SourceLine → Option Span}
    (h : ∀ line, locate (line.lengthen ['\r']) = (locate line).map (Span.lengthen ['\r']))
    (forms : List SourceLine) :
    locateFirst locate (mapButLast (SourceLine.lengthen ['\r']) forms) =
      (locateFirst locate forms).map EditPlace.returned := by
  induction forms with
  | nil => rfl
  | cons line rest ih =>
      cases rest with
      | nil =>
          cases hspan : locate line <;> simp [mapButLast, locateFirst, hspan, EditPlace.returned]
      | cons next others =>
          have each : ∀ line : SourceLine, (line.lengthen ['\r']).raw = withReturn line.raw :=
            fun _ => rfl
          have hraw := map_mapButLast each (next :: others)
          rw [mapButLast, locateFirst, h, locateFirst, ih, hraw]
          cases locate line with
          | some span => simp [EditPlace.returned]
          | none =>
              cases locateFirst locate (next :: others) with
              | none => rfl
              | some p => rfl

theorem EditPlace.write_returned {source new : Text} {p : EditPlace}
    (hlines : lines source = p.above ++ p.line :: p.below) (hnew : '\n' ∉ new) :
    p.returned.write new = (p.write new).returned := by
  have single : ∀ line ∈ p.above ++ p.span.line new :: p.below, '\n' ∉ line := by
    rw [← EditPlace.lines_source hlines hnew]
    exact fun _ => newline_not_mem_of_mem_lines
  have hsource : p.returned.source new = crlf (p.source new) := by
    rw [EditPlace.source, EditPlace.source, crlf_unlines single, mapButLast_append_cons]
    cases hbelow : p.below with
    | nil => simp [returned, hbelow, mapButLast]
    | cons next others => simp [returned, hbelow, mapButLast, Span.lengthen_line, withReturn]
  simp [write, Edited.returned, lineNumber, returned, ← hsource]

/-- An edit at the first span of its kind is the same with the carriage returns and without them. -/
theorem map_write_returned {locate : SourceLine → Option Span}
    (hlengthen : ∀ line, locate (line.lengthen ['\r']) =
      (locate line).map (Span.lengthen ['\r']))
    (hlocate : ∀ form span, locate form = some span → form.raw = span.line span.old)
    {new : Text} (hnew : '\n' ∉ new) (source : Text) :
    (locateFirst locate (sourceForms (crlf source))).map (·.write new) =
      ((locateFirst locate (sourceForms source)).map (·.write new)).map Edited.returned := by
  rw [sourceForms_crlf, locateFirst_returned hlengthen]
  cases hplace : locateFirst locate (sourceForms source) with
  | none => rfl
  | some p =>
      exact congrArg some (EditPlace.write_returned (EditPlace.lines_eq hplace hlocate) hnew)

theorem updatePosition_crlf (source name : Text) (position : Position) (precision : Int) :
    updatePosition (crlf source) name position precision =
      (updatePosition source name position precision).map (Option.map Edited.returned) := by
  unfold updatePosition
  cases hpair : pairText precision position with
  | error e => rfl
  | ok new =>
      exact congrArg Except.ok (map_write_returned (positionSpan_lengthen blank_return name)
        (fun _ _ found => (positionSpan_bracketed found).on.line)
        (newline_not_mem_of_pairText hpair) source)

theorem updateEvolution_crlf (source name : Text) (maturity : Double) (precision : Int) :
    updateEvolution (crlf source) name maturity precision =
      (updateEvolution source name maturity precision).map (Option.map Edited.returned) := by
  have place : locateFirst (maturitySpan name) (sourceForms (crlf source)) =
      (locateFirst (maturitySpan name) (sourceForms source)).map EditPlace.returned := by
    rw [sourceForms_crlf, locateFirst_returned (maturitySpan_lengthen blank_return name)]
  unfold updateEvolution
  rw [place]
  cases hplace : locateFirst (maturitySpan name) (sourceForms source) with
  | none => rfl
  | some p =>
      have hlines := EditPlace.lines_eq hplace fun _ _ found =>
        have ⟨_, _, hon, _⟩ := maturitySpan_shape found
        hon.line
      simp only [Option.map_some]
      cases hnew : maturity.fixedText precision with
      | error e => rfl
      | ok new =>
          have written := EditPlace.write_returned hlines (newline_not_mem_of_fixedText hnew)
          exact congrArg (Except.ok ∘ some) written

/-- Blanks before and behind the lines of a source, carriage returns among them, leave the document
as it is. An edit of a source with a carriage return before each newline is the edit of the source
without them, with them put in again, and it finds nothing exactly when that one does not. -/
theorem lineEnds_indifferent (source : Text) :
    (∀ wide, List.Forall₂ Widened (lines source) (lines wide) →
      Document.read wide = Document.read source) ∧
    (∀ name position precision,
      updatePosition (crlf source) name position precision =
        (updatePosition source name position precision).map (Option.map Edited.returned)) ∧
    ∀ name maturity precision,
      updateEvolution (crlf source) name maturity precision =
        (updateEvolution source name maturity precision).map (Option.map Edited.returned) := by
  refine ⟨fun wide widened => Document.read_congr ?_, updatePosition_crlf source,
    updateEvolution_crlf source⟩
  exact map_trim_stripLines_widened widened false

/-- Blanks of several kinds around two lines, and both edits in front of a carriage return. -/
theorem lineEnds_indifferent_tea :
    let source := "anchor Tea [1, 0] // x\nevolve Tea 0.5".toList
    let wide := "\tanchor Tea [1, 0] // x \r\n \r evolve Tea 0.5\r".toList
    List.Forall₂ Widened (lines source) (lines wide) ∧
      Document.read wide = Document.read source ∧
      updatePosition (crlf source) "Tea".toList { visibility := 0.5, maturity := 0 } 1 =
        .ok (some
          { lineNumber := 1
            written := "0.5, 0.0".toList
            source := "anchor Tea [0.5, 0.0] // x\r\nevolve Tea 0.5".toList }) ∧
      updateEvolution (crlf source) "Tea".toList 0.75 2 =
        .ok (some
          { lineNumber := 2
            written := "0.75".toList
            source := "anchor Tea [1, 0] // x\r\nevolve Tea 0.75".toList }) := by
  intro source wide
  have widened : List.Forall₂ Widened (lines source) (lines wide) := by
    have plain : lines source = ["anchor Tea [1, 0] // x".toList, "evolve Tea 0.5".toList] := by
      decide +kernel
    have spaced : lines wide =
        ["\tanchor Tea [1, 0] // x \r".toList, " \r evolve Tea 0.5\r".toList] := by
      decide +kernel
    rw [plain, spaced]
    exact .cons ⟨['\t'], [' ', '\r'], by decide, by decide, rfl⟩
      (.cons ⟨[' ', '\r', ' '], ['\r'], by decide, by decide, rfl⟩ .nil)
  obtain ⟨read, position, evolution⟩ := lineEnds_indifferent source
  refine ⟨widened, read wide widened, ?_, ?_⟩
  · rw [position]
    decide +kernel
  · rw [evolution]
    decide +kernel

end WardleyMaps
