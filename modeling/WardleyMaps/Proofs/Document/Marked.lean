/-
Module: WardleyMaps.Proofs.Document.Marked
Purpose: Documents as marked lines: what is found in lists of them that are joined, thinned out or
  numbered anew.
Main exports: MarkedLine, markLines, Findings.ofMarked, Findings.ofLines_eq_ofMarked,
  Findings.ofMarked_written, Findings.ofMarked_renumber, Findings.ofMarked_append
-/
import WardleyMaps.Proofs.Document.Header
import WardleyMaps.Proofs.Document.Renumber

namespace WardleyMaps

open Text

/-!
A document is a list of lines, each with its number and the mark that it lies inside a body. The
passes read nothing else (`Findings.ofLines_eq_ofMarked`). For most of them such a list is the lines
of it; the pass over pipelines goes on from a header to the lines of its body, so it is given here
as one that keeps the lines of the body with their numbers (`FoundBody`, `readMarked`) instead of
counting them again. Then blank lines may be left out, wherever they stand
(`Findings.ofMarked_written`), other numbers give the same findings with these numbers
(`Findings.ofMarked_renumber`), and the findings of two lists follow each other
(`Findings.ofMarked_append`) unless a header of the first finds its body in the second.
-/

/-- A numbered line with the mark that it lies inside a body. -/
abbrev MarkedLine := Bool × NumberedLine

/-- The line with another number. -/
def MarkedLine.renumber (σ : Nat → Nat) (m : MarkedLine) : MarkedLine :=
  (m.1, m.2.renumber σ)

/-- The lines with their numbers and their marks. -/
def markLines (bare : List Text) : List MarkedLine :=
  (inBody bare).zip (bare.zipIdx 1)

/-! ### The body of a header -/

/-- The body of a header among numbered lines: those between the braces. -/
inductive FoundBody where
  | missing
  | unclosed
  | closed (inner : List NumberedLine)

/-- The lines before the one that closes a body. -/
def foundUntil (ls : List NumberedLine) : FoundBody :=
  if ls.any (closesBody ·.1) then .closed (ls.takeWhile (!closesBody ·.1)) else .unclosed

/-- The body that opens on the first of the lines that is not blank. -/
def foundBelow : List NumberedLine → FoundBody
  | [] => .missing
  | p :: rest =>
      if p.written then
        if opensBody p.1 then if closesBody p.1 then .closed [] else foundUntil rest else .missing
      else foundBelow rest

/-- The body of a header, given the lines below it. -/
def foundBody (header : Text) (below : List NumberedLine) : FoundBody :=
  if endsWithBrace header then foundUntil below else foundBelow below

/-- The body with its lines numbered; `n` is the number of the line after the header. -/
def PipelineBody.numbered (n : Nat) : PipelineBody → FoundBody
  | .missing => .missing
  | .unclosed => .unclosed
  | .closed skipped inner => .closed (inner.zipIdx (n + skipped))

theorem any_zipIdx (p : Text → Bool) (ls : List Text) (n : Nat) :
    (ls.zipIdx n).any (p ·.1) = ls.any p := by
  conv_rhs => rw [← List.zipIdx_map_fst n ls, List.any_map]
  rfl

theorem takeWhile_zipIdx (p : Text → Bool) (ls : List Text) (n : Nat) :
    (ls.zipIdx n).takeWhile (p ·.1) = (ls.takeWhile p).zipIdx n := by
  induction ls generalizing n with
  | nil => rfl
  | cons line rest ih =>
      rw [List.zipIdx_cons, List.takeWhile_cons, List.takeWhile_cons]
      split
      · rw [ih, List.zipIdx_cons]
      · rfl

theorem foundUntil_zipIdx (n skipped : Nat) (ls : List Text) :
    foundUntil (ls.zipIdx (n + skipped)) = (untilClosed skipped ls).numbered n := by
  rw [foundUntil, untilClosed, any_zipIdx closesBody,
    takeWhile_zipIdx (fun line => !closesBody line)]
  split <;> rfl

theorem foundBelow_zipIdx (n skipped : Nat) (ls : List Text) :
    foundBelow (ls.zipIdx (n + skipped)) = (bodyBelow skipped ls).numbered n := by
  induction ls generalizing skipped with
  | nil => rfl
  | cons line rest ih =>
      rw [List.zipIdx_cons, foundBelow, bodyBelow, Nat.add_assoc, ih, foundUntil_zipIdx,
        NumberedLine.written]
      cases (trim line).isEmpty <;> cases opensBody line <;> cases closesBody line <;> rfl

theorem foundBody_zipIdx (header : Text) (n : Nat) (ls : List Text) :
    foundBody header (ls.zipIdx n) = (pipelineBody header ls).numbered n := by
  rw [foundBody, pipelineBody]
  split
  · exact foundUntil_zipIdx n 0 ls
  · exact foundBelow_zipIdx n 0 ls

/-! ### The pipelines -/

/-- The components in a body, and the problems with them. -/
def FoundBody.children (header : Nat) : FoundBody → Pass PipelineChild
  | .missing => { items := [], problems := [] }
  | .unclosed => { items := [], problems := [{ line := header, cause := .unclosedBody }] }
  | .closed inner => collectKeyword "component" readPipelineChild inner

/-- What is gathered from one header. -/
def headerPass (header : NumberedLine) (below : List NumberedLine) : Pass Pipeline :=
  match readPipelineHeader header.2 header.1 with
  | .error cause => { items := [], problems := [{ line := header.2, cause }] }
  | .ok pipeline =>
      let children := (foundBody header.1 below).children header.2
      { items := [pipeline.withChildren children.items], problems := children.problems }

/-- The pipelines of marked lines. -/
def readMarked : List MarkedLine → Pass Pipeline
  | [] => { items := [], problems := [] }
  | (hidden, header) :: rest =>
      if hidden || !startsWithKeyword "pipeline".toList header.1 then readMarked rest
      else (headerPass header (rest.map Prod.snd)).append (readMarked rest)

theorem readChildren_eq (header : NumberedLine) (ls : List Text) :
    readChildren header ls = (foundBody header.1 (ls.zipIdx (header.2 + 1))).children header.2 := by
  rw [readChildren, foundBody_zipIdx]
  cases pipelineBody header.1 ls <;> rfl

theorem readPipelines_eq_readMarked {flags : List Bool} {ls : List Text}
    (hlen : flags.length = ls.length) (n : Nat) :
    readPipelines (flags.zip (ls.zipIdx n)) = readMarked (flags.zip (ls.zipIdx n)) := by
  induction ls generalizing flags n with
  | nil =>
      cases flags <;> rfl
  | cons line rest ih =>
      cases flags with
      | nil => rfl
      | cons flag flags =>
          have hlen' : flags.length = rest.length := by simpa using hlen
          rw [List.zipIdx_cons, List.zip_cons_cons, readPipelines, readMarked, ih hlen',
            map_line_zip_zipIdx hlen', map_snd_zip_zipIdx hlen', headerPass, readChildren_eq]
          split
          · rfl
          · cases readPipelineHeader n line <;> rfl

/-! ### All passes -/

/-- The line as the pass over elements sees it: inside of bodies there is nothing. -/
def MarkedLine.outside (m : MarkedLine) : NumberedLine :=
  if m.1 then ([], m.2.2) else m.2

/-- What all passes gather from marked lines. -/
def Findings.ofMarked (ms : List MarkedLine) : Findings :=
  .gather (ms.map Prod.snd) (ms.map MarkedLine.outside) (readMarked ms)

theorem map_outside_zip_zipIdx (flags : List Bool) (ls : List Text) (n : Nat) :
    (flags.zip (ls.zipIdx n)).map MarkedLine.outside =
      (List.zipWith (fun hidden line => if hidden then [] else line) flags ls).zipIdx n := by
  induction ls generalizing flags n with
  | nil => cases flags <;> rfl
  | cons line rest ih =>
      cases flags with
      | nil => rfl
      | cons flag flags =>
          rw [List.zipIdx_cons, List.zip_cons_cons, List.map_cons, ih, List.zipWith_cons_cons,
            List.zipIdx_cons]
          cases flag <;> rfl

theorem Findings.ofLines_eq_ofMarked (bare : List Text) :
    Findings.ofLines bare = .ofMarked (markLines bare) := by
  rw [ofLines_eq, ofMarked, markLines, map_snd_zip_zipIdx (length_inBody bare),
    map_outside_zip_zipIdx, readPipelines_eq_readMarked (length_inBody bare), maskBodies]

/-! ### Lines with other numbers -/

section

variable (σ : Nat → Nat)

/-- The body with other numbers for its lines. -/
def FoundBody.renumber : FoundBody → FoundBody
  | .missing => .missing
  | .unclosed => .unclosed
  | .closed inner => .closed (inner.map (NumberedLine.renumber σ))

theorem foundUntil_renumber (ls : List NumberedLine) :
    foundUntil (ls.map (NumberedLine.renumber σ)) = (foundUntil ls).renumber σ := by
  rw [foundUntil, foundUntil, List.any_map, List.takeWhile_map, apply_ite (FoundBody.renumber σ)]
  rfl

theorem foundBelow_renumber (ls : List NumberedLine) :
    foundBelow (ls.map (NumberedLine.renumber σ)) = (foundBelow ls).renumber σ := by
  induction ls with
  | nil => rfl
  | cons p rest ih =>
      rw [List.map_cons, foundBelow, foundBelow, ih, foundUntil_renumber]
      simp only [apply_ite (FoundBody.renumber σ)]
      rfl

theorem foundBody_renumber (header : Text) (ls : List NumberedLine) :
    foundBody header (ls.map (NumberedLine.renumber σ)) = (foundBody header ls).renumber σ := by
  rw [foundBody, foundBody, foundUntil_renumber, foundBelow_renumber]
  exact (apply_ite (FoundBody.renumber σ) _ _ _).symm

theorem FoundBody.children_renumber (header : Nat) (body : FoundBody) :
    (body.renumber σ).children (σ header) =
      (body.children header).renumber σ (PipelineChild.renumber σ) := by
  cases body with
  | missing => rfl
  | unclosed => rfl
  | closed inner => exact collectKeyword_renumber (readPipelineChild_renumber σ) inner

theorem Pipeline.withChildren_renumber (p : Pipeline) (children : List PipelineChild) :
    (p.renumber σ).withChildren (children.map (PipelineChild.renumber σ)) =
      (p.withChildren children).renumber σ := by
  cases children with
  | nil => rfl
  | cons child others =>
      have hspan : spanOf (child.renumber σ) (others.map (PipelineChild.renumber σ)) =
          spanOf child others := by
        simp only [spanOf, List.foldl_map]
        rfl
      simp only [List.map_cons, withChildren, hspan]
      rfl

theorem headerPass_renumber (header : NumberedLine) (below : List NumberedLine) :
    headerPass (header.renumber σ) (below.map (NumberedLine.renumber σ)) =
      (headerPass header below).renumber σ (Pipeline.renumber σ) := by
  obtain ⟨line, number⟩ := header
  rw [headerPass, headerPass]
  simp only [foundBody_renumber]
  simp only [NumberedLine.renumber, readPipelineHeader_renumber σ number line]
  cases readPipelineHeader number line with
  | error cause => rfl
  | ok pipeline =>
      simp only [Except.map, FoundBody.children_renumber, Pass.renumber,
        Pipeline.withChildren_renumber, List.map_cons, List.map_nil]

theorem readMarked_renumber (ms : List MarkedLine) :
    readMarked (ms.map (MarkedLine.renumber σ)) =
      (readMarked ms).renumber σ (Pipeline.renumber σ) := by
  induction ms with
  | nil => rfl
  | cons m rest ih =>
      obtain ⟨hidden, header⟩ := m
      have hbelow : (rest.map (MarkedLine.renumber σ)).map Prod.snd =
          (rest.map Prod.snd).map (NumberedLine.renumber σ) := by
        rw [List.map_map, List.map_map]
        rfl
      rw [List.map_cons, MarkedLine.renumber, readMarked, readMarked, ih, hbelow,
        headerPass_renumber, ← Pass.renumber_append]
      exact (apply_ite (Pass.renumber σ (Pipeline.renumber σ)) _ _ _).symm

/-- All passes give the same findings under other numbers. -/
theorem Findings.ofMarked_renumber (ms : List MarkedLine) :
    Findings.ofMarked (ms.map (MarkedLine.renumber σ)) = (Findings.ofMarked ms).renumber σ := by
  have hlines : (ms.map (MarkedLine.renumber σ)).map Prod.snd =
      (ms.map Prod.snd).map (NumberedLine.renumber σ) := by
    rw [List.map_map, List.map_map]
    rfl
  have houtside : (ms.map (MarkedLine.renumber σ)).map MarkedLine.outside =
      (ms.map MarkedLine.outside).map (NumberedLine.renumber σ) := by
    rw [List.map_map, List.map_map]
    refine List.map_congr_left fun m _ => ?_
    obtain ⟨hidden, line, number⟩ := m
    cases hidden <;> rfl
  rw [ofMarked, ofMarked, hlines, houtside, readMarked_renumber, gather_renumber]

end

/-- Lines counted from one number are those counted from another one, with other numbers. -/
theorem map_renumber_zip_zipIdx {σ : Nat → Nat} {n m : Nat} {ls : List Text}
    (h : ∀ i < ls.length, σ (n + i) = m + i) (marks : List Bool) :
    (marks.zip (ls.zipIdx n)).map (MarkedLine.renumber σ) = marks.zip (ls.zipIdx m) := by
  induction ls generalizing marks n m with
  | nil => cases marks <;> rfl
  | cons line rest ih =>
      cases marks with
      | nil => rfl
      | cons mark marks =>
          have hfirst : σ n = m := h 0 (Nat.succ_pos _)
          have hrest : ∀ i < rest.length, σ (n + 1 + i) = m + 1 + i := by
            intro i hi
            have hnext := h (i + 1) (Nat.succ_lt_succ hi)
            rwa [Nat.add_right_comm, Nat.add_assoc, Nat.add_right_comm, Nat.add_assoc m]
          rw [List.zipIdx_cons, List.zipIdx_cons, List.zip_cons_cons, List.zip_cons_cons,
            List.map_cons, ih hrest, MarkedLine.renumber, NumberedLine.renumber, hfirst]

/-! ### Blank lines -/

/-- Whether anything but blanks stands on the line. -/
def MarkedLine.written (m : MarkedLine) : Bool :=
  m.2.written

/-- The body without its blank lines. -/
def FoundBody.written : FoundBody → FoundBody
  | .missing => .missing
  | .unclosed => .unclosed
  | .closed inner => .closed (inner.filter NumberedLine.written)

theorem foundUntil_written (ls : List NumberedLine) :
    foundUntil (ls.filter NumberedLine.written) = (foundUntil ls).written := by
  -- A line that closes a body is not blank, so it stays.
  have hstays : ∀ p : NumberedLine, (p.written && closesBody p.1) = closesBody p.1 := by
    intro p
    by_cases hp : p.written = true
    · rw [hp, Bool.true_and]
    · rw [closesBody_of_trim_nil (NumberedLine.trim_of_not_written hp), Bool.and_false]
  have hany : (ls.filter NumberedLine.written).any (closesBody ·.1) = ls.any (closesBody ·.1) := by
    rw [List.any_filter]
    exact congrArg ls.any (funext hstays)
  have hinner : (ls.filter NumberedLine.written).takeWhile (!closesBody ·.1) =
      (ls.takeWhile (!closesBody ·.1)).filter NumberedLine.written := by
    rw [List.takeWhile_filter]
    simp only [← Bool.not_and, hstays]
  rw [foundUntil, foundUntil, hany, hinner, apply_ite FoundBody.written]
  rfl

theorem foundBelow_written (ls : List NumberedLine) :
    foundBelow (ls.filter NumberedLine.written) = (foundBelow ls).written := by
  induction ls with
  | nil => rfl
  | cons p rest ih =>
      by_cases hp : p.written = true
      · rw [List.filter_cons_of_pos hp, foundBelow, foundBelow, if_pos hp, if_pos hp,
          foundUntil_written]
        simp only [apply_ite FoundBody.written]
        rfl
      · rw [List.filter_cons_of_neg hp, ih, foundBelow, if_neg hp]

theorem foundBody_written (header : Text) (ls : List NumberedLine) :
    foundBody header (ls.filter NumberedLine.written) = (foundBody header ls).written := by
  rw [foundBody, foundBody, foundUntil_written, foundBelow_written]
  exact (apply_ite FoundBody.written _ _ _).symm

theorem FoundBody.children_written (header : Nat) (body : FoundBody) :
    body.written.children header = body.children header := by
  cases body with
  | missing => rfl
  | unclosed => rfl
  | closed inner => exact collectKeyword_written (by decide) readPipelineChild inner

theorem headerPass_written (header : NumberedLine) (below : List NumberedLine) :
    headerPass header (below.filter NumberedLine.written) = headerPass header below := by
  rw [headerPass, headerPass]
  simp only [foundBody_written, FoundBody.children_written]

theorem map_snd_filter_written (ms : List MarkedLine) :
    (ms.filter MarkedLine.written).map Prod.snd =
      (ms.map Prod.snd).filter NumberedLine.written := by
  rw [List.filter_map]
  rfl

theorem readMarked_written (ms : List MarkedLine) :
    readMarked (ms.filter MarkedLine.written) = readMarked ms := by
  induction ms with
  | nil => rfl
  | cons m rest ih =>
      by_cases hm : m.written = true
      · rw [List.filter_cons_of_pos hm, readMarked, readMarked, ih, map_snd_filter_written,
          headerPass_written]
      · rw [List.filter_cons_of_neg hm, ih, readMarked,
          startsWithKeyword_of_blank (by decide) (NumberedLine.trim_of_not_written hm)]
        simp

/-- Blank lines may be left out of a document, when the other lines keep their numbers and marks. -/
theorem Findings.ofMarked_written (ms : List MarkedLine) :
    Findings.ofMarked (ms.filter MarkedLine.written) = .ofMarked ms := by
  have houtside : ((ms.filter MarkedLine.written).map MarkedLine.outside).filter
      NumberedLine.written = (ms.map MarkedLine.outside).filter NumberedLine.written := by
    rw [List.filter_map, List.filter_map, List.filter_filter]
    refine congrArg _ (List.filter_congr fun m _ => ?_)
    obtain ⟨hidden, line⟩ := m
    have hempty : NumberedLine.written ([], line.2) = false := rfl
    cases hidden <;> simp [MarkedLine.outside, MarkedLine.written, hempty]
  rw [ofMarked, ofMarked, readMarked_written, ← gather_written, map_snd_filter_written, houtside,
    List.filter_filter]
  simp only [Bool.and_self]
  exact gather_written _ _ _

/-! ### Lists behind each other -/

/-- No header among the first lines finds its body, or part of it, among the others. -/
def BodiesEnd (ms later : List MarkedLine) : Prop :=
  ∀ above header below pipeline, ms = above ++ (false, header) :: below →
    startsWithKeyword "pipeline".toList header.1 = true →
    readPipelineHeader header.2 header.1 = .ok pipeline →
    foundBody header.1 ((below ++ later).map Prod.snd) = foundBody header.1 (below.map Prod.snd)

theorem readMarked_append {ms later : List MarkedLine} (h : BodiesEnd ms later) :
    readMarked (ms ++ later) = (readMarked ms).append (readMarked later) := by
  induction ms with
  | nil => simp [readMarked, Pass.append]
  | cons m rest ih =>
      obtain ⟨hidden, header⟩ := m
      have hrest : BodiesEnd rest later := fun above header' below pipeline hms =>
        h (_ :: above) header' below pipeline (by rw [hms, List.cons_append])
      rw [List.cons_append, readMarked, readMarked, ih hrest]
      split
      · rfl
      · next hskip =>
        simp only [Bool.or_eq_true, Bool.not_eq_true', not_or, Bool.not_eq_true,
          Bool.not_eq_false] at hskip
        obtain ⟨rfl, hkeyword⟩ := hskip
        have hheader : headerPass header ((rest ++ later).map Prod.snd) =
            headerPass header (rest.map Prod.snd) := by
          rw [headerPass, headerPass]
          cases hread : readPipelineHeader header.2 header.1 with
          | error cause => rfl
          | ok pipeline =>
              rw [h [] header rest pipeline rfl hkeyword hread]
        rw [hheader]
        simp [Pass.append]

theorem Findings.ofMarked_append {ms later : List MarkedLine} (h : BodiesEnd ms later) :
    Findings.ofMarked (ms ++ later) = (Findings.ofMarked ms).append (.ofMarked later) := by
  rw [ofMarked, ofMarked, ofMarked, readMarked_append h, List.map_append, List.map_append,
    gather_append]

end WardleyMaps
