/-
Module: WardleyMaps.Proofs.Document.Blanks
Purpose: A document is read from its lines without the blanks at their ends.
Main exports: inBody_trim, pipelineBody_trim, collect_trim, Findings.gather_trim,
  readPipelines_trim, Findings.ofLines_trim, Document.read_congr
-/
import WardleyMaps.Proofs.Document.Gather

namespace WardleyMaps

open Text

/-!
Whatever looks at a line trims it first, or looks for a character that is no blank. So all readers,
and the two that look for bodies, see the same in a line and in what trimming leaves of it, and what
all passes find in the lines of a document they find in the trimmed lines (`Findings.ofLines_trim`).
-/

/-! ### Bodies -/

@[simp]
theorem closesBody_trim (line : Text) : closesBody (trim line) = closesBody line := by
  rw [Bool.eq_iff_iff, closesBody_iff, closesBody_iff, trim_trim]

@[simp]
theorem opensBody_trim (line : Text) : opensBody (trim line) = opensBody line := by
  simp [opensBody]

@[simp]
theorem endsWithBrace_trim (line : Text) : endsWithBrace (trim line) = endsWithBrace line := by
  simp [endsWithBrace]

theorem any_closesBody_trim (ls : List Text) :
    (ls.map trim).any closesBody = ls.any closesBody := by
  simp [List.any_map, Function.comp_def]

theorem inBodyFrom_trim (isOpen : Bool) (ls : List Text) :
    inBodyFrom isOpen (ls.map trim) = inBodyFrom isOpen ls := by
  induction ls generalizing isOpen with
  | nil => rfl
  | cons line rest ih =>
      rw [List.map_cons, inBodyFrom_cons, inBodyFrom_cons, ih]
      cases isOpen <;>
        simp only [hiddenBy, openAfter, closesBody_trim, opensBody_trim, endsWithBrace_trim,
          any_closesBody_trim]

theorem inBody_trim (ls : List Text) : inBody (ls.map trim) = inBody ls :=
  inBodyFrom_trim false ls

theorem maskBodies_trim (ls : List Text) : maskBodies (ls.map trim) = (maskBodies ls).map trim := by
  rw [maskBodies, maskBodies, inBody_trim, List.zipWith_map_right, List.map_zipWith]
  congr 1
  funext hidden line
  cases hidden <;> rfl

/-- The body with its lines trimmed. -/
def PipelineBody.trimmed : PipelineBody → PipelineBody
  | .missing => .missing
  | .unclosed => .unclosed
  | .closed skipped inner => .closed skipped (inner.map trim)

theorem untilClosed_trim (skipped : Nat) (ls : List Text) :
    untilClosed skipped (ls.map trim) = (untilClosed skipped ls).trimmed := by
  have inner : (ls.map trim).takeWhile (!closesBody ·) =
      (ls.takeWhile (!closesBody ·)).map trim := by
    simp [List.takeWhile_map, Function.comp_def]
  rw [untilClosed, untilClosed, any_closesBody_trim, inner]
  split <;> rfl

theorem bodyBelow_trim (skipped : Nat) (ls : List Text) :
    bodyBelow skipped (ls.map trim) = (bodyBelow skipped ls).trimmed := by
  induction ls generalizing skipped with
  | nil => rfl
  | cons line rest ih =>
      rw [List.map_cons, bodyBelow, bodyBelow, trim_trim, opensBody_trim, closesBody_trim, ih,
        untilClosed_trim]
      split
      · rfl
      · split
        · split <;> rfl
        · rfl

theorem pipelineBody_trim (header : Text) (below : List Text) :
    pipelineBody (trim header) (below.map trim) = (pipelineBody header below).trimmed := by
  rw [pipelineBody, pipelineBody, endsWithBrace_trim, untilClosed_trim, bodyBelow_trim]
  split <;> rfl

/-! ### One pass -/

/-- The line without the blanks at its ends. -/
def NumberedLine.trimmed (p : NumberedLine) : NumberedLine :=
  (trim p.1, p.2)

@[simp]
theorem startsWithKeyword_trim (keyword line : Text) :
    startsWithKeyword keyword (trim line) = startsWithKeyword keyword line := by
  simp [startsWithKeyword]

@[simp]
theorem afterKeyword_trim (keyword line : Text) :
    afterKeyword keyword (trim line) = afterKeyword keyword line := by
  simp [afterKeyword]

section

variable {α κ : Type}

theorem collect_trim {accept : Text → Option κ} {build : κ → Nat → Text → Except Cause α}
    (haccept : ∀ line, accept (trim line) = accept line)
    (hbuild : ∀ kind number line, build kind number (trim line) = build kind number line)
    (ls : List NumberedLine) :
    collect accept build (ls.map NumberedLine.trimmed) = collect accept build ls := by
  induction ls with
  | nil => rfl
  | cons p rest ih =>
      obtain ⟨line, number⟩ := p
      rw [List.map_cons, NumberedLine.trimmed, collect, collect, ih, haccept]
      cases accept line with
      | none => rfl
      | some kind => simp only [hbuild]

theorem collectKinds_trim {kinds : List κ} {keyword : κ → String}
    {build : κ → Nat → Text → Except Cause α}
    (hbuild : ∀ kind number line, build kind number (trim line) = build kind number line)
    (ls : List NumberedLine) :
    collect (kindOf kinds keyword) build (ls.map NumberedLine.trimmed) =
      collect (kindOf kinds keyword) build ls :=
  collect_trim (fun line => by simp [kindOf]) hbuild ls

theorem collectKeyword_trim {keyword : String} {build : Nat → Text → Except Cause α}
    (hbuild : ∀ number line, build number (trim line) = build number line)
    (ls : List NumberedLine) :
    collectKeyword keyword build (ls.map NumberedLine.trimmed) = collectKeyword keyword build ls :=
  collectKinds_trim (fun _ => hbuild) ls

theorem collectLinks_trim (ls : List NumberedLine) :
    collectLinks (ls.map NumberedLine.trimmed) = collectLinks ls := by
  have same : ∀ accept : Text → Option Unit, (∀ line, accept (trim line) = accept line) →
      collect accept (fun _ _ line => readLink line) (ls.map NumberedLine.trimmed) =
        collect accept (fun _ _ line => readLink line) ls :=
    fun accept haccept => collect_trim haccept (fun _ _ line => by simp [readLink]) ls
  rw [collectLinks, collectLinks, same _ fun line => by simp [isLinkCandidate]]

/-! ### All passes -/

theorem Findings.gather_trim (ls outside : List NumberedLine) (pipelines : Pass Pipeline) :
    Findings.gather (ls.map NumberedLine.trimmed) (outside.map NumberedLine.trimmed) pipelines =
      Findings.gather ls outside pipelines := by
  simp only [gather, Findings.mk.injEq, collectLinks_trim, true_and]
  refine ⟨collectKeyword_trim ?_ ls, collectKeyword_trim ?_ ls, collectKeyword_trim ?_ ls,
    collectKeyword_trim ?_ ls, collectKeyword_trim ?_ ls, collectKeyword_trim ?_ ls,
    collectKeyword_trim ?_ ls, collectKeyword_trim ?_ outside, collectKeyword_trim ?_ ls,
    collectKeyword_trim ?_ ls, collectKeyword_trim ?_ ls, collectKeyword_trim ?_ ls,
    collectKinds_trim ?_ ls, collectKinds_trim ?_ ls, collectKinds_trim ?_ ls⟩
  -- Every reader takes what follows its keyword.
  all_goals
    intros
    simp only [readTitle, readStages, readStyle, readLegend, readSize, readNote, readNumberedNote,
      readComponent, readEvolution, readAnchor, readAddress, readAttitude, readAccelerator,
      readMethod, afterKeyword_trim]

/-- The children of a header are read from the trimmed lines of its body. -/
theorem readChildren_trim (header : NumberedLine) (below : List Text) :
    readChildren header.trimmed (below.map trim) = readChildren header below := by
  have inner : ∀ (ls : List Text) (first : Nat),
      (ls.map trim).zipIdx first = (ls.zipIdx first).map NumberedLine.trimmed :=
    fun ls first => List.zipIdx_map
  rw [readChildren, readChildren, NumberedLine.trimmed, pipelineBody_trim]
  cases pipelineBody header.1 below with
  | missing => rfl
  | unclosed => rfl
  | closed skipped ls =>
      simp only [PipelineBody.trimmed, inner]
      exact collectKeyword_trim (fun _ _ => by simp only [readPipelineChild, afterKeyword_trim]) _

theorem readPipelines_trim (ls : List (Bool × NumberedLine)) :
    readPipelines (ls.map fun p => (p.1, NumberedLine.trimmed p.2)) = readPipelines ls := by
  induction ls with
  | nil => rfl
  | cons p rest ih =>
      obtain ⟨hidden, header⟩ := p
      have below : (rest.map fun p => (p.1, NumberedLine.trimmed p.2)).map (fun p => p.2.1) =
          (rest.map fun p => p.2.1).map trim := by
        simp [NumberedLine.trimmed]
      have hheader : readPipelineHeader header.2 (trim header.1) =
          readPipelineHeader header.2 header.1 := by
        simp only [readPipelineHeader, afterKeyword_trim]
      rw [List.map_cons, readPipelines, readPipelines, ih]
      simp only [below, readChildren_trim]
      simp only [NumberedLine.trimmed, startsWithKeyword_trim, hheader]

end

/-- The passes find the same in the lines of a document without the blanks at their ends. -/
theorem Findings.ofLines_trim (bare : List Text) :
    Findings.ofLines (bare.map trim) = Findings.ofLines bare := by
  have numbered : ∀ ls : List Text,
      (ls.map trim).zipIdx 1 = (ls.zipIdx 1).map NumberedLine.trimmed :=
    fun ls => List.zipIdx_map
  have marked : (inBody bare).zip ((bare.zipIdx 1).map NumberedLine.trimmed) =
      ((inBody bare).zip (bare.zipIdx 1)).map fun p => (p.1, NumberedLine.trimmed p.2) := by
    rw [List.zip_map_right]
    rfl
  rw [Findings.ofLines_eq, Findings.ofLines_eq, maskBodies_trim, inBody_trim, numbered, numbered,
    marked, readPipelines_trim, Findings.gather_trim]

/-- Documents whose lines without comments are the same up to blanks at their ends are the same. -/
theorem Document.read_congr {source other : Text}
    (h : (bareLines other).map trim = (bareLines source).map trim) :
    Document.read other = Document.read source := by
  have found : Findings.ofLines (bareLines other) = Findings.ofLines (bareLines source) := by
    rw [← Findings.ofLines_trim, h, Findings.ofLines_trim]
  rw [bareLines, bareLines] at found
  rw [Document.read, Document.read, found]

end WardleyMaps
