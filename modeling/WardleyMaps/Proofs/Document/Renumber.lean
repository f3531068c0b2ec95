/-
Module: WardleyMaps.Proofs.Document.Renumber
Purpose: Documents whose lines have other numbers.
Main exports: Document.renumber, Findings.renumber, Findings.gather_renumber,
  Findings.document_renumber, Document.read_renumber
-/
import Mathlib.Order.Monotone.Basic
import WardleyMaps.Proofs.Document.Gather

namespace WardleyMaps

open Text

/-!
The number of a line goes into the entity or the problem that is read from it, and nothing else
depends on it: readers give the same entities under other numbers (`readComponent_renumber` and the
like), and so do all passes together (`Findings.gather_renumber`). When the other numbers keep the
order of the lines, the problems are sorted as before, and the document is the same but for its
numbers (`Document.read_renumber`).
-/

/-! ### Entities -/

section

variable (σ : Nat → Nat)

/-- The component of a line with another number. -/
def Component.renumber (c : Component) : Component :=
  { c with line := σ c.line }

/-- The anchor of a line with another number. -/
def Anchor.renumber (a : Anchor) : Anchor :=
  { a with line := σ a.line }

/-- The note of a line with another number. -/
def Note.renumber (n : Note) : Note :=
  { n with line := σ n.line }

/-- The accelerator of a line with another number. -/
def Accelerator.renumber (a : Accelerator) : Accelerator :=
  { a with line := σ a.line }

/-- The evolution of a line with another number. -/
def Evolution.renumber (e : Evolution) : Evolution :=
  { e with line := σ e.line }

/-- The component of a pipeline, of a line with another number. -/
def PipelineChild.renumber (c : PipelineChild) : PipelineChild :=
  { c with line := σ c.line }

/-- The pipeline with other numbers for its header and its components. -/
def Pipeline.renumber (p : Pipeline) : Pipeline :=
  { p with line := σ p.line, children := p.children.map (PipelineChild.renumber σ) }

/-- The annotation of a line with another number, before its own number is converted. -/
def AnnotationDraft.renumber (d : AnnotationDraft) : AnnotationDraft :=
  { d with line := σ d.line }

/-- The annotation of a line with another number. -/
def NumberedNote.renumber (n : NumberedNote) : NumberedNote :=
  { n with line := σ n.line }

/-- The address of a line with another number. -/
def Address.renumber (a : Address) : Address :=
  { a with line := σ a.line }

/-- The attitude of a line with another number. -/
def Attitude.renumber (a : Attitude) : Attitude :=
  { a with line := σ a.line }

/-- The method of a line with another number. -/
def Method.renumber (m : Method) : Method :=
  { m with line := σ m.line }

/-- The document with other numbers for all lines. -/
def Document.renumber (doc : Document) : Document :=
  { doc with
    elements := doc.elements.map (Component.renumber σ)
    anchors := doc.anchors.map (Anchor.renumber σ)
    evolved := doc.evolved.map (Evolution.renumber σ)
    pipelines := doc.pipelines.map (Pipeline.renumber σ)
    annotations := doc.annotations.map (NumberedNote.renumber σ)
    notes := doc.notes.map (Note.renumber σ)
    submaps := doc.submaps.map (Component.renumber σ)
    addresses := doc.addresses.map (Address.renumber σ)
    attitudes := doc.attitudes.map (Attitude.renumber σ)
    accelerators := doc.accelerators.map (Accelerator.renumber σ)
    methods := doc.methods.map (Method.renumber σ)
    problems := doc.problems.map (Problem.renumber σ) }

/-- The findings with other numbers for all lines. -/
def Findings.renumber (f : Findings) : Findings :=
  { titles := f.titles.renumber σ id
    stages := f.stages.renumber σ id
    styles := f.styles.renumber σ id
    legends := f.legends.renumber σ id
    sizes := f.sizes.renumber σ id
    notes := f.notes.renumber σ (Note.renumber σ)
    drafts := f.drafts.renumber σ (AnnotationDraft.renumber σ)
    elements := f.elements.renumber σ (Component.renumber σ)
    pipelines := f.pipelines.renumber σ (Pipeline.renumber σ)
    evolved := f.evolved.renumber σ (Evolution.renumber σ)
    anchors := f.anchors.renumber σ (Anchor.renumber σ)
    links := f.links.renumber σ id
    submaps := f.submaps.renumber σ (Component.renumber σ)
    addresses := f.addresses.renumber σ (Address.renumber σ)
    attitudes := f.attitudes.renumber σ (Attitude.renumber σ)
    accelerators := f.accelerators.renumber σ (Accelerator.renumber σ)
    methods := f.methods.renumber σ (Method.renumber σ) }

end

/-! ### Readers -/

/-- What is done with the result of two steps is done with that of the second. -/
theorem map_bind_eq {ε α β γ : Type} (x : Except ε α) (f : α → Except ε β) (g : β → γ) :
    (x >>= f).map g = x >>= fun a => (f a).map g := by
  cases x <;> rfl

theorem map_id_eq {ε α : Type} (x : Except ε α) : x = x.map id := by
  cases x <;> rfl

section

variable (σ : Nat → Nat) (number : Nat) (line : Text)

theorem readComponent_renumber (submap : Bool) :
    readComponent submap (σ number) line =
      (readComponent submap number line).map (Component.renumber σ) := by
  simp only [readComponent, map_bind_eq]
  rfl

theorem readAnchor_renumber :
    readAnchor (σ number) line = (readAnchor number line).map (Anchor.renumber σ) := by
  simp only [readAnchor, map_bind_eq]
  rfl

theorem readNote_renumber :
    readNote (σ number) line = (readNote number line).map (Note.renumber σ) := by
  simp only [readNote, map_bind_eq]
  rfl

theorem readAccelerator_renumber (slowing : Bool) :
    readAccelerator slowing (σ number) line =
      (readAccelerator slowing number line).map (Accelerator.renumber σ) := by
  simp only [readAccelerator, map_bind_eq]
  rfl

theorem readMethod_renumber (kind : MethodKind) :
    readMethod kind (σ number) line = (readMethod kind number line).map (Method.renumber σ) := by
  simp only [readMethod, map_bind_eq]
  rfl

theorem readAddress_renumber :
    readAddress (σ number) line = (readAddress number line).map (Address.renumber σ) := by
  simp only [readAddress, map_bind_eq]
  congr 1
  funext b
  congr 1
  funext name
  split <;> rfl

theorem readAttitude_renumber (kind : AttitudeKind) :
    readAttitude kind (σ number) line =
      (readAttitude kind number line).map (Attitude.renumber σ) := by
  simp only [readAttitude, map_bind_eq]
  congr 1
  funext b
  congr 1
  funext numbers
  split <;> rfl

theorem readEvolution_renumber :
    readEvolution (σ number) line = (readEvolution number line).map (Evolution.renumber σ) := by
  unfold readEvolution
  split
  · rfl
  · simp only [map_bind_eq]
    rfl

theorem readNumberedNote_renumber :
    readNumberedNote (σ number) line =
      (readNumberedNote number line).map (AnnotationDraft.renumber σ) := by
  unfold readNumberedNote
  split
  · rfl
  · simp only [map_bind_eq]
    rfl

theorem readPipelineHeader_renumber :
    readPipelineHeader (σ number) line =
      (readPipelineHeader number line).map (Pipeline.renumber σ) := by
  simp only [readPipelineHeader, map_bind_eq]
  congr 1
  funext found
  cases found <;> simp only [map_bind_eq] <;> rfl

theorem readPipelineChild_renumber :
    readPipelineChild (σ number) line =
      (readPipelineChild number line).map (PipelineChild.renumber σ) := by
  simp only [readPipelineChild, map_bind_eq]
  congr 1
  funext b
  congr 1
  funext name
  congr 1
  funext numbers
  split
  · simp only [map_bind_eq]
    rfl
  · rfl

end

/-! ### All passes -/

section

variable {α : Type} {keyword : String} {σ : Nat → Nat}

theorem collectKeyword_renumber {build : Nat → Text → Except Cause α} {move : α → α}
    (h : ∀ number line, build (σ number) line = (build number line).map move)
    (ls : List NumberedLine) :
    collectKeyword keyword build (ls.map (NumberedLine.renumber σ)) =
      (collectKeyword keyword build ls).renumber σ move :=
  collect_renumber (fun _ => h) ls

/-- A statement that does not tell its line stays as it is. -/
theorem collectKeyword_renumber_id (read : Text → Except Cause α) (ls : List NumberedLine) :
    collectKeyword keyword (fun _ => read) (ls.map (NumberedLine.renumber σ)) =
      (collectKeyword keyword (fun _ => read) ls).renumber σ id :=
  collectKeyword_renumber (fun _ line => map_id_eq (read line)) ls

end

section

variable (σ : Nat → Nat)

/-- All passes give the same findings under other numbers, if the one over pipelines does. -/
theorem Findings.gather_renumber (ls outside : List NumberedLine) (pipelines : Pass Pipeline) :
    Findings.gather (ls.map (NumberedLine.renumber σ)) (outside.map (NumberedLine.renumber σ))
        (pipelines.renumber σ (Pipeline.renumber σ)) =
      (Findings.gather ls outside pipelines).renumber σ := by
  simp only [gather, renumber, collectKeyword_renumber_id, collectLinks_renumber,
    collectKeyword_renumber (readNote_renumber σ),
    collectKeyword_renumber (readNumberedNote_renumber σ),
    collectKeyword_renumber (readEvolution_renumber σ),
    collectKeyword_renumber (readAnchor_renumber σ),
    collectKeyword_renumber (readAddress_renumber σ),
    collectKeyword_renumber fun number line => readComponent_renumber σ number line false,
    collectKeyword_renumber fun number line => readComponent_renumber σ number line true,
    collect_renumber fun kind number line => readAttitude_renumber σ number line kind,
    collect_renumber fun kind number line => readAccelerator_renumber σ number line kind,
    collect_renumber fun kind number line => readMethod_renumber σ number line kind]

/-! ### The document -/

theorem Findings.problems_renumber (f : Findings) :
    (f.renumber σ).problems = f.problems.map (List.map (Problem.renumber σ)) :=
  rfl

theorem AnnotationDraft.settle_renumber (d : AnnotationDraft) :
    (d.renumber σ).settle = d.settle.map (NumberedNote.renumber σ) := by
  by_cases h : maxIntegerDigits < d.digits.length <;> simp [settle, renumber, h] <;> rfl

theorem mapM_settle_renumber (drafts : List AnnotationDraft) :
    (drafts.map (AnnotationDraft.renumber σ)).mapM AnnotationDraft.settle =
      (drafts.mapM AnnotationDraft.settle).map (List.map (NumberedNote.renumber σ)) := by
  induction drafts with
  | nil => rfl
  | cons d rest ih =>
      rw [List.map_cons, List.mapM_cons, List.mapM_cons, ih, d.settle_renumber]
      cases d.settle with
      | error _ => rfl
      | ok note => cases rest.mapM AnnotationDraft.settle <;> rfl

end

/-- Other numbers in the same order do not change the order of the problems. -/
theorem sortProblems_renumber {σ : Nat → Nat} (h : StrictMono σ) (problems : List Problem) :
    sortProblems (problems.map (Problem.renumber σ)) =
      (sortProblems problems).map (Problem.renumber σ) := by
  refine (List.map_mergeSort fun a _ b _ => ?_).symm
  simp [Problem.renumber, h.le_iff_le]

theorem Findings.document_renumber {σ : Nat → Nat} (h : StrictMono σ) (f : Findings)
    (annotations : List NumberedNote) :
    (f.renumber σ).document (annotations.map (NumberedNote.renumber σ)) =
      (f.document annotations).renumber σ := by
  have hproblems : sortProblems (f.renumber σ).problems.flatten =
      (sortProblems f.problems.flatten).map (Problem.renumber σ) := by
    rw [problems_renumber, ← List.map_flatten, sortProblems_renumber h]
  simp only [document, Document.renumber, hproblems]
  simp only [renumber, Pass.renumber, List.map_id]

/-- The numbers of the annotations are all that can stop the reading. -/
theorem Document.read_eq_map (source : Text) :
    Document.read source =
      ((Findings.ofLines (bareLines source)).drafts.items.mapM AnnotationDraft.settle).map
        (Findings.ofLines (bareLines source)).document := by
  rw [Document.read, bareLines]
  cases (Findings.ofLines (stripLines false (lines source))).drafts.items.mapM
    AnnotationDraft.settle <;> rfl

/-- Where all passes find the same under other numbers in the same order, the documents are the same
but for these numbers. -/
theorem Document.read_renumber {σ : Nat → Nat} (hσ : StrictMono σ) {source other : Text}
    (h : Findings.ofLines (bareLines other) =
      (Findings.ofLines (bareLines source)).renumber σ) :
    Document.read other = (Document.read source).map (Document.renumber σ) := by
  have hdrafts : ((Findings.ofLines (bareLines source)).renumber σ).drafts.items =
      (Findings.ofLines (bareLines source)).drafts.items.map (AnnotationDraft.renumber σ) := rfl
  rw [Document.read_eq_map, Document.read_eq_map, h, hdrafts, mapM_settle_renumber]
  cases (Findings.ofLines (bareLines source)).drafts.items.mapM AnnotationDraft.settle with
  | error tooLong => rfl
  | ok annotations => exact congrArg Except.ok (Findings.document_renumber hσ _ annotations)

end WardleyMaps
