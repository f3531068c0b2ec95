/-
Module: WardleyMaps.Document.Read
Purpose: Reading a whole map document from its source.
Main exports: Document.read, Findings, Pass, collect, readPipelines
-/
import WardleyMaps.Body
import WardleyMaps.Comment
import WardleyMaps.Statement.Entity
import WardleyMaps.Statement.Evolve
import WardleyMaps.Statement.Link
import WardleyMaps.Statement.NumberedNote
import WardleyMaps.Statement.Pipeline

namespace WardleyMaps

open Text

/-!
Each kind of statement is gathered by a pass of its own over the lines without comments, and no pass
sees what another one found. A line that a pass recognises but cannot read becomes a problem of that
line and costs nothing else. Only the number of an annotation can stop the reading.
-/

/-- A line of the source without its comments, and its number. -/
abbrev NumberedLine := Text × Nat

/-- What a pass gathers: the entities that it read and the problems of the other lines. -/
structure Pass (α : Type) where
  items : List α
  problems : List Problem

/-- Gather what `build` makes of the lines that `accept` recognises. -/
def collect {α κ : Type} (accept : Text → Option κ) (build : κ → Nat → Text → Except Cause α) :
    List NumberedLine → Pass α
  | [] => { items := [], problems := [] }
  | (line, number) :: rest =>
      let later := collect accept build rest
      match accept line with
      | none => later
      | some kind =>
          match build kind number line with
          | .ok item => { later with items := item :: later.items }
          | .error cause => { later with problems := { line := number, cause } :: later.problems }

/-- The kind of statement that a line is, among kinds with their keywords. -/
def kindOf {κ : Type} (kinds : List κ) (keyword : κ → String) (line : Text) : Option κ :=
  kinds.find? fun kind => startsWithKeyword (keyword kind).toList line

/-- Gather the statements of one keyword. -/
def collectKeyword {α : Type} (keyword : String) (build : Nat → Text → Except Cause α) :
    List NumberedLine → Pass α :=
  collect (kindOf [()] fun _ => keyword) fun _ => build

/-- The links of the lines that may be one. -/
def collectLinks (ls : List NumberedLine) : Pass Link :=
  let found := collect (fun line => if isLinkCandidate line then some () else none)
    (fun _ _ line => readLink line) ls
  { items := found.items.filterMap id, problems := found.problems }

/-- The span of the maturities of a pipeline's components. -/
def spanOf (first : PipelineChild) (others : List PipelineChild) : Double × Double :=
  (others.foldl (fun least child => Double.min least child.maturity) first.maturity,
    others.foldl (fun most child => Double.max most child.maturity) first.maturity)

/-- Give a pipeline its components; they show it and set its span. -/
def Pipeline.withChildren (p : Pipeline) : List PipelineChild → Pipeline
  | [] => p
  | child :: others =>
      let (first, last) := spanOf child others
      { p with shown := true, first, last, children := child :: others }

/-- The components in the body of a header, and the problems with it. -/
def readChildren (header : NumberedLine) (below : List Text) : Pass PipelineChild :=
  match pipelineBody header.1 below with
  | .missing => { items := [], problems := [] }
  | .unclosed => { items := [], problems := [{ line := header.2, cause := .unclosedBody }] }
  | .closed skipped inner =>
      collectKeyword "component" readPipelineChild (inner.zipIdx (header.2 + 1 + skipped))

/-- The pipelines of a document. A line is given with the flag that it lies inside a body; no header
is looked for there. -/
def readPipelines : List (Bool × NumberedLine) → Pass Pipeline
  | [] => { items := [], problems := [] }
  | (hidden, header) :: rest =>
      let later := readPipelines rest
      if hidden || !startsWithKeyword "pipeline".toList header.1 then later
      else
        match readPipelineHeader header.2 header.1 with
        | .error cause =>
            { later with problems := { line := header.2, cause } :: later.problems }
        | .ok pipeline =>
            let children := readChildren header (rest.map fun (_, line, _) => line)
            { items := pipeline.withChildren children.items :: later.items
              problems := children.problems ++ later.problems }

/-- Both kinds of accelerators, by whether they slow down. -/
def acceleratorKinds : List Bool := [false, true]

/-- The attitudes in the order in which their keywords are tried. -/
def attitudeKinds : List AttitudeKind := [.pioneers, .settlers, .townplanners]

/-- The methods in the order in which their keywords are tried. -/
def methodKinds : List MethodKind := [.buy, .build, .outsource]

/-- Put problems in the order of their lines; those of one line stay in order. -/
def sortProblems (problems : List Problem) : List Problem :=
  problems.mergeSort fun a b => a.line ≤ b.line

/-- What the passes over the lines of a document found. -/
structure Findings where
  titles : Pass Text
  stages : Pass (List Stage)
  styles : Pass Text
  legends : Pass Position
  sizes : Pass Size
  notes : Pass Note
  drafts : Pass AnnotationDraft
  elements : Pass Component
  pipelines : Pass Pipeline
  evolved : Pass Evolution
  anchors : Pass Anchor
  links : Pass Link
  submaps : Pass Component
  addresses : Pass Address
  attitudes : Pass Attitude
  accelerators : Pass Accelerator
  methods : Pass Method

/-- Run every pass over lines without comments. Components are looked for outside of bodies only. -/
def Findings.ofLines (bare : List Text) : Findings :=
  let ls := bare.zipIdx 1
  { titles := collectKeyword "title" (fun _ => readTitle) ls
    stages := collectKeyword "evolution" (fun _ => readStages) ls
    styles := collectKeyword "style" (fun _ => readStyle) ls
    legends := collectKeyword "annotations" (fun _ => readLegend) ls
    sizes := collectKeyword "size" (fun _ => readSize) ls
    notes := collectKeyword "note" readNote ls
    drafts := collectKeyword "annotation" readNumberedNote ls
    elements := collectKeyword "component" (readComponent false) ((maskBodies bare).zipIdx 1)
    pipelines := readPipelines ((inBody bare).zip ls)
    evolved := collectKeyword "evolve" readEvolution ls
    anchors := collectKeyword "anchor" readAnchor ls
    links := collectLinks ls
    submaps := collectKeyword "submap" (readComponent true) ls
    addresses := collectKeyword "url" readAddress ls
    attitudes := collect (kindOf attitudeKinds AttitudeKind.keyword) readAttitude ls
    accelerators := collect (kindOf acceleratorKinds acceleratorKeyword) readAccelerator ls
    methods := collect (kindOf methodKinds MethodKind.keyword) readMethod ls }

/-- The problems that each pass found, in the order of the passes. -/
def Findings.problems (f : Findings) : List (List Problem) :=
  [f.titles.problems, f.stages.problems, f.styles.problems, f.legends.problems, f.sizes.problems,
    f.notes.problems, f.drafts.problems, f.elements.problems, f.pipelines.problems,
    f.evolved.problems, f.anchors.problems, f.links.problems, f.submaps.problems,
    f.addresses.problems, f.attitudes.problems, f.accelerators.problems, f.methods.problems]

/-- The document that the findings make up, once the numbers of the annotations are converted. The
first title and the first valid naming of the stages count, and the last valid style, legend and
size. -/
def Findings.document (f : Findings) (annotations : List NumberedNote) : Document :=
  let standard : Document := {}
  { title := f.titles.items.head?.getD standard.title
    elements := f.elements.items
    links := f.links.items
    anchors := f.anchors.items
    evolved := f.evolved.items
    pipelines := f.pipelines.items
    annotations
    notes := f.notes.items
    stages := f.stages.items.head?.getD standard.stages
    submaps := f.submaps.items
    addresses := f.addresses.items
    attitudes := f.attitudes.items
    accelerators := f.accelerators.items
    methods := f.methods.items
    presentation :=
      { style := f.styles.items.getLast?.getD standard.presentation.style
        legend := f.legends.items.getLast?.getD standard.presentation.legend
        size := f.sizes.items.getLast?.getD standard.presentation.size }
    problems := sortProblems f.problems.flatten }

/-- Read a map document. -/
def Document.read (source : Text) : Except NumberTooLong Document := do
  let found := Findings.ofLines (stripLines false (lines source))
  let annotations ← found.drafts.items.mapM AnnotationDraft.settle
  .ok (found.document annotations)

end WardleyMaps
