/-
Module: WardleyMaps.Proofs.Document.Reported
Purpose: Which sources are read, and that the problems of the document are all those of the source.
Main exports: PassName.Refuses, UnclosedPipeline, mem_problems_readPipelines_iff,
  mem_problems_document_iff, exists_read_iff, read_and_reported_iff
-/
import WardleyMaps.Proofs.Document.LongNumber
import WardleyMaps.Proofs.Document.Verdict

namespace WardleyMaps

open Text

/-!
The passes of a reading are total: a statement that a pass cannot read is a problem, and the pass
goes on. So two things are shown here. Every statement that some pass refuses is among the problems
of the document, with the cause that the reader of this statement gives (`mem_problemsOf_iff`). And
nothing but the conversion of the number of an annotation keeps a source from becoming a document
(`exists_read_iff`).
-/

/-- The pass takes the line of a problem for one of its statements and cannot read it for the cause
of the problem. -/
def PassName.Refuses (bare : List Text) (problem : Problem) (p : PassName) : Prop :=
  ∃ i line, problem.line = i + 1 ∧ p.Sees bare i line ∧ p.Accepts line ∧
    p.verdict problem.line line = .error problem.cause

/-- The problem of a header that can be read and whose body is never closed. -/
def UnclosedPipeline (bare : List Text) (problem : Problem) : Prop :=
  ∃ i header pipeline, problem = { line := i + 1, cause := .unclosedBody } ∧
    HeaderAt bare i header ∧ readPipelineHeader (i + 1) header = .ok pipeline ∧
    pipelineBody header (bare.drop (i + 1)) = .unclosed

namespace PassName

/-! ### Verdicts -/

theorem entity_eq_error {α : Type} {read : Except Cause α} {cause : Cause} :
    entity read = .error cause ↔ read = .error cause := by
  cases read <;> simp [entity, Except.map]

theorem entityOfKind_eq {α κ : Type} {kinds : List κ} {keyword : κ → String}
    {read : κ → Nat → Text → Except Cause α} {number : Nat} {line : Text} {kind : κ}
    (recognised : kindOf kinds keyword line = some kind) :
    entityOfKind kinds keyword read number line = entity (read kind number line) := by
  rw [entityOfKind, recognised]

/-- A pass with keywords accepts the lines that are of one of its kinds. -/
theorem accepts_iff_kindOf {κ : Type} {kinds : List κ} {keyword : κ → String} {line : Text}
    {p : PassName} (worded : p ≠ link) (keywords : p.keywords = kinds.map keyword) :
    p.Accepts line ↔ ∃ kind, kindOf kinds keyword line = some kind := by
  rw [Accepts, keywords, ← Option.isSome_iff_exists, ← Option.ne_none_iff_isSome, ne_eq,
    kindOf_eq_none]
  simp [worded]

/-- A pass with one keyword accepts the lines that begin with it. -/
theorem accepts_iff_keyword {keyword : String} {line : Text} {p : PassName} (worded : p ≠ link)
    (keywords : p.keywords = [keyword]) :
    p.Accepts line ↔ startsWithKeyword keyword.toList line = true := by
  simp [Accepts, keywords, worded]

end PassName

/-! ### The problems of each pass -/

/-- The problems of a pass with keywords are what its readers refuse. -/
theorem mem_problems_collectKinds_iff {α κ : Type} {kinds : List κ} {keyword : κ → String}
    {build : κ → Nat → Text → Except Cause α} {bare seen : List Text} {problem : Problem}
    {p : PassName} (worded : p ≠ .link) (keywords : p.keywords = kinds.map keyword)
    (sees : ∀ i line, p.Sees bare i line ↔ seen[i]? = some line)
    (verdict : ∀ number line kind, kindOf kinds keyword line = some kind →
      p.verdict number line = PassName.entity (build kind number line)) :
    problem ∈ (collect (kindOf kinds keyword) build (seen.zipIdx 1)).problems ↔
      p.Refuses bare problem := by
  simp only [mem_problems_collect_zipIdx, PassName.Refuses, sees,
    PassName.accepts_iff_kindOf worded keywords]
  constructor
  · rintro ⟨i, line, kind, number, atLine, recognised, refused⟩
    refine ⟨i, line, number, atLine, ⟨kind, recognised⟩, ?_⟩
    rwa [verdict _ _ _ recognised, PassName.entity_eq_error, number]
  · rintro ⟨i, line, number, atLine, ⟨kind, recognised⟩, refused⟩
    rw [verdict _ _ _ recognised, PassName.entity_eq_error, number] at refused
    exact ⟨i, line, kind, number, atLine, recognised, refused⟩

theorem mem_problems_collectLinks_iff {bare : List Text} {problem : Problem} :
    problem ∈ (collectLinks (bare.zipIdx 1)).problems ↔ PassName.link.Refuses bare problem := by
  have candidate : ∀ line,
      PassName.link.Accepts line ↔ isLinkCandidate line = true := by
    intro line
    simp [PassName.Accepts, PassName.keywords]
  have refused : ∀ line cause,
      (readLink line).map Option.isSome = .error cause ↔ readLink line = .error cause := by
    intro line cause
    cases readLink line <;> simp [Except.map]
  simp only [collectLinks, mem_problems_collect_zipIdx, PassName.Refuses, PassName.Sees, candidate,
    PassName.verdict, refused]
  constructor
  · rintro ⟨i, line, kind, number, atLine, recognised, herror⟩
    have link : isLinkCandidate line = true := by
      by_contra other
      rw [if_neg other] at recognised
      cases recognised
    exact ⟨i, line, number, atLine, link, herror⟩
  · rintro ⟨i, line, number, atLine, link, herror⟩
    exact ⟨i, line, (), number, atLine, if_pos link, herror⟩

/-! ### The problems of pipelines -/

/-- A problem of pipelines is one of a header that cannot be read, of a body that is never closed,
or of a component in a body. -/
theorem refused_of_readPipelines {bare : List Text} {problem : Problem}
    (mem : problem ∈ (readPipelines ((inBody bare).zip (bare.zipIdx 1))).problems) :
    PassName.pipeline.Refuses bare problem ∨ PassName.child.Refuses bare problem ∨
      UnclosedPipeline bare problem := by
  rw [readPipelines_eq, List.mem_flatMap] at mem
  obtain ⟨⟨⟨header, number⟩, below⟩, found, mem⟩ := mem
  obtain ⟨place, atPlace, hnumber, hbelow⟩ := mem_headersFrom found
  simp only at atPlace hnumber hbelow
  subst hnumber hbelow
  rcases mem_pipelineProblems atPlace mem with
    ⟨number, refused | ⟨⟨pipeline, read⟩, cause, body⟩⟩ |
    ⟨i, line, number, child, keyword, refused⟩
  · refine .inl ⟨place, header, number, ⟨atPlace.line, atPlace.visible⟩,
      .inr ⟨"pipeline", by decide, atPlace.keyword⟩, ?_⟩
    rwa [PassName.verdict, PassName.entity_eq_error, number]
  · refine .inr (.inr ⟨place, header, pipeline, ?_, atPlace, read, body⟩)
    rw [← number, ← cause]
  · refine .inr (.inl ⟨i, line, number, ⟨place, child⟩, .inr ⟨"component", by decide, keyword⟩, ?_⟩)
    rwa [PassName.verdict, PassName.entity_eq_error, number]

/-- What is wrong with a header outside of bodies is a problem of pipelines. -/
theorem mem_readPipelines_of_header {bare : List Text} {i : Nat} {header : Text}
    {problem : Problem} (atPlace : HeaderAt bare i header)
    (mem : problem ∈ pipelineProblems ((header, i + 1), bare.drop (i + 1))) :
    problem ∈ (readPipelines ((inBody bare).zip (bare.zipIdx 1))).problems := by
  rw [readPipelines_eq]
  exact List.mem_flatMap.2 ⟨_, mem_headersFrom_of_headerAt atPlace, mem⟩

/-- A component in a body that cannot be read is a problem of pipelines. -/
theorem mem_readPipelines_of_child {bare : List Text} {place i : Nat} {line : Text}
    {problem : Problem} (h : ChildOf bare place i line) (number : problem.line = i + 1)
    (keyword : startsWithKeyword "component".toList line = true)
    (refused : readPipelineChild (i + 1) line = .error problem.cause) :
    problem ∈ (readPipelines ((inBody bare).zip (bare.zipIdx 1))).problems := by
  obtain ⟨header, pipeline, skipped, inner, j, atPlace, read, body, atLine, rfl⟩ := h.body
  apply mem_readPipelines_of_header atPlace
  simp only [pipelineProblems, read, readChildren, body]
  refine mem_problems_collect.2
    ⟨(line, place + 1 + skipped + j + 1), ?_, (), kindOf_unit keyword, refused, number⟩
  refine List.mk_mem_zipIdx_iff_le_and_getElem?_sub.2 ⟨by omega, ?_⟩
  rw [← atLine]
  congr 1
  omega

/-- The problems of pipelines are the headers that cannot be read, the bodies that are never closed,
and the components in bodies that cannot be read. -/
theorem mem_problems_readPipelines_iff {bare : List Text} {problem : Problem} :
    problem ∈ (readPipelines ((inBody bare).zip (bare.zipIdx 1))).problems ↔
      PassName.pipeline.Refuses bare problem ∨ PassName.child.Refuses bare problem ∨
        UnclosedPipeline bare problem := by
  refine ⟨refused_of_readPipelines, ?_⟩
  rintro (⟨i, header, number, ⟨atLine, visible⟩, accepted, refused⟩ |
    ⟨i, line, number, ⟨place, child⟩, accepted, refused⟩ |
    ⟨i, header, pipeline, rfl, atPlace, read, body⟩)
  · have keyword := (PassName.accepts_iff_keyword (by decide) rfl).1 accepted
    rw [PassName.verdict, PassName.entity_eq_error, number] at refused
    apply mem_readPipelines_of_header ⟨atLine, visible, keyword⟩
    simp only [pipelineProblems, refused, List.mem_singleton]
    rw [← number]
  · have keyword := (PassName.accepts_iff_keyword (by decide) rfl).1 accepted
    rw [PassName.verdict, PassName.entity_eq_error, number] at refused
    exact mem_readPipelines_of_child child number keyword refused
  · apply mem_readPipelines_of_header atPlace
    simp only [pipelineProblems, read, readChildren, body, List.mem_singleton]

/-! ### The problems of the whole source -/

/-- What a pass finds wrong is what it refuses; the pass over headers reports also for the
components in their bodies, and the bodies that are never closed. -/
theorem mem_problemsOf_iff {bare : List Text} {problem : Problem} {p : PassName}
    (gathers : p ≠ .child) :
    problem ∈ (Findings.ofLines bare).problemsOf p ↔
      p.Refuses bare problem ∨
        p = .pipeline ∧ (PassName.child.Refuses bare problem ∨ UnclosedPipeline bare problem) := by
  cases p with
  | child => exact absurd rfl gathers
  | pipeline =>
      simp only [true_and]
      exact mem_problems_readPipelines_iff
  | link =>
      simp only [reduceCtorEq, false_and, or_false]
      exact mem_problems_collectLinks_iff
  | title | stages | style | legend | size | note | numberedNote | element | evolve | anchor
  | submap | address =>
      simp only [reduceCtorEq, false_and, or_false]
      exact mem_problems_collectKinds_iff (by decide) rfl (fun _ _ => Iff.rfl) fun _ _ _ _ => rfl
  | attitude | accelerator | method =>
      simp only [reduceCtorEq, false_and, or_false]
      exact mem_problems_collectKinds_iff (by decide) rfl (fun _ _ => Iff.rfl)
        fun _ _ _ recognised => PassName.entityOfKind_eq recognised

/-- The problems of a document are all those of its source. -/
theorem mem_problems_document_iff {bare : List Text} {annotations : List NumberedNote}
    {problem : Problem} :
    problem ∈ ((Findings.ofLines bare).document annotations).problems ↔
      (∃ p : PassName, p.Refuses bare problem) ∨ UnclosedPipeline bare problem := by
  have gathered : problem ∈ ((Findings.ofLines bare).document annotations).problems ↔
      ∃ p ∈ problemOrder, problem ∈ (Findings.ofLines bare).problemsOf p := by
    rw [← List.mem_flatMap, ← Findings.problems_eq]
    exact List.mem_mergeSort
  have listed : ∀ p : PassName, p ≠ .child → p ∈ problemOrder := by
    intro p
    cases p <;> decide
  have pipeline : PassName.child.Refuses bare problem ∨ UnclosedPipeline bare problem →
      problem ∈ (Findings.ofLines bare).problemsOf .pipeline :=
    fun below => (mem_problemsOf_iff (by decide)).2 (.inr ⟨rfl, below⟩)
  rw [gathered]
  constructor
  · rintro ⟨p, ordered, mem⟩
    have gathers : p ≠ .child := by
      rintro rfl
      exact absurd ordered (by decide)
    rcases (mem_problemsOf_iff gathers).1 mem with refused | ⟨-, refused | unclosed⟩
    · exact .inl ⟨p, refused⟩
    · exact .inl ⟨.child, refused⟩
    · exact .inr unclosed
  · rintro (⟨p, refused⟩ | unclosed)
    · by_cases inside : p = .child
      · subst inside
        exact ⟨.pipeline, by decide, pipeline (.inl refused)⟩
      · exact ⟨p, listed p inside, (mem_problemsOf_iff inside).2 (.inl refused)⟩
    · exact ⟨.pipeline, by decide, pipeline (.inr unclosed)⟩

/-! ### Which sources are read -/

/-- A source is read unless a line of it has a number that is too long. -/
theorem exists_read_iff (source : Text) :
    (∃ doc, Document.read source = .ok doc) ↔
      ∀ line ∈ bareLines source, numberTooLong line = false := by
  constructor
  · rintro ⟨doc, read⟩ line mem
    by_contra long
    obtain ⟨i, atLine⟩ := List.mem_iff_getElem?.1 mem
    obtain ⟨e, failed⟩ := Document.read_of_long atLine (Bool.not_eq_false _ ▸ long)
    rw [read] at failed
    cases failed
  · intro short
    obtain ⟨annotations, settled⟩ : ∃ annotations,
        (Findings.ofLines (bareLines source)).drafts.items.mapM AnnotationDraft.settle =
          .ok annotations := by
      refine exists_mapM_eq_ok_iff.2 fun draft mem => ?_
      obtain ⟨i, line, atLine, keyword, drafted⟩ := exists_line_of_keyword mem
      have fits := short line (List.mem_of_getElem? atLine)
      rw [numberTooLong_eq (i + 1), keyword, drafted, Bool.true_and, decide_eq_false_iff_not,
        Nat.not_lt] at fits
      exact AnnotationDraft.exists_settle_iff.2 fits
    exact ⟨_, Document.read_eq_ok.2 ⟨annotations, settled, rfl⟩⟩

/-- A source becomes a document unless it has an annotation whose number is too long; and of every
document that is read, the problems are all statements of the source that some pass refuses, each
with its line and cause, and all bodies that are never closed. -/
theorem read_and_reported_iff (source : Text) :
    ((∃ doc, Document.read source = .ok doc) ↔
      ∀ line ∈ bareLines source, numberTooLong line = false) ∧
    ∀ doc, Document.read source = .ok doc → ∀ problem, problem ∈ doc.problems ↔
      (∃ p : PassName, p.Refuses (bareLines source) problem) ∨
        UnclosedPipeline (bareLines source) problem := by
  refine ⟨exists_read_iff source, fun doc read problem => ?_⟩
  obtain ⟨annotations, -, rfl⟩ := Document.read_eq_ok.1 read
  exact mem_problems_document_iff

/-- A component with half of its coordinates is reported, and the anchor below it is read. -/
theorem read_and_reported_halfCup :
    let source := "component Cup [0.5]\nanchor Tea [0.9, 0.5]".toList
    let doc : Document :=
      { anchors := [{ line := 2, name := "Tea".toList,
                      position := { visibility := 0.9, maturity := 0.5 } }]
        problems := [{ line := 1, cause := .wrongCount 2 "component coordinates" "0.5".toList }] }
    Document.read source = .ok doc ∧ ∀ problem, problem ∈ doc.problems ↔
      (∃ p : PassName, p.Refuses (bareLines source) problem) ∨
        UnclosedPipeline (bareLines source) problem := by
  intro source doc
  have read : Document.read source = .ok doc := by decide +kernel
  exact ⟨read, (read_and_reported_iff source).2 doc read⟩

end WardleyMaps
