/-
Module: WardleyMaps.Proofs.Document.Verdict
Purpose: Each line of a document is claimed by one pass at most, which reads it or reports it.
Main exports: PassName, PassName.Recognises, PassName.EntityOn, Document.OneVerdict,
  oneVerdict_of_read
-/
import WardleyMaps.Proofs.Document.Header
import WardleyMaps.Proofs.Statement.Evolve

namespace WardleyMaps

open Text

/-!
The passes over a document know nothing of each other, yet no two of them recognise the same line.
Two keywords do not begin one line, and no keyword begins a link. The keyword `component` belongs to
two passes; but elements are looked for outside of bodies and components of pipelines inside
(`recognises_unique`). Therefore a line has one verdict: an entity, or a problem, or neither. Only a
header whose body is never closed has both, for it is read and its body is reported.
-/

/-! ### The passes -/

/-- The passes over the lines of a document; headers and components of pipelines count apart. -/
inductive PassName where
  | title | stages | style | legend | size | note | numberedNote | element | pipeline | child
  | evolve | anchor | link | submap | address | attitude | accelerator | method
deriving DecidableEq, Repr

/-- The line with a number is the header of a pipeline whose body is never closed. -/
def UnclosedHeader (bare : List Text) (number : Nat) : Prop :=
  ∃ header, bare[number - 1]? = some header ∧
    startsWithKeyword "pipeline".toList header = true ∧
    pipelineBody header (bare.drop number) = .unclosed

namespace PassName

/-- The keywords of the statements that a pass gathers; links have none. -/
def keywords : PassName → List String
  | title => ["title"]
  | stages => ["evolution"]
  | style => ["style"]
  | legend => ["annotations"]
  | size => ["size"]
  | note => ["note"]
  | numberedNote => ["annotation"]
  | element => ["component"]
  | pipeline => ["pipeline"]
  | child => ["component"]
  | evolve => ["evolve"]
  | anchor => ["anchor"]
  | link => []
  | submap => ["submap"]
  | address => ["url"]
  | attitude => attitudeKinds.map AttitudeKind.keyword
  | accelerator => acceleratorKinds.map acceleratorKeyword
  | method => methodKinds.map MethodKind.keyword

/-- The pass looks at a line; its place is counted from zero. -/
def Sees (bare : List Text) (i : Nat) (line : Text) : PassName → Prop
  | element => (maskBodies bare)[i]? = some line
  | pipeline => bare[i]? = some line ∧ (inBody bare)[i]? = some false
  | child => ∃ place, ChildOf bare place i line
  | _ => bare[i]? = some line

/-- The pass takes a line that it looks at for one of its statements. -/
def Accepts (line : Text) (p : PassName) : Prop :=
  (p = link ∧ isLinkCandidate line = true) ∨
    ∃ keyword ∈ p.keywords, startsWithKeyword keyword.toList line = true

/-- The verdict of a reader that makes one entity of a line. -/
def entity {α : Type} (read : Except Cause α) : Except Cause Bool :=
  read.map fun _ => true

/-- The verdict of the reader of the kind that a line is. -/
def entityOfKind {α κ : Type} (kinds : List κ) (keyword : κ → String)
    (read : κ → Nat → Text → Except Cause α) (number : Nat) (line : Text) : Except Cause Bool :=
  match kindOf kinds keyword line with
  | none => .ok false
  | some kind => entity (read kind number line)

/-- What the pass makes of a line that it accepts: an entity, nothing, or a problem. -/
def verdict (number : Nat) (line : Text) : PassName → Except Cause Bool
  | title => entity (readTitle line)
  | stages => entity (readStages line)
  | style => entity (readStyle line)
  | legend => entity (readLegend line)
  | size => entity (readSize line)
  | note => entity (readNote number line)
  | numberedNote => entity (readNumberedNote number line)
  | element => entity (readComponent false number line)
  | pipeline => entity (readPipelineHeader number line)
  | child => entity (readPipelineChild number line)
  | evolve => entity (readEvolution number line)
  | anchor => entity (readAnchor number line)
  | link => (readLink line).map Option.isSome
  | submap => entity (readComponent true number line)
  | address => entity (readAddress number line)
  | attitude => entityOfKind attitudeKinds AttitudeKind.keyword readAttitude number line
  | accelerator => entityOfKind acceleratorKinds acceleratorKeyword readAccelerator number line
  | method => entityOfKind methodKinds MethodKind.keyword readMethod number line

/-- The pass recognises the line with a number. -/
def Recognises (bare : List Text) (number : Nat) (p : PassName) : Prop :=
  ∃ i line, number = i + 1 ∧ p.Sees bare i line ∧ p.Accepts line

/-- The pass reads an entity from the line with a number. -/
def EntityOn (bare : List Text) (number : Nat) (p : PassName) : Prop :=
  ∃ i line, number = i + 1 ∧ p.Sees bare i line ∧ p.Accepts line ∧ p.verdict number line = .ok true

/-- The pass has a problem with its line: it cannot read the line, or the body is never closed. -/
def FaultOn (bare : List Text) (problem : Problem) (p : PassName) : Prop :=
  ∃ i line, problem.line = i + 1 ∧ p.Sees bare i line ∧ p.Accepts line ∧
    (p.verdict problem.line line = .error problem.cause ∨
      p = pipeline ∧ problem.cause = .unclosedBody ∧
        pipelineBody line (bare.drop problem.line) = .unclosed)

/-! ### No two passes recognise one line -/

theorem token_of_mem_keywords {p : PassName} {keyword : String} (h : keyword ∈ p.keywords) :
    Token keyword.toList ∧ keyword.toList ∈ reservedWords := by
  revert keyword
  cases p <;> decide

/-- A keyword belongs to one pass, but for that of elements and components of pipelines. -/
theorem eq_of_common_keyword {p q : PassName} {keyword : String} (hp : keyword ∈ p.keywords)
    (hq : keyword ∈ q.keywords) :
    p = q ∨ (p = element ∧ q = child) ∨ (p = child ∧ q = element) := by
  revert keyword
  cases p <;> cases q <;> decide

theorem Accepts.ne_nil {p : PassName} {line : Text} (h : p.Accepts line) : line ≠ [] := by
  rintro rfl
  rcases h with ⟨-, hlink⟩ | ⟨keyword, hkeyword, hstarts⟩
  · exact absurd hlink (by decide)
  · exact trim_ne_nil_of_startsWithKeyword (token_of_mem_keywords hkeyword).1 hstarts trim_nil

theorem eq_of_accepts {p q : PassName} {line : Text} (hp : p.Accepts line) (hq : q.Accepts line) :
    p = q ∨ (p = element ∧ q = child) ∨ (p = child ∧ q = element) := by
  rcases hp with ⟨rfl, hlink⟩ | ⟨keyword, hkeyword, hstarts⟩
  · rcases hq with ⟨rfl, -⟩ | ⟨other, hother, hstarts⟩
    · exact .inl rfl
    · obtain ⟨htoken, hreserved⟩ := token_of_mem_keywords hother
      rw [isLinkCandidate_of_reserved htoken hreserved hstarts] at hlink
      exact absurd hlink Bool.false_ne_true
  · obtain ⟨htoken, hreserved⟩ := token_of_mem_keywords hkeyword
    rcases hq with ⟨rfl, hlink⟩ | ⟨other, hother, hstartsOther⟩
    · rw [isLinkCandidate_of_reserved htoken hreserved hstarts] at hlink
      exact absurd hlink Bool.false_ne_true
    · have hsame := keyword_unique htoken (token_of_mem_keywords hother).1 hstarts hstartsOther
      obtain rfl := String.toList_inj.1 hsame
      exact eq_of_common_keyword hkeyword hother

/-- What a pass looks at and accepts is the line of the document at this place. -/
theorem Sees.bare {bare : List Text} {i : Nat} {line : Text} {p : PassName}
    (h : p.Sees bare i line) (hne : line ≠ []) : bare[i]? = some line := by
  cases p with
  | element => exact (maskBodies_getElem? h hne).1
  | pipeline => exact h.1
  | child =>
      obtain ⟨place, hchild⟩ := h
      exact hchild.bodyLine.hidden.1
  | title | stages | style | legend | size | note | numberedNote | evolve | anchor | link | submap
  | address | attitude | accelerator | method => exact h

/-- Elements stand outside of bodies, components of pipelines inside. -/
theorem not_sees_element_and_child {bare : List Text} {i : Nat} {line other : Text}
    (h : element.Sees bare i line) (hne : line ≠ []) (hother : child.Sees bare i other) :
    False := by
  obtain ⟨place, hchild⟩ := hother
  have hvisible := (maskBodies_getElem? h hne).2
  rw [hchild.bodyLine.hidden.2] at hvisible
  exact absurd hvisible (by decide)

/-- No line is recognised by two passes. -/
theorem recognises_unique {bare : List Text} {number : Nat} {p q : PassName}
    (hp : p.Recognises bare number) (hq : q.Recognises bare number) : p = q := by
  obtain ⟨i, line, rfl, hsees, haccepts⟩ := hp
  obtain ⟨j, other, hj, hseesOther, hacceptsOther⟩ := hq
  obtain rfl : i = j := by omega
  have hline := hsees.bare haccepts.ne_nil
  rw [hseesOther.bare hacceptsOther.ne_nil, Option.some.injEq] at hline
  subst hline
  rcases eq_of_accepts haccepts hacceptsOther with h | ⟨rfl, rfl⟩ | ⟨rfl, rfl⟩
  · exact h
  · exact (not_sees_element_and_child hsees haccepts.ne_nil hseesOther).elim
  · exact (not_sees_element_and_child hseesOther haccepts.ne_nil hsees).elim

theorem FaultOn.recognises {bare : List Text} {problem : Problem} {p : PassName}
    (h : p.FaultOn bare problem) : p.Recognises bare problem.line := by
  obtain ⟨i, line, hnumber, hsees, haccepts, -⟩ := h
  exact ⟨i, line, hnumber, hsees, haccepts⟩

theorem EntityOn.recognises {bare : List Text} {number : Nat} {p : PassName}
    (h : p.EntityOn bare number) : p.Recognises bare number := by
  obtain ⟨i, line, hnumber, hsees, haccepts, -⟩ := h
  exact ⟨i, line, hnumber, hsees, haccepts⟩

/-- A line with a problem and an entity is a header whose body is never closed. -/
theorem FaultOn.unclosed_of_entityOn {bare : List Text} {problem : Problem} {p q : PassName}
    (hfault : p.FaultOn bare problem) (hentity : q.EntityOn bare problem.line) :
    q = pipeline ∧ problem.cause = .unclosedBody ∧ UnclosedHeader bare problem.line := by
  obtain rfl := recognises_unique hfault.recognises hentity.recognises
  obtain ⟨i, line, hnumber, hsees, haccepts, hverdict⟩ := hfault
  obtain ⟨j, other, hnumber', hsees', haccepts', hentity⟩ := hentity
  obtain rfl : i = j := by omega
  have hline := hsees.bare haccepts.ne_nil
  rw [hsees'.bare haccepts'.ne_nil, Option.some.injEq] at hline
  subst hline
  rcases hverdict with herror | ⟨rfl, hcause, hbody⟩
  · rw [herror] at hentity
    cases hentity
  · refine ⟨rfl, hcause, other, ?_, ?_, hbody⟩
    · rw [hnumber, Nat.add_sub_cancel]
      exact hsees.1
    · rcases haccepts with ⟨hlink, -⟩ | ⟨keyword, hkeyword, hstarts⟩
      · cases hlink
      · rwa [List.mem_singleton.1 hkeyword] at hstarts

end PassName

/-! ### The entities of each pass -/

section

variable {α κ : Type} {bare : List Text} {p : PassName} {item : α} {numberOf : α → Nat}

/-- An entity of a pass of one keyword. -/
theorem entityOn_of_collectKeyword {keyword : String} {build : Nat → Text → Except Cause α}
    {seen : List Text} (h : item ∈ (collectKeyword keyword build (seen.zipIdx 1)).items)
    (hkeyword : keyword ∈ p.keywords) (hsees : ∀ i line, seen[i]? = some line → p.Sees bare i line)
    (hverdict : ∀ number line, p.verdict number line = PassName.entity (build number line))
    (hnumber : ∀ number line item, build number line = .ok item → numberOf item = number) :
    p.EntityOn bare (numberOf item) := by
  obtain ⟨i, line, hline, hstarts, hbuild⟩ := exists_line_of_keyword h
  have hitem := hnumber _ _ _ hbuild
  refine ⟨i, line, hitem, hsees i line hline, .inr ⟨keyword, hkeyword, hstarts⟩, ?_⟩
  rw [hverdict, hitem, hbuild]
  rfl

/-- An entity of a pass of several keywords. -/
theorem entityOn_of_collectKinds {kinds : List κ} {keyword : κ → String}
    {build : κ → Nat → Text → Except Cause α}
    (h : item ∈ (collect (kindOf kinds keyword) build (bare.zipIdx 1)).items)
    (hkeywords : p.keywords = kinds.map keyword)
    (hsees : ∀ i line, bare[i]? = some line → p.Sees bare i line)
    (hverdict : ∀ number line,
      p.verdict number line = PassName.entityOfKind kinds keyword build number line)
    (hnumber : ∀ kind number line item,
      build kind number line = .ok item → numberOf item = number) :
    p.EntityOn bare (numberOf item) := by
  obtain ⟨i, line, kind, hline, haccept, hbuild⟩ := exists_line_of_item h
  obtain ⟨hkind, hstarts⟩ := kindOf_eq_some haccept
  have hitem := hnumber _ _ _ _ hbuild
  refine ⟨i, line, hitem, hsees i line hline,
    .inr ⟨keyword kind, hkeywords ▸ List.mem_map_of_mem hkind, hstarts⟩, ?_⟩
  rw [hverdict, PassName.entityOfKind, haccept, hitem]
  simp only [hbuild]
  rfl

end

theorem line_of_readNote {number : Nat} {line : Text} {note : Note}
    (h : readNote number line = .ok note) : note.line = number := by
  obtain ⟨placed, -, h⟩ := bind_eq_ok.1 h
  obtain ⟨text, -, h⟩ := bind_eq_ok.1 h
  rw [← Except.ok.inj h]

theorem line_of_readAccelerator {slowing : Bool} {number : Nat} {line : Text} {a : Accelerator}
    (h : readAccelerator slowing number line = .ok a) : a.line = number := by
  obtain ⟨placed, -, h⟩ := bind_eq_ok.1 h
  obtain ⟨name, -, h⟩ := bind_eq_ok.1 h
  rw [← Except.ok.inj h]

theorem line_of_readAddress {number : Nat} {line : Text} {a : Address}
    (h : readAddress number line = .ok a) : a.line = number := by
  obtain ⟨b, -, h⟩ := bind_eq_ok.1 h
  obtain ⟨name, -, h⟩ := bind_eq_ok.1 h
  simp only at h
  split at h
  · cases h
  · rw [← Except.ok.inj h]

theorem line_of_readAttitude {kind : AttitudeKind} {number : Nat} {line : Text} {a : Attitude}
    (h : readAttitude kind number line = .ok a) : a.line = number := by
  obtain ⟨b, -, h⟩ := bind_eq_ok.1 h
  obtain ⟨numbers, -, h⟩ := bind_eq_ok.1 h
  split at h
  · rw [← Except.ok.inj h]
  · cases h

theorem line_of_readMethod {kind : MethodKind} {number : Nat} {line : Text} {m : Method}
    (h : readMethod kind number line = .ok m) : m.line = number := by
  obtain ⟨name, -, h⟩ := bind_eq_ok.1 h
  rw [← Except.ok.inj h]

theorem line_of_readNumberedNote {number : Nat} {line : Text} {d : AnnotationDraft}
    (h : readNumberedNote number line = .ok d) : d.line = number := by
  unfold readNumberedNote at h
  split at h
  · cases h
  · obtain ⟨places, -, h⟩ := bind_eq_ok.1 h
    rw [← Except.ok.inj h]

/-- The number of an annotation is converted, its line stays. -/
theorem line_of_settle {d : AnnotationDraft} {note : NumberedNote} (h : d.settle = .ok note) :
    note.line = d.line := by
  unfold AnnotationDraft.settle at h
  split at h
  · cases h
  · rw [← Except.ok.inj h]

/-- The numbers of the lines of a document's entities, by the pass that gathers them; those of the
other passes have none. -/
def Document.entityLines (doc : Document) : PassName → List Nat
  | .note => doc.notes.map (·.line)
  | .numberedNote => doc.annotations.map (·.line)
  | .element => doc.elements.map (·.line)
  | .pipeline => doc.pipelines.map (·.line)
  | .child => doc.pipelines.flatMap fun pipeline => pipeline.children.map (·.line)
  | .evolve => doc.evolved.map (·.line)
  | .anchor => doc.anchors.map (·.line)
  | .submap => doc.submaps.map (·.line)
  | .address => doc.addresses.map (·.line)
  | .attitude => doc.attitudes.map (·.line)
  | .accelerator => doc.accelerators.map (·.line)
  | .method => doc.methods.map (·.line)
  | .title | .stages | .style | .legend | .size | .link => []

/-- Every entity of a document is one of the line with its number. -/
theorem entityOn_of_mem_entityLines {bare : List Text} {annotations : List NumberedNote}
    {p : PassName} {number : Nat}
    (hsettle : (Findings.ofLines bare).drafts.items.mapM AnnotationDraft.settle = .ok annotations)
    (h : number ∈ ((Findings.ofLines bare).document annotations).entityLines p) :
    p.EntityOn bare number := by
  cases p with
  | title | stages | style | legend | size | link => cases h
  | note =>
      obtain ⟨item, hitem, rfl⟩ := List.mem_map.1 h
      exact entityOn_of_collectKeyword hitem (by decide) (fun _ _ h => h) (fun _ _ => rfl)
        fun _ _ _ => line_of_readNote
  | numberedNote =>
      obtain ⟨note, hnote, rfl⟩ := List.mem_map.1 h
      obtain ⟨draft, hdraft, hdraftSettle⟩ := exists_mem_of_mapM_eq_ok hsettle note hnote
      rw [line_of_settle hdraftSettle]
      exact entityOn_of_collectKeyword hdraft (by decide) (fun _ _ h => h) (fun _ _ => rfl)
        fun _ _ _ => line_of_readNumberedNote
  | element =>
      obtain ⟨item, hitem, rfl⟩ := List.mem_map.1 h
      exact entityOn_of_collectKeyword hitem (by decide) (fun _ _ h => h) (fun _ _ => rfl)
        fun _ _ _ => line_of_readComponent
  | pipeline =>
      obtain ⟨pipeline, hpipeline, rfl⟩ := List.mem_map.1 h
      obtain ⟨place, header, hheader, hline, ⟨p, hread⟩, -⟩ := mem_items_readPipelines hpipeline
      refine ⟨place, header, hline, ⟨hheader.line, hheader.visible⟩,
        .inr ⟨"pipeline", by decide, hheader.keyword⟩, ?_⟩
      rw [PassName.verdict, hline, hread]
      rfl
  | child =>
      obtain ⟨pipeline, hpipeline, hchildren⟩ := List.mem_flatMap.1 h
      obtain ⟨child, hchild, rfl⟩ := List.mem_map.1 hchildren
      obtain ⟨place, header, -, -, -, hall⟩ := mem_items_readPipelines hpipeline
      obtain ⟨i, line, hline, hchildOf, hkeyword, hread⟩ := hall child hchild
      refine ⟨i, line, hline, ⟨place, hchildOf⟩, .inr ⟨"component", by decide, hkeyword⟩, ?_⟩
      rw [PassName.verdict, hline, hread]
      rfl
  | evolve =>
      obtain ⟨item, hitem, rfl⟩ := List.mem_map.1 h
      exact entityOn_of_collectKeyword hitem (by decide) (fun _ _ h => h) (fun _ _ => rfl)
        fun _ _ _ => line_of_readEvolution
  | anchor =>
      obtain ⟨item, hitem, rfl⟩ := List.mem_map.1 h
      exact entityOn_of_collectKeyword hitem (by decide) (fun _ _ h => h) (fun _ _ => rfl)
        fun _ _ _ => line_of_readAnchor
  | submap =>
      obtain ⟨item, hitem, rfl⟩ := List.mem_map.1 h
      exact entityOn_of_collectKeyword hitem (by decide) (fun _ _ h => h) (fun _ _ => rfl)
        fun _ _ _ => line_of_readComponent
  | address =>
      obtain ⟨item, hitem, rfl⟩ := List.mem_map.1 h
      exact entityOn_of_collectKeyword hitem (by decide) (fun _ _ h => h) (fun _ _ => rfl)
        fun _ _ _ => line_of_readAddress
  | attitude =>
      obtain ⟨item, hitem, rfl⟩ := List.mem_map.1 h
      exact entityOn_of_collectKinds hitem rfl (fun _ _ h => h) (fun _ _ => rfl)
        fun _ _ _ _ => line_of_readAttitude
  | accelerator =>
      obtain ⟨item, hitem, rfl⟩ := List.mem_map.1 h
      exact entityOn_of_collectKinds hitem rfl (fun _ _ h => h) (fun _ _ => rfl)
        fun _ _ _ _ => line_of_readAccelerator
  | method =>
      obtain ⟨item, hitem, rfl⟩ := List.mem_map.1 h
      exact entityOn_of_collectKinds hitem rfl (fun _ _ h => h) (fun _ _ => rfl)
        fun _ _ _ _ => line_of_readMethod

/-! ### The problems of each pass -/

/-- The passes in the order in which their problems are gathered; the problems of components of
pipelines are gathered with those of their headers. -/
def problemOrder : List PassName :=
  [.title, .stages, .style, .legend, .size, .note, .numberedNote, .element, .pipeline, .evolve,
    .anchor, .link, .submap, .address, .attitude, .accelerator, .method]

/-- The problems that one pass found. -/
def Findings.problemsOf (f : Findings) : PassName → List Problem
  | .title => f.titles.problems
  | .stages => f.stages.problems
  | .style => f.styles.problems
  | .legend => f.legends.problems
  | .size => f.sizes.problems
  | .note => f.notes.problems
  | .numberedNote => f.drafts.problems
  | .element => f.elements.problems
  | .pipeline => f.pipelines.problems
  | .child => []
  | .evolve => f.evolved.problems
  | .anchor => f.anchors.problems
  | .link => f.links.problems
  | .submap => f.submaps.problems
  | .address => f.addresses.problems
  | .attitude => f.attitudes.problems
  | .accelerator => f.accelerators.problems
  | .method => f.methods.problems

theorem Findings.problems_eq (f : Findings) :
    f.problems.flatten = problemOrder.flatMap f.problemsOf :=
  rfl

/-- The pass with whose problems those of a pass are gathered. -/
def PassName.gatheredBy : PassName → PassName
  | .child => .pipeline
  | p => p

/-- A problem of a pass of one keyword. -/
theorem faultOn_of_collectKeyword {α : Type} {keyword : String}
    {build : Nat → Text → Except Cause α} {bare seen : List Text} {problem : Problem} {p : PassName}
    (h : problem ∈ (collectKeyword keyword build (seen.zipIdx 1)).problems)
    (hkeyword : keyword ∈ p.keywords) (hsees : ∀ i line, seen[i]? = some line → p.Sees bare i line)
    (hverdict : ∀ number line, p.verdict number line = PassName.entity (build number line)) :
    p.FaultOn bare problem := by
  obtain ⟨i, line, kind, hnumber, hline, haccept, hbuild⟩ := exists_line_of_problem h
  refine ⟨i, line, hnumber, hsees i line hline,
    .inr ⟨keyword, hkeyword, (kindOf_eq_some haccept).2⟩, .inl ?_⟩
  rw [hverdict, hnumber, hbuild]
  rfl

/-- A problem of a pass of several keywords. -/
theorem faultOn_of_collectKinds {α κ : Type} {kinds : List κ} {keyword : κ → String}
    {build : κ → Nat → Text → Except Cause α} {bare : List Text} {problem : Problem} {p : PassName}
    (h : problem ∈ (collect (kindOf kinds keyword) build (bare.zipIdx 1)).problems)
    (hkeywords : p.keywords = kinds.map keyword)
    (hsees : ∀ i line, bare[i]? = some line → p.Sees bare i line)
    (hverdict : ∀ number line,
      p.verdict number line = PassName.entityOfKind kinds keyword build number line) :
    p.FaultOn bare problem := by
  obtain ⟨i, line, kind, hnumber, hline, haccept, hbuild⟩ := exists_line_of_problem h
  obtain ⟨hkind, hstarts⟩ := kindOf_eq_some haccept
  refine ⟨i, line, hnumber, hsees i line hline,
    .inr ⟨keyword kind, hkeywords ▸ List.mem_map_of_mem hkind, hstarts⟩, .inl ?_⟩
  rw [hverdict, PassName.entityOfKind, haccept, hnumber]
  simp only [hbuild]
  rfl

/-- A problem of the links. -/
theorem faultOn_of_collectLinks {bare : List Text} {problem : Problem}
    (h : problem ∈ (collectLinks (bare.zipIdx 1)).problems) :
    PassName.link.FaultOn bare problem := by
  unfold collectLinks at h
  obtain ⟨i, line, kind, hnumber, hline, haccept, hbuild⟩ := exists_line_of_problem h
  have hlink : isLinkCandidate line = true := by
    by_contra hnot
    rw [if_neg hnot] at haccept
    cases haccept
  refine ⟨i, line, hnumber, hline, .inl ⟨rfl, hlink⟩, .inl ?_⟩
  rw [PassName.verdict, hbuild]
  rfl

/-- A problem of the pipelines: one of a header, or one of a component in a body. -/
theorem faultOn_of_readPipelines {bare : List Text} {problem : Problem}
    (h : problem ∈ (readPipelines ((inBody bare).zip (bare.zipIdx 1))).problems) :
    PassName.pipeline.FaultOn bare problem ∨ PassName.child.FaultOn bare problem := by
  rw [readPipelines_eq, List.mem_flatMap] at h
  obtain ⟨⟨⟨header, number⟩, below⟩, hheaders, hproblem⟩ := h
  obtain ⟨place, hheader, hnumber, hbelow⟩ := mem_headersFrom hheaders
  simp only at hheader hnumber hbelow
  subst hnumber hbelow
  rcases mem_pipelineProblems hheader hproblem with
    ⟨hline, herror | ⟨hread, hcause, hbody⟩⟩ | ⟨i, line, hline, hchild, hkeyword, herror⟩
  · refine .inl ⟨place, header, hline, ⟨hheader.line, hheader.visible⟩,
      .inr ⟨"pipeline", by decide, hheader.keyword⟩, .inl ?_⟩
    rw [hline, PassName.verdict, herror]
    rfl
  · refine .inl ⟨place, header, hline, ⟨hheader.line, hheader.visible⟩,
      .inr ⟨"pipeline", by decide, hheader.keyword⟩, .inr ⟨rfl, hcause, ?_⟩⟩
    rw [hline, hbody]
  · refine .inr ⟨i, line, hline, ⟨place, hchild⟩, .inr ⟨"component", by decide, hkeyword⟩, .inl ?_⟩
    rw [hline, PassName.verdict, herror]
    rfl

/-- Every problem of the findings is one of a line that its pass recognises. -/
theorem faultOn_of_problemsOf {bare : List Text} {problem : Problem} {p : PassName}
    (h : problem ∈ (Findings.ofLines bare).problemsOf p) :
    ∃ q : PassName, q.gatheredBy = p ∧ q.FaultOn bare problem := by
  cases p with
  | title =>
      exact ⟨.title, rfl, faultOn_of_collectKeyword h (by decide) (fun _ _ h => h) fun _ _ => rfl⟩
  | stages =>
      exact ⟨.stages, rfl, faultOn_of_collectKeyword h (by decide) (fun _ _ h => h) fun _ _ => rfl⟩
  | style =>
      exact ⟨.style, rfl, faultOn_of_collectKeyword h (by decide) (fun _ _ h => h) fun _ _ => rfl⟩
  | legend =>
      exact ⟨.legend, rfl, faultOn_of_collectKeyword h (by decide) (fun _ _ h => h) fun _ _ => rfl⟩
  | size =>
      exact ⟨.size, rfl, faultOn_of_collectKeyword h (by decide) (fun _ _ h => h) fun _ _ => rfl⟩
  | note =>
      exact ⟨.note, rfl, faultOn_of_collectKeyword h (by decide) (fun _ _ h => h) fun _ _ => rfl⟩
  | numberedNote =>
      exact ⟨.numberedNote, rfl,
        faultOn_of_collectKeyword h (by decide) (fun _ _ h => h) fun _ _ => rfl⟩
  | element =>
      exact ⟨.element, rfl, faultOn_of_collectKeyword h (by decide) (fun _ _ h => h) fun _ _ => rfl⟩
  | pipeline =>
      rcases faultOn_of_readPipelines h with hfault | hfault
      · exact ⟨.pipeline, rfl, hfault⟩
      · exact ⟨.child, rfl, hfault⟩
  | child => cases h
  | evolve =>
      exact ⟨.evolve, rfl, faultOn_of_collectKeyword h (by decide) (fun _ _ h => h) fun _ _ => rfl⟩
  | anchor =>
      exact ⟨.anchor, rfl, faultOn_of_collectKeyword h (by decide) (fun _ _ h => h) fun _ _ => rfl⟩
  | link => exact ⟨.link, rfl, faultOn_of_collectLinks h⟩
  | submap =>
      exact ⟨.submap, rfl, faultOn_of_collectKeyword h (by decide) (fun _ _ h => h) fun _ _ => rfl⟩
  | address =>
      exact ⟨.address, rfl, faultOn_of_collectKeyword h (by decide) (fun _ _ h => h) fun _ _ => rfl⟩
  | attitude =>
      exact ⟨.attitude, rfl, faultOn_of_collectKinds h rfl (fun _ _ h => h) fun _ _ => rfl⟩
  | accelerator =>
      exact ⟨.accelerator, rfl, faultOn_of_collectKinds h rfl (fun _ _ h => h) fun _ _ => rfl⟩
  | method => exact ⟨.method, rfl, faultOn_of_collectKinds h rfl (fun _ _ h => h) fun _ _ => rfl⟩

theorem nodup_lines_collectLinks (bare : List Text) :
    ((collectLinks (bare.zipIdx 1)).problems.map (·.line)).Nodup := by
  unfold collectLinks
  exact nodup_lines_collect bare

theorem nodup_lines_problemsOf (bare : List Text) (p : PassName) :
    (((Findings.ofLines bare).problemsOf p).map (·.line)).Nodup := by
  cases p with
  | pipeline => exact nodup_lines_readPipelines bare
  | element => exact nodup_lines_collect (maskBodies bare)
  | child => exact List.nodup_nil
  | link => exact nodup_lines_collectLinks bare
  | title | stages | style | legend | size | note | numberedNote | evolve | anchor | submap
  | address | attitude | accelerator | method => exact nodup_lines_collect bare

/-- No two problems come from one line. -/
theorem nodup_lines_problems (bare : List Text) :
    ((Findings.ofLines bare).problems.flatten.map (·.line)).Nodup := by
  rw [Findings.problems_eq, List.map_flatMap, List.nodup_flatMap]
  refine ⟨fun p _ => nodup_lines_problemsOf bare p, ?_⟩
  have hdistinct : problemOrder.Pairwise (· ≠ ·) := by decide
  refine hdistinct.imp ?_
  intro p q hne
  apply List.disjoint_left.2
  intro n hn hn'
  obtain ⟨problem, hproblem, rfl⟩ := List.mem_map.1 hn
  obtain ⟨problem', hproblem', hsame⟩ := List.mem_map.1 hn'
  obtain ⟨p', rfl, hfault⟩ := faultOn_of_problemsOf hproblem
  obtain ⟨q', rfl, hfault'⟩ := faultOn_of_problemsOf hproblem'
  have hrecognises := hfault'.recognises
  rw [hsame] at hrecognises
  rw [PassName.recognises_unique hfault.recognises hrecognises] at hne
  exact hne rfl

/-- Problems that come from different lines are in the strict order of these lines once they are
sorted. -/
theorem pairwise_lt_sortProblems {problems : List Problem} (h : (problems.map (·.line)).Nodup) :
    ((sortProblems problems).map (·.line)).Pairwise (· < ·) := by
  have hsorted : (sortProblems problems).Pairwise fun a b => decide (a.line ≤ b.line) = true := by
    apply List.pairwise_mergeSort
    · intro a b c hab hbc
      simp only [decide_eq_true_eq] at hab hbc ⊢
      exact hab.trans hbc
    · intro a b
      simp only [Bool.or_eq_true, decide_eq_true_eq]
      exact Nat.le_total _ _
  have hperm : (sortProblems problems).Perm problems := List.mergeSort_perm _ _
  have hnodup : ((sortProblems problems).map (·.line)).Nodup := ((hperm.map _).nodup_iff).2 h
  rw [List.pairwise_map]
  rw [List.Nodup, List.pairwise_map] at hnodup
  refine (hsorted.and hnodup).imp ?_
  intro a b ⟨hle, hne⟩
  exact lt_of_le_of_ne (of_decide_eq_true hle) hne

/-! ### The verdict on a document -/

/-- A document in which every line has one verdict. -/
structure Document.OneVerdict (source : Text) (doc : Document) : Prop where
  /-- No line is recognised by two passes. -/
  unique : ∀ (number : Nat) (p q : PassName), p.Recognises (bareLines source) number →
    q.Recognises (bareLines source) number → p = q
  /-- The problems are in the strict order of their lines. -/
  ordered : (doc.problems.map (·.line)).Pairwise (· < ·)
  /-- Problems have the numbers of lines of the source. -/
  inRange : ∀ problem ∈ doc.problems, 1 ≤ problem.line ∧ problem.line ≤ (lines source).length
  /-- A problem is one of a line that some pass recognises. -/
  reported : ∀ problem ∈ doc.problems, ∃ p : PassName, p.FaultOn (bareLines source) problem
  /-- An entity is one of a line from which its pass reads it. -/
  placed : ∀ p : PassName, ∀ number ∈ doc.entityLines p, p.EntityOn (bareLines source) number
  /-- A line with a problem has no entity, unless it is a header whose body is never closed. -/
  exclusive : ∀ problem ∈ doc.problems, ∀ p : PassName,
    p.EntityOn (bareLines source) problem.line →
      p = .pipeline ∧ problem.cause = .unclosedBody ∧
        UnclosedHeader (bareLines source) problem.line

/-- In every document that is read, each line has one verdict. -/
theorem oneVerdict_of_read {source : Text} {doc : Document}
    (h : Document.read source = .ok doc) : doc.OneVerdict source := by
  obtain ⟨annotations, hsettle, rfl⟩ := Document.read_eq_ok.1 h
  have hreported : ∀ problem ∈
      ((Findings.ofLines (bareLines source)).document annotations).problems,
      ∃ p : PassName, p.FaultOn (bareLines source) problem := by
    intro problem hproblem
    have hmem : problem ∈
        problemOrder.flatMap (Findings.ofLines (bareLines source)).problemsOf := by
      rw [← Findings.problems_eq]
      exact List.mem_mergeSort.1 hproblem
    obtain ⟨p, -, hp⟩ := List.mem_flatMap.1 hmem
    obtain ⟨q, -, hfault⟩ := faultOn_of_problemsOf hp
    exact ⟨q, hfault⟩
  constructor
  · intro number p q hp hq
    exact PassName.recognises_unique hp hq
  · exact pairwise_lt_sortProblems (nodup_lines_problems _)
  · intro problem hproblem
    obtain ⟨p, i, line, hnumber, hsees, haccepts, -⟩ := hreported problem hproblem
    have hlt := (List.getElem?_eq_some_iff.1 (hsees.bare haccepts.ne_nil)).1
    rw [bareLines, length_stripLines] at hlt
    omega
  · exact hreported
  · intro p number hnumber
    exact entityOn_of_mem_entityLines hsettle hnumber
  · intro problem hproblem p hentity
    obtain ⟨q, hfault⟩ := hreported problem hproblem
    exact hfault.unclosed_of_entityOn hentity

/-- The header in this source is read, and its body is reported. -/
theorem oneVerdict_of_read_unclosed :
    let source := "component Cup [0.5, 0.25]\npipeline Kettle \x7b\nCup->Kettle".toList
    let doc : Document :=
      { elements := [{ line := 1, name := "Cup".toList,
                       position := { visibility := 0.5, maturity := 0.25 } }]
        links := [{ start := "Cup".toList, target := "Kettle".toList, arrow := .dependency }]
        pipelines := [{ line := 2, name := "Kettle".toList }]
        problems := [{ line := 2, cause := .unclosedBody }] }
    Document.read source = .ok doc ∧ doc.OneVerdict source := by
  intro source doc
  have hread : Document.read source = .ok doc := by decide +kernel
  exact ⟨hread, oneVerdict_of_read hread⟩

end WardleyMaps
