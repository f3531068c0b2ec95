/-
Module: WardleyMaps.Proofs.Document.Gather
Purpose: What the passes gather from lists of numbered lines that are joined, thinned out or
  numbered anew.
Main exports: Pass.append, Pass.renumber, NumberedLine.written, collect_append, collect_filter,
  collect_renumber, Findings.gather, Findings.gather_append, Findings.gather_written
-/
import WardleyMaps.Proofs.Statement.Keyword

namespace WardleyMaps

open Text

/-!
A pass looks at each line on its own. So what it gathers from two lists of lines, one behind the
other, is what it gathers from each of them (`collect_append`); lines that it does not recognise,
blank ones above all, may be left out (`collect_filter`); and where a reader uses the number of a
line for the line of its entity only, other numbers give the same entities with these numbers
(`collect_renumber`). All passes over a document are of this kind but the one over pipelines, which
is a parameter of `Findings.gather`.
-/

/-! ### One pass -/

/-- Two passes, with what they gathered one behind the other. -/
def Pass.append {α : Type} (p q : Pass α) : Pass α :=
  { items := p.items ++ q.items, problems := p.problems ++ q.problems }

/-- The problem on a line with another number. -/
def Problem.renumber (σ : Nat → Nat) (p : Problem) : Problem :=
  { p with line := σ p.line }

/-- What a pass gathered, with other numbers; `move` gives an entity its other number. -/
def Pass.renumber {α : Type} (σ : Nat → Nat) (move : α → α) (p : Pass α) : Pass α :=
  { items := p.items.map move, problems := p.problems.map (Problem.renumber σ) }

theorem Pass.renumber_append {α : Type} (σ : Nat → Nat) (move : α → α) (p q : Pass α) :
    (p.append q).renumber σ move = (p.renumber σ move).append (q.renumber σ move) := by
  simp [renumber, append]

/-- The line with another number. -/
def NumberedLine.renumber (σ : Nat → Nat) (p : NumberedLine) : NumberedLine :=
  (p.1, σ p.2)

/-- Whether anything but blanks stands on the line. -/
def NumberedLine.written (p : NumberedLine) : Bool :=
  !(trim p.1).isEmpty

theorem NumberedLine.trim_of_not_written {p : NumberedLine} (h : ¬ p.written = true) :
    trim p.1 = [] := by
  simpa [written] using h

section

variable {α κ : Type} {accept : Text → Option κ} {build : κ → Nat → Text → Except Cause α}

theorem collect_append (ls ms : List NumberedLine) :
    collect accept build (ls ++ ms) =
      (collect accept build ls).append (collect accept build ms) := by
  simp [collect_eq, Pass.append]

/-- Lines that a pass does not recognise may be left out. -/
theorem collect_filter {keep : NumberedLine → Bool}
    (h : ∀ p, ¬ keep p = true → accept p.1 = none) (ls : List NumberedLine) :
    collect accept build (ls.filter keep) = collect accept build ls := by
  induction ls with
  | nil => rfl
  | cons p rest ih =>
      by_cases hp : keep p = true
      · have hcons : ∀ ms, collect accept build (p :: ms) =
            (collect accept build [p]).append (collect accept build ms) :=
          fun ms => collect_append [p] ms
        rw [List.filter_cons_of_pos hp, hcons, ih, ← hcons]
      · rw [List.filter_cons_of_neg hp, ih, collect, h p hp]

theorem collect_renumber {σ : Nat → Nat} {move : α → α}
    (h : ∀ kind number line, build kind (σ number) line = (build kind number line).map move)
    (ls : List NumberedLine) :
    collect accept build (ls.map (NumberedLine.renumber σ)) =
      (collect accept build ls).renumber σ move := by
  induction ls with
  | nil => rfl
  | cons p rest ih =>
      obtain ⟨line, number⟩ := p
      rw [List.map_cons, NumberedLine.renumber, collect, collect, ih]
      cases accept line with
      | none => rfl
      | some kind =>
          simp only [h kind number line]
          cases build kind number line <;> rfl

end

/-! ### Keywords and links -/

theorem startsWithKeyword_of_blank {keyword line : Text} (hne : keyword ≠ [])
    (hline : trim line = []) : startsWithKeyword keyword line = false := by
  obtain ⟨c, cs, rfl⟩ := List.exists_cons_of_ne_nil hne
  simp [startsWithKeyword, hline, after?]

section

variable {α κ : Type}

theorem collectKeyword_append (keyword : String) (build : Nat → Text → Except Cause α)
    (ls ms : List NumberedLine) :
    collectKeyword keyword build (ls ++ ms) =
      (collectKeyword keyword build ls).append (collectKeyword keyword build ms) :=
  collect_append ls ms

theorem collectLinks_append (ls ms : List NumberedLine) :
    collectLinks (ls ++ ms) = (collectLinks ls).append (collectLinks ms) := by
  simp [collectLinks, collect_append, Pass.append]

/-- No pass recognises a blank line. -/
theorem collectKinds_written {kinds : List κ} {keyword : κ → String}
    (hne : ∀ kind ∈ kinds, (keyword kind).toList ≠ []) (build : κ → Nat → Text → Except Cause α)
    (ls : List NumberedLine) :
    collect (kindOf kinds keyword) build (ls.filter NumberedLine.written) =
      collect (kindOf kinds keyword) build ls :=
  collect_filter (fun _ hp => kindOf_eq_none.2 fun kind hkind =>
    startsWithKeyword_of_blank (hne kind hkind) (NumberedLine.trim_of_not_written hp)) ls

theorem collectKeyword_written {keyword : String} (hne : keyword.toList ≠ [])
    (build : Nat → Text → Except Cause α) (ls : List NumberedLine) :
    collectKeyword keyword build (ls.filter NumberedLine.written) =
      collectKeyword keyword build ls :=
  collectKinds_written (fun _ _ => hne) _ ls

theorem collectLinks_written (ls : List NumberedLine) :
    collectLinks (ls.filter NumberedLine.written) = collectLinks ls := by
  unfold collectLinks
  rw [collect_filter]
  intro p hp
  simp [isLinkCandidate, NumberedLine.trim_of_not_written hp]

theorem collectLinks_renumber (σ : Nat → Nat) (ls : List NumberedLine) :
    collectLinks (ls.map (NumberedLine.renumber σ)) = (collectLinks ls).renumber σ id := by
  have hlinks : ∀ accept : Text → Option Unit,
      collect accept (fun _ _ line => readLink line) (ls.map (NumberedLine.renumber σ)) =
        (collect accept (fun _ _ line => readLink line) ls).renumber σ id :=
    fun accept => collect_renumber (fun _ _ line => by cases readLink line <;> rfl) ls
  simp [collectLinks, hlinks, Pass.renumber]

end

/-! ### All passes -/

/-- What the passes gather from numbered lines. The lines in which elements are looked for are given
apart, and so is what was gathered from the pipelines. -/
def Findings.gather (ls outside : List NumberedLine) (pipelines : Pass Pipeline) : Findings :=
  { titles := collectKeyword "title" (fun _ => readTitle) ls
    stages := collectKeyword "evolution" (fun _ => readStages) ls
    styles := collectKeyword "style" (fun _ => readStyle) ls
    legends := collectKeyword "annotations" (fun _ => readLegend) ls
    sizes := collectKeyword "size" (fun _ => readSize) ls
    notes := collectKeyword "note" readNote ls
    drafts := collectKeyword "annotation" readNumberedNote ls
    elements := collectKeyword "component" (readComponent false) outside
    pipelines
    evolved := collectKeyword "evolve" readEvolution ls
    anchors := collectKeyword "anchor" readAnchor ls
    links := collectLinks ls
    submaps := collectKeyword "submap" (readComponent true) ls
    addresses := collectKeyword "url" readAddress ls
    attitudes := collect (kindOf attitudeKinds AttitudeKind.keyword) readAttitude ls
    accelerators := collect (kindOf acceleratorKinds acceleratorKeyword) readAccelerator ls
    methods := collect (kindOf methodKinds MethodKind.keyword) readMethod ls }

theorem Findings.ofLines_eq (bare : List Text) :
    Findings.ofLines bare =
      .gather (bare.zipIdx 1) ((maskBodies bare).zipIdx 1)
        (readPipelines ((inBody bare).zip (bare.zipIdx 1))) :=
  rfl

/-- The findings of all passes, one behind the other. -/
def Findings.append (f g : Findings) : Findings :=
  { titles := f.titles.append g.titles
    stages := f.stages.append g.stages
    styles := f.styles.append g.styles
    legends := f.legends.append g.legends
    sizes := f.sizes.append g.sizes
    notes := f.notes.append g.notes
    drafts := f.drafts.append g.drafts
    elements := f.elements.append g.elements
    pipelines := f.pipelines.append g.pipelines
    evolved := f.evolved.append g.evolved
    anchors := f.anchors.append g.anchors
    links := f.links.append g.links
    submaps := f.submaps.append g.submaps
    addresses := f.addresses.append g.addresses
    attitudes := f.attitudes.append g.attitudes
    accelerators := f.accelerators.append g.accelerators
    methods := f.methods.append g.methods }

theorem Findings.gather_append (ls ms outside outside' : List NumberedLine)
    (pipelines pipelines' : Pass Pipeline) :
    Findings.gather (ls ++ ms) (outside ++ outside') (pipelines.append pipelines') =
      (Findings.gather ls outside pipelines).append (.gather ms outside' pipelines') := by
  simp only [gather, append, collectKeyword_append, collectLinks_append, collect_append]

/-- Blank lines may be left out. -/
theorem Findings.gather_written (ls outside : List NumberedLine) (pipelines : Pass Pipeline) :
    Findings.gather (ls.filter NumberedLine.written) (outside.filter NumberedLine.written)
        pipelines =
      Findings.gather ls outside pipelines := by
  have hattitudes : ∀ kind ∈ attitudeKinds, (AttitudeKind.keyword kind).toList ≠ [] := by decide
  have haccelerators : ∀ kind ∈ acceleratorKinds, (acceleratorKeyword kind).toList ≠ [] := by
    decide
  have hmethods : ∀ kind ∈ methodKinds, (MethodKind.keyword kind).toList ≠ [] := by decide
  simp (disch := decide) only [gather, collectKeyword_written, collectLinks_written,
    collectKinds_written hattitudes, collectKinds_written haccelerators,
    collectKinds_written hmethods]

end WardleyMaps
