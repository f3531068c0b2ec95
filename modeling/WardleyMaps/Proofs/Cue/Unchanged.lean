/-
Module: WardleyMaps.Proofs.Cue.Unchanged
Purpose: Which elements get a cue, and what happens when no component line has changed.
Main exports: Spot.changed, names_detectChanges, componentLines, Document.spots, RepeatsInPlace,
  unchanged_noCue_iff
-/
import WardleyMaps.Cue
import WardleyMaps.Proofs.Document.Pass
import WardleyMaps.Proofs.Document.Renumber
import WardleyMaps.Proofs.Number.Exact

namespace WardleyMaps

open Text

/-!
An element gets a cue if it is new or lies elsewhere, compared with the first element of its name
before (`names_detectChanges`). No element lies elsewhere than itself, but one that repeats the name
of another is compared with that other one. So a map that is compared with itself brings no cues
exactly if its repeated names stand in place (`unchanged_noCue_iff`). The same holds for two maps
with the same component lines, since the elements are read from these lines alone
(`Document.spots_eq`).
-/

/-! ### Distances -/

/-- A number has no distance from itself that exceeds a tolerance. -/
theorem Double.lt_abs_sub_self {tolerance : Double} (nonneg : (0 : Double).le tolerance = true)
    (x : Double) : tolerance.lt (x - x).abs = false := by
  have distance : (x - x).abs = .zero false ∨ (x - x).abs = .nan := by
    cases x with
    | nan => exact .inr rfl
    | infinite negative => cases negative <;> exact .inr rfl
    | finite negative units representable =>
        have none : signed negative units + signed (!negative) units = 0 := by
          cases negative
          · exact Int.add_right_neg _
          · exact Int.add_left_neg _
        left
        change abs (add (finite negative units representable)
          (finite (!negative) units representable)) = zero false
        rw [add, if_pos none]
        rfl
  rw [Double.zero_eq] at nonneg
  rcases distance with distance | distance <;> rw [distance]
  · cases tolerance with
    | nan => rfl
    | infinite negative =>
        cases negative with
        | false => rfl
        | true => cases nonneg
    | finite negative units representable =>
        simp only [zero, le, lt, decide_eq_true_eq, decide_eq_false_iff_not] at nonneg ⊢
        exact Int.not_lt.2 nonneg
  · cases tolerance <;> rfl

theorem movedBeyond_self {tolerance : Double} (nonneg : (0 : Double).le tolerance = true)
    (p : Position) : movedBeyond tolerance p p = false := by
  rw [movedBeyond, Double.lt_abs_sub_self nonneg, Double.lt_abs_sub_self nonneg]
  rfl

/-! ### Who gets a cue -/

/-- An element is new, or lies further than a tolerance from the first one of its name before. -/
def Spot.changed (before : List Spot) (tolerance : Double) (s : Spot) : Bool :=
  match before.find? (·.name = s.name) with
  | none => true
  | some old => movedBeyond tolerance s.position old.position

theorem Spot.changed_eq_isSome (before : List Spot) (now tolerance : Double) (s : Spot) :
    s.changed before tolerance = (cueFor before now tolerance s).isSome := by
  unfold changed cueFor
  cases before.find? (·.name = s.name) with
  | none => rfl
  | some old =>
      simp only
      split
      · next moved => exact moved
      · next still => exact eq_false_of_ne_true still

theorem name_of_cueFor {before : List Spot} {now tolerance : Double} {s : Spot} {c : Cue}
    (found : cueFor before now tolerance s = some c) : c.name = s.name := by
  unfold cueFor at found
  split at found
  · cases found; rfl
  · split at found <;> cases found
    rfl

/-- The cues belong to the elements that have changed and have no cue yet, in order. -/
theorem names_detectChanges (before current : List Spot) (now tolerance : Double)
    (active : List Text) :
    (detectChanges (some before) current now active tolerance).map (·.name) =
      (current.filter fun s => !active.contains s.name && s.changed before tolerance).map
        (·.name) := by
  have cues : ∀ spots : List Spot,
      (spots.filterMap (cueFor before now tolerance)).map (·.name) =
        (spots.filter (Spot.changed before tolerance)).map (·.name) := by
    intro spots
    induction spots with
    | nil => rfl
    | cons s spots ih =>
        rw [List.filterMap_cons, List.filter_cons, Spot.changed_eq_isSome before now]
        cases found : cueFor before now tolerance s with
        | none => exact ih
        | some c =>
            rw [Option.isSome_some, if_pos rfl, List.map_cons, List.map_cons, ih,
              name_of_cueFor found]
  rw [detectChanges, cues, List.filter_filter]
  simp only [Bool.and_comm]

theorem detectChanges_eq_nil_iff {before current : List Spot} {now tolerance : Double}
    {active : List Text} :
    detectChanges (some before) current now active tolerance = [] ↔
      ∀ s ∈ current, s.name ∉ active → s.changed before tolerance = false := by
  rw [← List.map_eq_nil_iff (f := (·.name)), names_detectChanges, List.map_eq_nil_iff,
    List.filter_eq_nil_iff]
  simp

/-! ### Repeated names -/

/-- An element stands behind the first one of its name. -/
def Repeated (spots : List Spot) (first later : Spot) : Prop :=
  ∃ above below, spots = above ++ first :: below ∧ (∀ s ∈ above, s.name ≠ first.name) ∧
    later ∈ below ∧ later.name = first.name

/-- Every element that repeats a name without a cue lies within a tolerance from the first of the
name. -/
def RepeatsInPlace (spots : List Spot) (active : List Text) (tolerance : Double) : Prop :=
  ∀ first later, Repeated spots first later → first.name ∉ active →
    movedBeyond tolerance later.position first.position = false

theorem find?_name_of_first {above below : List Spot} {first s : Spot}
    (others : ∀ s ∈ above, s.name ≠ first.name) (named : s.name = first.name) :
    (above ++ first :: below).find? (·.name = s.name) = some first := by
  rw [List.find?_eq_some_iff_append]
  refine ⟨by simp [named], above, below, rfl, fun other mem => ?_⟩
  simpa [named] using others other mem

/-- Elements that are compared with themselves have changed only where a name is repeated. -/
theorem forall_unchanged_iff {spots : List Spot} {active : List Text} {tolerance : Double}
    (nonneg : (0 : Double).le tolerance = true) :
    (∀ s ∈ spots, s.name ∉ active → s.changed spots tolerance = false) ↔
      RepeatsInPlace spots active tolerance := by
  constructor
  · rintro unchanged first later ⟨above, below, rfl, others, behind, named⟩ inactive
    have still := unchanged later
      (List.mem_append_right _ (List.mem_cons_of_mem _ behind)) (named ▸ inactive)
    rwa [Spot.changed, find?_name_of_first others named] at still
  · intro inPlace s mem inactive
    cases found : spots.find? (·.name = s.name) with
    | none => simpa using List.find?_eq_none.1 found s mem
    | some first =>
        obtain ⟨named, above, below, rfl, others⟩ := List.find?_eq_some_iff_append.1 found
        replace named : first.name = s.name := by simpa using named
        replace others : ∀ other ∈ above, other.name ≠ first.name := by
          simpa [named] using others
        rw [Spot.changed, found]
        rcases List.mem_append.1 mem with before | mem
        · exact absurd named.symm (others s before)
        · rcases List.mem_cons.1 mem with rfl | behind
          · exact movedBeyond_self nonneg s.position
          · exact inPlace first s ⟨above, below, rfl, others, behind, named.symm⟩
              (named.symm ▸ inactive)

/-! ### Component lines -/

/-- The elements of a document with their places. -/
def Document.spots (doc : Document) : List Spot :=
  doc.elements.map Component.spot

/-- The lines of a source outside of bodies, without comments, that declare components. -/
def componentLines (source : Text) : List Text :=
  (maskBodies (bareLines source)).filter (startsWithKeyword "component".toList)

/-- The element that a component line declares. -/
def spotOn (line : Text) : Option Spot :=
  (readComponent false 0 line).toOption.map Component.spot

theorem spot_of_readComponent (number : Nat) (line : Text) :
    (readComponent false number line).toOption.map Component.spot = spotOn line := by
  have other : readComponent false 0 line =
      (readComponent false number line).map (Component.renumber fun _ => 0) :=
    readComponent_renumber (fun _ => 0) number line false
  rw [spotOn, other]
  cases readComponent false number line <;> rfl

/-- The place of the element that the pass over components makes of a line. -/
theorem spot_of_itemOn (p : NumberedLine) :
    (itemOn (kindOf [()] fun _ => "component") (fun _ => readComponent false) p).map
        Component.spot =
      if startsWithKeyword "component".toList p.1 then spotOn p.1 else none := by
  rw [itemOn]
  split
  · next keyword => rw [kindOf_unit keyword, Option.bind_some, spot_of_readComponent]
  · next other =>
    rw [kindOf_eq_none.2 fun _ _ => eq_false_of_ne_true other]
    rfl

/-- Elements are read from the component lines alone. -/
theorem Document.spots_eq {source : Text} {doc : Document} (read : Document.read source = .ok doc) :
    doc.spots = (componentLines source).filterMap spotOn := by
  obtain ⟨annotations, -, rfl⟩ := Document.read_eq_ok.1 read
  let lines := maskBodies (bareLines source)
  change (collectKeyword "component" (readComponent false) (lines.zipIdx 1)).items.map
    Component.spot = (lines.filter (startsWithKeyword "component".toList)).filterMap spotOn
  calc (collectKeyword "component" (readComponent false) (lines.zipIdx 1)).items.map Component.spot
      = (lines.zipIdx 1).filterMap fun p =>
          if startsWithKeyword "component".toList p.1 then spotOn p.1 else none := by
        rw [collectKeyword, collect_eq, List.map_filterMap]
        simp only [spot_of_itemOn]
    _ = ((lines.zipIdx 1).map Prod.fst).filterMap fun line =>
          if startsWithKeyword "component".toList line then spotOn line else none := by
        rw [List.filterMap_map]
        rfl
    _ = (lines.filter (startsWithKeyword "component".toList)).filterMap spotOn := by
        rw [List.zipIdx_map_fst, List.filterMap_filter]

/-- A map that is compared with itself, or with one of the same component lines, brings no cues
exactly if its repeated names stand in place. -/
theorem unchanged_noCue_iff {source edited : Text} {doc doc' : Document} {tolerance : Double}
    (read : Document.read source = .ok doc) (read' : Document.read edited = .ok doc')
    (same : componentLines edited = componentLines source)
    (nonneg : (0 : Double).le tolerance = true) :
    (∀ now active, detectChanges (some doc.spots) doc.spots now active tolerance = [] ↔
      RepeatsInPlace doc.spots active tolerance) ∧
    ∀ (t : CueTracker) (now : Double), t.tolerance = tolerance →
      ((t.record (some doc) doc' now).2 = [] ↔
        RepeatsInPlace doc.spots (t.prune now).activeNames tolerance) := by
  have self : ∀ now active, detectChanges (some doc.spots) doc.spots now active tolerance = [] ↔
      RepeatsInPlace doc.spots active tolerance := fun now active =>
    detectChanges_eq_nil_iff.trans (forall_unchanged_iff nonneg)
  refine ⟨self, ?_⟩
  rintro t now rfl
  have spots : doc'.spots = doc.spots := by
    rw [Document.spots_eq read', Document.spots_eq read, same]
  rw [← self now]
  change detectChanges (some doc.spots) doc'.spots now _ _ = [] ↔ _
  rw [spots]
  rfl

/-- No component line has changed here, but the second declaration of the name lies elsewhere than
the first: it gets a cue. -/
theorem cue_of_repeated_name :
    let source := "component Cup [0.1, 0.1]\ncomponent Cup [0.9, 0.9]".toList
    let edited := "title Tea\ncomponent Cup [0.1, 0.1]\ncomponent Cup [0.9, 0.9]".toList
    let cup (line : Nat) (share : Double) : Component :=
      { line, name := "Cup".toList, position := { visibility := share, maturity := share } }
    let doc : Document := { elements := [cup 1 0.1, cup 2 0.9] }
    let doc' : Document := { title := "Tea".toList, elements := [cup 2 0.1, cup 3 0.9] }
    let tracker : CueTracker := { duration := standardDuration, tolerance := standardTolerance }
    Document.read source = .ok doc ∧ Document.read edited = .ok doc' ∧
      componentLines edited = componentLines source ∧ (0 : Double).le standardTolerance = true ∧
      detectChanges (some doc.spots) doc.spots 0 [] standardTolerance ≠ [] ∧
      (tracker.record (some doc) doc' 0).2 ≠ [] := by
  intro source edited cup doc doc' tracker
  have read : Document.read source = .ok doc := by decide +kernel
  have read' : Document.read edited = .ok doc' := by decide +kernel
  have same : componentLines edited = componentLines source := by decide +kernel
  have nonneg : (0 : Double).le standardTolerance = true := by decide +kernel
  obtain ⟨self, recorded⟩ := unchanged_noCue_iff read read' same nonneg
  have apart : ¬ RepeatsInPlace doc.spots [] standardTolerance := by
    intro inPlace
    have moved :
        movedBeyond standardTolerance (cup 2 0.9).position (cup 1 0.1).position = true := by
      decide +kernel
    have still := inPlace (cup 1 0.1).spot (cup 2 0.9).spot
      ⟨[], [(cup 2 0.9).spot], rfl, by simp, List.mem_cons_self, rfl⟩ (by simp)
    exact Bool.false_ne_true (still.symm.trans moved)
  exact ⟨read, read', same, nonneg, mt (self 0 []).1 apart, mt (recorded tracker 0 rfl).1 apart⟩

end WardleyMaps
