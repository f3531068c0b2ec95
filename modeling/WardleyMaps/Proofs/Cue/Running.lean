/-
Module: WardleyMaps.Proofs.Cue.Running
Purpose: When every element has one running cue at most, over whole runs of a tracker.
Main exports: CueAction, CueTracker.run, CueTracker.OneEach, CueTracker.StartsOnce,
  nodup_record_iff, oneEach_of_every_run_iff
-/
import Mathlib.Data.List.Nodup
import WardleyMaps.Proofs.Cue.Unchanged

namespace WardleyMaps

open Text

/-!
Cues that run are told apart by the names of their elements only. Pruning, sampling and clearing
start none. A comparison of two documents passes over the names that have a cue already, but those
that get one meanwhile are not among them: it starts two cues of one name if two elements of that
name have changed (`nodup_record_iff`). So the names stay distinct over a whole run exactly if no
comparison of the run meets two such elements (`oneEach_of_every_run_iff`).
-/

/-! ### Entries by name -/

section

variable {α : Type}

theorem lookup_eq_none_of_not_mem {entries : List (Text × α)} {name : Text}
    (absent : name ∉ entries.map Prod.fst) : entries.lookup name = none := by
  rw [List.lookup_eq_none_iff]
  intro entry mem
  rw [bne_iff_ne]
  rintro rfl
  exact absent (List.mem_map_of_mem mem)

/-- The names of entries by name are distinct. -/
theorem nodup_byName (entries : List (Text × α)) : ((byName entries).map Prod.fst).Nodup := by
  induction entries with
  | nil => exact List.nodup_nil
  | cons entry rest ih =>
      rw [byName, List.map_cons, List.nodup_cons]
      refine ⟨?_, ih.sublist (List.filter_sublist.map _)⟩
      intro mem
      obtain ⟨other, kept, named⟩ := List.mem_map.1 mem
      simpa [named] using (List.mem_filter.1 kept).2

/-- Entries of distinct names are all kept, and only these are. -/
theorem byName_eq_self_iff {entries : List (Text × α)} :
    byName entries = entries ↔ (entries.map Prod.fst).Nodup := by
  constructor
  · intro kept
    rw [← kept]
    exact nodup_byName entries
  · intro distinct
    induction entries with
    | nil => rfl
    | cons entry rest ih =>
        rw [List.map_cons, List.nodup_cons] at distinct
        obtain ⟨absent, distinct⟩ := distinct
        have others : rest.filter (fun other => other.1 ≠ entry.1) = rest := by
          rw [List.filter_eq_self]
          intro other mem
          rw [decide_eq_true_eq]
          exact fun named => absent (named ▸ List.mem_map_of_mem mem)
        rw [byName, ih distinct, lookup_eq_none_of_not_mem absent, others]
        rfl

end

/-! ### Runs -/

/-- What can be done with a tracker. -/
inductive CueAction where
  | record (previous : Option Document) (current : Document) (now : Double)
  | prune (now : Double)
  | sample (now : Double)
  | clear

namespace CueTracker

/-- The tracker after an action. -/
def act (t : CueTracker) : CueAction → CueTracker
  | .record previous current now => (t.record previous current now).1
  | .prune now => t.prune now
  | .sample now => (t.sample now).1
  | .clear => t.clear

/-- The tracker after some actions. -/
def run (t : CueTracker) (actions : List CueAction) : CueTracker :=
  actions.foldl act t

/-- Every name has one running cue at most, and every cue that runs is reported. -/
structure OneEach (t : CueTracker) : Prop where
  distinct : t.activeNames.Nodup
  reported : ∀ now,
    (t.sample now).2 = (t.prune now).cues.map fun c => (c.name, (t.prune now).progressOf now c)

/-- A comparison meets no two changed elements of a name that has no cue. -/
def StartsOnce (t : CueTracker) (previous current : Document) : Prop :=
  current.spots.Pairwise fun s s' => s.name = s'.name → s.name ∉ t.activeNames →
    s.changed previous.spots t.tolerance = true → s'.changed previous.spots t.tolerance = false

theorem activeNames_prune_sublist (t : CueTracker) (now : Double) :
    (t.prune now).activeNames.Sublist t.activeNames :=
  List.filter_sublist.map _

/-- Names are distinct exactly if no cue hides another when they are sampled. -/
theorem sample_eq_iff (t : CueTracker) (now : Double) :
    ((t.sample now).2 = (t.prune now).cues.map fun c => (c.name, (t.prune now).progressOf now c)) ↔
      (t.prune now).activeNames.Nodup := by
  rw [sample, byName_eq_self_iff, List.map_map]
  rfl

theorem oneEach_iff {t : CueTracker} : t.OneEach ↔ t.activeNames.Nodup := by
  constructor
  · exact OneEach.distinct
  · intro distinct
    exact ⟨distinct, fun now =>
      (t.sample_eq_iff now).2 (distinct.sublist (t.activeNames_prune_sublist now))⟩

/-- The cues that a comparison starts have distinct names exactly if it meets no two changed
elements of one name. -/
theorem nodup_started_iff (t : CueTracker) (previous current : Document) (now : Double) :
    ((detectChanges (some previous.spots) current.spots now t.activeNames t.tolerance).map
      (·.name)).Nodup ↔ t.StartsOnce previous current := by
  rw [names_detectChanges, List.Nodup, List.pairwise_map, List.pairwise_filter, StartsOnce]
  apply List.Pairwise.iff
  intro s s'
  simp only [Bool.and_eq_true, Bool.not_eq_true', List.contains_eq_mem, decide_eq_false_iff_not,
    ne_eq]
  constructor
  · intro distinct same inactive changed
    refine eq_false_of_ne_true fun changed' => ?_
    exact distinct ⟨inactive, changed⟩ ⟨same ▸ inactive, changed'⟩ same
  · rintro once ⟨inactive, changed⟩ ⟨-, changed'⟩ same
    rw [once same inactive changed] at changed'
    exact Bool.false_ne_true changed'

/-- The names are distinct after a comparison exactly if those of the cues that are left were and it
meets no two changed elements of one name. -/
theorem nodup_record_iff (t : CueTracker) (previous current : Document) (now : Double) :
    (t.record (some previous) current now).1.activeNames.Nodup ↔
      (t.prune now).activeNames.Nodup ∧ (t.prune now).StartsOnce previous current := by
  let left := t.prune now
  let started :=
    detectChanges (some previous.spots) current.spots now left.activeNames left.tolerance
  have names : (t.record (some previous) current now).1.activeNames =
      left.activeNames ++ started.map Cue.name := List.map_append
  have apart : List.Disjoint left.activeNames (started.map Cue.name) := by
    rw [List.disjoint_right]
    intro name mem active
    rw [names_detectChanges] at mem
    obtain ⟨s, kept, rfl⟩ := List.mem_map.1 mem
    have inactive := (List.mem_filter.1 kept).2
    rw [Bool.and_eq_true, Bool.not_eq_true', List.contains_eq_mem] at inactive
    exact of_decide_eq_false inactive.1 active
  rw [names, List.nodup_append', nodup_started_iff]
  exact ⟨fun ⟨old, new, _⟩ => ⟨old, new⟩, fun ⟨old, new⟩ => ⟨old, new, apart⟩⟩

/-- A comparison with nothing starts no cues. -/
theorem activeNames_record_none (t : CueTracker) (current : Document) (now : Double) :
    (t.record none current now).1.activeNames = (t.prune now).activeNames := by
  change ((t.prune now).cues ++ []).map Cue.name = (t.prune now).activeNames
  rw [List.append_nil]
  rfl

/-- The comparison among an action, if it is one, meets no two changed elements of one name. -/
def Spares (t : CueTracker) : CueAction → Prop
  | .record (some previous) current now => (t.prune now).StartsOnce previous current
  | _ => True

/-- One action keeps the names distinct exactly if it spares them. -/
theorem nodup_act_iff {t : CueTracker} (distinct : t.activeNames.Nodup) (a : CueAction) :
    (t.act a).activeNames.Nodup ↔ t.Spares a := by
  have pruned : ∀ now, (t.prune now).activeNames.Nodup := fun now =>
    distinct.sublist (t.activeNames_prune_sublist now)
  cases a with
  | record previous current now =>
      cases previous with
      | none =>
          rw [act, activeNames_record_none]
          exact iff_of_true (pruned now) trivial
      | some previous =>
          rw [act, nodup_record_iff]
          exact and_iff_right (pruned now)
  | prune now => exact iff_of_true (pruned now) trivial
  | sample now => exact iff_of_true (pruned now) trivial
  | clear => exact iff_of_true List.nodup_nil trivial

theorem run_concat (t : CueTracker) (ran : List CueAction) (a : CueAction) :
    t.run (ran ++ [a]) = (t.run ran).act a := by
  rw [run, List.foldl_append]
  rfl

/-- Names that are distinct at first stay so as long as every action spares them. -/
theorem nodup_run {t : CueTracker} (distinct : t.activeNames.Nodup) {actions : List CueAction}
    (spared : ∀ ran a, ran ++ [a] <+: actions → (t.run ran).Spares a) :
    (t.run actions).activeNames.Nodup := by
  induction actions using List.reverseRecOn with
  | nil => exact distinct
  | append_singleton ran a ih =>
      have before := ih fun ran' a' earlier =>
        spared ran' a' (earlier.trans (List.prefix_append ran [a]))
      rw [run_concat, nodup_act_iff before]
      exact spared ran a (List.prefix_refl _)

/-- From a tracker without cues on, every element has one running cue at most, all of which are
reported, exactly if no comparison of the run meets two changed elements of one name. -/
theorem oneEach_of_every_run_iff (duration tolerance : Double) (actions : List CueAction) :
    let t : CueTracker := { duration, tolerance }
    (∀ ran, ran <+: actions → (t.run ran).OneEach) ↔
      ∀ ran previous current now, ran ++ [.record (some previous) current now] <+: actions →
        ((t.run ran).prune now).StartsOnce previous current := by
  intro t
  constructor
  · intro oneEach ran previous current now happens
    have before := (oneEach ran ((List.prefix_append ran _).trans happens)).distinct
    have after := (oneEach _ happens).distinct
    rw [run_concat] at after
    exact (nodup_act_iff before _).1 after
  · intro once ran happens
    have fresh : t.activeNames.Nodup := List.nodup_nil
    rw [oneEach_iff]
    refine nodup_run fresh fun ran' a earlier => ?_
    cases a with
    | record previous current now =>
        cases previous with
        | none => trivial
        | some previous => exact once ran' previous current now (earlier.trans happens)
    | prune now => trivial
    | sample now => trivial
    | clear => trivial

/-- Two new elements of one name get a cue each, and only one of these is reported. -/
theorem twoCues_of_repeated_name :
    let source := "component Cup [0.1, 0.1]\ncomponent Cup [0.9, 0.9]".toList
    let cup (line : Nat) (share : Double) : Component :=
      { line, name := "Cup".toList, position := { visibility := share, maturity := share } }
    let doc : Document := { elements := [cup 1 0.1, cup 2 0.9] }
    let t : CueTracker := { duration := standardDuration, tolerance := standardTolerance }
    let action : CueAction := .record (some {}) doc 0
    Document.read [] = .ok {} ∧ Document.read source = .ok doc ∧
      (t.run [action]).activeNames = ["Cup".toList, "Cup".toList] ∧
      ((t.run [action]).sample 0).2 = [("Cup".toList, { progress := 0, isNew := true })] ∧
      ¬ (t.prune 0).StartsOnce {} doc ∧ ¬ ∀ ran, ran <+: [action] → (t.run ran).OneEach := by
  intro source cup doc t action
  have twice : ¬ (t.prune 0).StartsOnce {} doc := by
    intro once
    have unchanged := List.rel_of_pairwise_cons once List.mem_cons_self rfl (by decide) rfl
    cases unchanged
  refine ⟨by decide +kernel, by decide +kernel, by decide +kernel, by decide +kernel, twice, ?_⟩
  intro every
  have once := (oneEach_of_every_run_iff standardDuration standardTolerance [action]).1 every
  exact twice (once [] {} doc 0 (List.prefix_refl _))

end CueTracker

end WardleyMaps
