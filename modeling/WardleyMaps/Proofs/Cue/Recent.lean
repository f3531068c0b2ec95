/-
Module: WardleyMaps.Proofs.Cue.Recent
Purpose: The running cues are those of the recent changes, over whole runs of a tracker.
Main exports: CueAction.time?, CueAction.leaves, CueTracker.started, CueTracker.mem_cues_run_iff,
  Component.NewOrMoved, active_iff_changed_recently
-/
import WardleyMaps.Proofs.Cue.Running

namespace WardleyMaps

open Text

/-!
Cues are started by comparisons only and ended by whatever happens at a time at which their age has
reached the duration, or by clearing. So each action keeps of the running cues those that it leaves
and adds those that it starts (`CueTracker.cues_act`), and a cue runs after a whole run exactly if
it was started and every action since left it (`CueTracker.mem_cues_run_iff`). Neither direction
asks the times to increase: a cue that was ended at one time stays ended at an earlier one.
-/

/-! ### Single actions -/

/-- The time of an action that ends the cues that are over. Clearing ends all of them at any time.
-/
def CueAction.time? : CueAction → Option Double
  | .record _ _ now => some now
  | .prune now => some now
  | .sample now => some now
  | .clear => none

/-- Whether a cue goes on running when an action happens, given the duration of cues. -/
def CueAction.leaves (duration : Double) (c : Cue) (a : CueAction) : Bool :=
  match a.time? with
  | some now => !c.expired now duration
  | none => false

theorem start_of_cueFor {before : List Spot} {now tolerance : Double} {s : Spot} {c : Cue}
    (found : cueFor before now tolerance s = some c) : c.start = now := by
  unfold cueFor at found
  split at found
  · cases found; rfl
  · split at found <;> cases found
    rfl

/-- New cues start at the time of the comparison. -/
theorem start_of_mem_detectChanges {previous : Option (List Spot)} {current : List Spot}
    {now tolerance : Double} {active : List Text} {c : Cue}
    (mem : c ∈ detectChanges previous current now active tolerance) : c.start = now := by
  cases previous with
  | none => cases mem
  | some before =>
      obtain ⟨s, -, found⟩ := List.mem_filterMap.1 mem
      exact start_of_cueFor found

/-- An action leaves a cue unless it clears all or comes at a time at which the cue is over. -/
theorem CueAction.leaves_iff {duration : Double} {c : Cue} {a : CueAction} :
    a.leaves duration c = true ↔
      a ≠ .clear ∧ ∀ now, a.time? = some now → duration.le (now - c.start) = false := by
  cases a <;> simp [leaves, time?, Cue.expired]

namespace CueTracker

/-- The cues that an action starts. -/
def started (t : CueTracker) : CueAction → List Cue
  | .record previous current now => (t.record previous current now).2
  | _ => []

/-- An action keeps the cues that it leaves and adds those that it starts. -/
theorem cues_act (t : CueTracker) (a : CueAction) :
    (t.act a).cues = t.cues.filter (fun c => a.leaves t.duration c) ++ t.started a := by
  cases a with
  | record previous current now => rfl
  | prune now => exact (List.append_nil _).symm
  | sample now => exact (List.append_nil _).symm
  | clear =>
      have none : t.cues.filter (fun c => CueAction.leaves t.duration c .clear) = [] :=
        List.filter_eq_nil_iff.2 fun c _ => Bool.false_ne_true
      rw [none]
      rfl

@[simp] theorem duration_act (t : CueTracker) (a : CueAction) :
    (t.act a).duration = t.duration := by
  cases a <;> rfl

@[simp] theorem tolerance_act (t : CueTracker) (a : CueAction) :
    (t.act a).tolerance = t.tolerance := by
  cases a <;> rfl

theorem isActive_iff {t : CueTracker} {name : Text} :
    t.isActive name = true ↔ ∃ c ∈ t.cues, c.name = name := by
  rw [isActive, List.contains_iff_mem, activeNames, List.mem_map]

/-- No comparison starts a cue of a name whose cue is still running at its time. -/
theorem not_active_of_started {t : CueTracker} {previous : Option Document} {current : Document}
    {now : Double} {c : Cue} (mem : c ∈ (t.record previous current now).2) :
    (t.prune now).isActive c.name = false := by
  cases previous with
  | none => cases mem
  | some previous =>
      have named := List.mem_map_of_mem (f := Cue.name) mem
      change c.name ∈ (detectChanges (some previous.spots) current.spots now
        (t.prune now).activeNames t.tolerance).map Cue.name at named
      rw [names_detectChanges] at named
      obtain ⟨s, kept, same⟩ := List.mem_map.1 named
      have inactive := (List.mem_filter.1 kept).2
      rw [Bool.and_eq_true, Bool.not_eq_true', same] at inactive
      exact inactive.1

/-- After a comparison every changed element has a cue: it had one already or got one. -/
theorem active_of_changed {t : CueTracker} {previous current : Document} {now : Double} {s : Spot}
    (mem : s ∈ current.spots) (changed : s.changed previous.spots t.tolerance = true) :
    (t.act (.record (some previous) current now)).isActive s.name = true := by
  have after : (t.act (.record (some previous) current now)).activeNames =
      (t.prune now).activeNames ++ (detectChanges (some previous.spots) current.spots now
        (t.prune now).activeNames t.tolerance).map Cue.name := List.map_append
  rw [isActive, after, List.contains_iff_mem, List.mem_append]
  by_cases active : s.name ∈ (t.prune now).activeNames
  · exact .inl active
  · right
    rw [names_detectChanges]
    refine List.mem_map_of_mem (List.mem_filter.2 ⟨mem, ?_⟩)
    rw [changed, Bool.and_true, Bool.not_eq_true', List.contains_eq_mem]
    exact decide_eq_false active

/-! ### Runs -/

theorem run_keeps_settings (t : CueTracker) (actions : List CueAction) :
    (t.run actions).duration = t.duration ∧ (t.run actions).tolerance = t.tolerance := by
  induction actions using List.reverseRecOn with
  | nil => exact ⟨rfl, rfl⟩
  | append_singleton ran a ih =>
      rw [run_concat, duration_act, tolerance_act]
      exact ih

/-- From a tracker without cues on, a cue runs exactly if an action started it and every action
since then left it. -/
theorem mem_cues_run_iff {t : CueTracker} (fresh : t.cues = []) {actions : List CueAction}
    {c : Cue} :
    c ∈ (t.run actions).cues ↔
      ∃ before a later, actions = before ++ a :: later ∧ c ∈ (t.run before).started a ∧
        ∀ b ∈ later, b.leaves t.duration c = true := by
  -- The last action is the one that started the cue, or it comes after that one.
  induction actions using List.reverseRecOn with
  | nil => simp [run, fresh]
  | append_singleton ran last ih =>
      rw [run_concat, cues_act, List.mem_append, List.mem_filter, ih,
        (t.run_keeps_settings ran).1]
      constructor
      · rintro (⟨⟨before, a, later, rfl, start, left⟩, leaves⟩ | start)
        · refine ⟨before, a, later ++ [last], by simp, start, fun b mem => ?_⟩
          rcases List.mem_append.1 mem with earlier | now
          · exact left b earlier
          · rw [List.mem_singleton.1 now]
            exact leaves
        · exact ⟨ran, last, [], rfl, start, fun b mem => absurd mem List.not_mem_nil⟩
      · rintro ⟨before, a, later, split, start, left⟩
        cases later using List.reverseRecOn with
        | nil =>
            obtain ⟨rfl, same⟩ := List.append_inj' split rfl
            cases same
            exact .inr start
        | append_singleton later b =>
            rw [← List.cons_append, ← List.append_assoc] at split
            obtain ⟨rfl, same⟩ := List.append_inj' split rfl
            cases same
            exact .inl ⟨⟨before, a, later, rfl, start, fun b' mem =>
              left b' (List.mem_append_left _ mem)⟩, left last List.mem_concat_self⟩

end CueTracker

/-! ### Recent changes -/

/-- No element before has the name of an element, or the first one of the name lies further from it
than a tolerance on an axis. -/
def Component.NewOrMoved (before : List Component) (tolerance : Double) (e : Component) : Prop :=
  (∀ old ∈ before, old.name ≠ e.name) ∨
    ∃ above old below, before = above ++ old :: below ∧ (∀ other ∈ above, other.name ≠ e.name) ∧
      old.name = e.name ∧
      (tolerance.lt (e.position.visibility - old.position.visibility).abs = true ∨
        tolerance.lt (e.position.maturity - old.position.maturity).abs = true)

/-- These are the elements that a comparison finds changed. -/
theorem Component.NewOrMoved.changed {before : List Component} {tolerance : Double} {e : Component}
    (h : e.NewOrMoved before tolerance) :
    e.spot.changed (before.map Component.spot) tolerance = true := by
  rcases h with new | ⟨above, old, below, rfl, others, named, moved⟩
  · have absent : (before.map Component.spot).find? (·.name = e.spot.name) = none := by
      rw [List.find?_eq_none]
      intro s mem
      obtain ⟨old, hold, rfl⟩ := List.mem_map.1 mem
      rw [decide_eq_true_eq]
      exact new old hold
    rw [Spot.changed, absent]
  · have first : ((above ++ old :: below).map Component.spot).find? (·.name = e.spot.name) =
        some old.spot := by
      rw [List.map_append, List.map_cons]
      have apart : ∀ s ∈ above.map Component.spot, s.name ≠ old.spot.name := by
        intro s mem
        obtain ⟨other, hother, rfl⟩ := List.mem_map.1 mem
        rw [show old.spot.name = e.name from named]
        exact others other hother
      exact find?_name_of_first apart named.symm
    rw [Spot.changed, first]
    exact Bool.or_eq_true_iff.2 moved

/-- After any record, prune, sample and clear calls at any times, a name has a running cue exactly
if one of the comparisons since the last clearing started a cue of this name, and at no later time
of a comparison, prune or sample had its age reached the duration. A comparison with a document
leaves every element that is new or has moved with a running cue, and it starts none for a name
whose cue is still running at its time. -/
theorem active_iff_changed_recently (duration tolerance : Double) (actions : List CueAction) :
    let fresh : CueTracker := { duration, tolerance }
    let t := fresh.run actions
    (∀ name, t.isActive name = true ↔
      ∃ before previous current start later,
        actions = before ++ .record previous current start :: later ∧
        (∃ c ∈ ((fresh.run before).record previous current start).2,
          c.name = name ∧ c.start = start) ∧
        .clear ∉ later ∧
        ∀ a ∈ later, ∀ now, a.time? = some now → duration.le (now - start) = false) ∧
    (∀ (previous current : Document) (now : Double), ∀ e ∈ current.elements,
      e.NewOrMoved previous.elements tolerance →
        (t.record (some previous) current now).1.isActive e.name = true) ∧
    ∀ (previous : Option Document) (current : Document) (now : Double),
      ∀ c ∈ (t.record previous current now).2, (t.prune now).isActive c.name = false := by
  intro fresh t
  refine ⟨fun name => ?_, fun previous current now e mem changed => ?_,
    fun previous current now c mem => CueTracker.not_active_of_started mem⟩
  · rw [CueTracker.isActive_iff]
    constructor
    · rintro ⟨c, running, rfl⟩
      obtain ⟨before, a, later, split, start, left⟩ := (CueTracker.mem_cues_run_iff rfl).1 running
      cases a with
      | record previous current now =>
          have time : c.start = now := start_of_mem_detectChanges start
          refine ⟨before, previous, current, now, later, split, ⟨c, start, rfl, time⟩,
            fun mem => ?_, fun a mem => ?_⟩
          · exact (CueAction.leaves_iff.1 (left _ mem)).1 rfl
          · rw [← time]
            exact (CueAction.leaves_iff.1 (left a mem)).2
      | prune now => cases start
      | sample now => cases start
      | clear => cases start
    · rintro ⟨before, previous, current, now, later, split, ⟨c, start, rfl, time⟩, uncleared,
        young⟩
      refine ⟨c, (CueTracker.mem_cues_run_iff rfl).2 ⟨before, _, later, split, start, ?_⟩, rfl⟩
      intro a mem
      rw [CueAction.leaves_iff, time]
      exact ⟨fun clear => uncleared (clear ▸ mem), young a mem⟩
  · have same : t.tolerance = tolerance := (fresh.run_keeps_settings actions).2
    exact CueTracker.active_of_changed (s := e.spot) (List.mem_map_of_mem mem)
      (same ▸ changed.changed)

/-- Here time goes back twice: a cue that is young at all times runs on, and one that was ended does
not come back. -/
theorem active_iff_changed_recently_turnedBack :
    let cup : Component :=
      { line := 1, name := "Cup".toList, position := { visibility := 0.5, maturity := 0.5 } }
    let doc : Document := { elements := [cup] }
    let fresh : CueTracker := { duration := standardDuration, tolerance := standardTolerance }
    let young : List CueAction := [.record (some {}) doc 1, .sample 1.5, .prune 0.25]
    cup.NewOrMoved [] standardTolerance ∧
      (fresh.record (some {}) doc 1).1.isActive cup.name = true ∧
      (fresh.run young).isActive cup.name = true ∧
      (fresh.run (young ++ [.prune 2, .sample 1.5])).isActive cup.name = false := by
  intro cup doc fresh young
  have new : cup.NewOrMoved [] standardTolerance :=
    .inl fun old mem => absurd mem List.not_mem_nil
  have history := active_iff_changed_recently standardDuration standardTolerance
  refine ⟨new, (history []).2.1 {} doc 1 cup List.mem_cons_self new, ?_, by decide +kernel⟩
  refine ((history young).1 cup.name).2 ⟨[], some {}, doc, 1, [.sample 1.5, .prune 0.25], rfl,
    ⟨{ name := cup.name, start := 1, isNew := true }, by decide +kernel, rfl, rfl⟩, by simp, ?_⟩
  intro a mem now time
  -- The ages at the two times are a half and less than nothing.
  rcases List.mem_cons.1 mem with rfl | mem
  · rw [← Option.some.inj time]
    decide +kernel
  · rw [List.mem_singleton.1 mem] at time
    rw [← Option.some.inj time]
    decide +kernel

end WardleyMaps
