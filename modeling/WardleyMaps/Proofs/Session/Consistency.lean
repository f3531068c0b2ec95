/-
Module: WardleyMaps.Proofs.Session.Consistency
Purpose: A session stays in step with the documents that its listeners hear of, over whole runs.
Main exports: Session.InStep, Underway, Underway.Step, Underway.Reaches, Underway.Consistent,
  Underway.Consistent.reaches, Underway.Carries, Underway.Carries.runAll, consistent_of_every_run
-/
import Mathlib.Control.Monad.Basic
import Mathlib.Logic.Relation
import WardleyMaps.Proofs.Session.Effect
import WardleyMaps.Proofs.Session.Outcome

namespace WardleyMaps

open Text

/-!
While listeners hear of a document they may act on the session, and while they hear of the document
of such an action they may act again. A run is therefore followed through states that also hold what
the actions that are not over still have to do (`Underway`). In each state the session is in step
with the documents that were told of (`Session.InStep`), and so was each session that listeners saw.
The actions that the model runs to their end are such runs, whatever else is asked of the steps of a
run (`Underway.Carries.runAll`).
-/

/-! ### A session in step with what was told -/

/-- A session in step with the sessions that listeners saw: its document is that of its text, its
revision counts what they saw, and its previous document is the one of the revision before the
current one. The documents of the revisions are the ones that were seen, beginning with revision
one. -/
structure Session.InStep (told : List Session) (s : Session) : Prop where
  read : Document.read s.text = .ok s.document
  revision : s.revision = told.length
  loaded : s.loaded = true ↔ 0 < s.revision
  current : ∀ t, told[s.revision - 1]? = some t → s.document = t.document
  first : s.revision ≤ 1 → s.previous = none
  later : 1 < s.revision → s.previous = told[s.revision - 2]?.map (·.document)

namespace Session.InStep

variable {told : List Session} {s t : Session}

/-- Only the map matters. -/
theorem of_sameMap (h : s.InStep told) (same : s.SameMap t) : t.InStep told where
  read := by rw [same.text, same.document, h.read]
  revision := by rw [same.revision, h.revision]
  loaded := by rw [same.revision, same.loaded, h.loaded]
  current := by
    rw [same.revision, same.document]
    exact h.current
  first := by
    rw [same.revision, same.previous]
    exact h.first
  later := by
    rw [same.revision, same.previous]
    exact h.later

/-- After nothing was told, the previous document of what is accepted is none. -/
theorem previous_of_first (h : s.InStep told) (accepts : s.Accepts t) (none_told : s.revision = 0) :
    t.previous = none := by
  have unloaded : ¬ s.loaded = true := fun loaded => by
    have := h.loaded.1 loaded
    omega
  rw [accepts.previous, if_neg unloaded]

/-- Otherwise it is the document that was told of last. -/
theorem previous_of_later (h : s.InStep told) (accepts : s.Accepts t) (some_told : 0 < s.revision) :
    t.previous = told[s.revision - 1]?.map (·.document) := by
  have inside : s.revision - 1 < told.length := by
    have := h.revision
    omega
  have last : told[s.revision - 1]? = some told[s.revision - 1] := List.getElem?_eq_getElem inside
  rw [accepts.previous, if_pos (h.loaded.2 some_told), h.current _ last, last, Option.map_some]

/-- A session that accepted a document is in step once it was seen. -/
theorem accept (h : s.InStep told) (accepts : s.Accepts t) : t.InStep (told ++ [t]) where
  read := accepts.read
  revision := by rw [accepts.revision, h.revision, List.length_append, List.length_singleton]
  loaded := by simp [accepts.loaded, accepts.revision]
  current := by
    intro u hu
    have last : (told ++ [t])[t.revision - 1]? = some t := by
      rw [accepts.revision, Nat.add_sub_cancel, h.revision, List.getElem?_concat_length]
    rw [last] at hu
    cases hu
    rfl
  first := by
    intro bound
    rw [accepts.revision] at bound
    exact h.previous_of_first accepts (by omega)
  later := by
    intro bound
    rw [accepts.revision] at bound ⊢
    rw [h.previous_of_later accepts (by omega)]
    have inside : s.revision - 1 < told.length := by
      have := h.revision
      omega
    rw [show s.revision + 1 - 2 = s.revision - 1 by omega, List.getElem?_append_left inside]

end Session.InStep

/-- Reading nothing gives the empty document. -/
theorem Document.read_nil : Document.read [] = .ok {} := by
  decide +kernel

/-- A session at the start is in step with nothing. -/
theorem Session.inStep_start (settings : Settings) (directory : Directory) (clock : Double)
    (monitored : Bool) :
    (Workspace.start settings directory clock monitored).session.InStep [] where
  read := Document.read_nil
  revision := rfl
  loaded := by simp [Workspace.start]
  current := by simp
  first := fun _ => rfl
  later := by simp [Workspace.start]

/-! ### Runs -/

/-- A run under way: the workspace, what the actions that are not over still have to do, with the
innermost first, and the outputs so far. -/
structure Underway where
  workspace : Workspace
  pending : List Closing
  outputs : List Output

namespace Underway

/-- A run at its start. -/
def start (settings : Settings) (directory : Directory) (clock : Double) (monitored : Bool) :
    Underway :=
  { workspace := .start settings directory clock monitored, pending := [], outputs := [] }

/-- One step of a run. An action may be over at once, or tell of a document; then listeners may act
any number of times until they let it go on or a fault of theirs takes the place of its second
part. -/
inductive Step : Underway → Underway → Prop where
  | done (u : Underway) (a : Action) (result : Except Fault Answer) (late : a.CommitsLate)
      (phase : (u.workspace.begin a).phase = .ended result)
      (parsed : metUnreadable result = false) :
      Step u
        { workspace := (u.workspace.begin a).workspace
          pending := u.pending
          outputs := u.outputs ++ (u.workspace.begin a).outputs }
  | tell (u : Underway) (a : Action) (closing : Closing) (late : a.CommitsLate)
      (phase : (u.workspace.begin a).phase = .telling closing) :
      Step u
        { workspace := (u.workspace.begin a).workspace
          pending := closing :: u.pending
          outputs := u.outputs ++ (u.workspace.begin a).outputs }
  | finish (w : Workspace) (closing : Closing) (pending : List Closing) (outputs : List Output) :
      Step { workspace := w, pending := closing :: pending, outputs }
        { workspace := (closing.finish w).1, pending, outputs := outputs ++ (closing.finish w).2.1 }
  | abandon (w : Workspace) (closing : Closing) (pending : List Closing) (outputs : List Output)
      (f : Fault) :
      Step { workspace := w, pending := closing :: pending, outputs }
        { workspace := w, pending, outputs := outputs ++ closing.abandon f }

/-- Any number of steps. -/
def Reaches : Underway → Underway → Prop :=
  Relation.ReflTransGen Step

theorem Reaches.trans {u v r : Underway} (first : u.Reaches v) (second : v.Reaches r) :
    u.Reaches r :=
  Relation.ReflTransGen.trans first second

/-- What listeners heard of so far. -/
def heard (u : Underway) : List Session :=
  WardleyMaps.heard u.outputs

/-- The session is in step with what listeners saw, and each session that they saw was in step with
what they had seen by then. -/
structure Consistent (u : Underway) : Prop where
  now : u.workspace.session.InStep u.heard
  told : ∀ (i : Nat) (s : Session), u.heard[i]? = some s → s.InStep (u.heard.take (i + 1))

variable {u v : Underway}

/-- What was heard is not taken back by a step. -/
theorem Step.heard_prefix (step : u.Step v) : u.heard <+: v.heard := by
  cases step with
  | done _ a result late phase parsed => exact ⟨_, (heard_append _ _).symm⟩
  | tell _ a closing late phase => exact ⟨_, (heard_append _ _).symm⟩
  | finish w closing pending outputs => exact ⟨_, (heard_append _ _).symm⟩
  | abandon w closing pending outputs f => exact ⟨_, (heard_append _ _).symm⟩

/-- Nothing new was heard, and the map is the same. -/
theorem Consistent.of_silent (h : u.Consistent) (silent : v.heard = u.heard)
    (same : u.workspace.session.SameMap v.workspace.session) : v.Consistent where
  now := by
    rw [silent]
    exact h.now.of_sameMap same
  told := by
    rw [silent]
    exact h.told

/-- A document was accepted, and listeners heard of it once. -/
theorem Consistent.of_told (h : u.Consistent)
    (once : v.heard = u.heard ++ [v.workspace.session])
    (accepts : u.workspace.session.Accepts v.workspace.session) : v.Consistent where
  now := by
    rw [once]
    exact h.now.accept accepts
  told := by
    intro i s hs
    rw [once] at hs ⊢
    rcases Nat.lt_trichotomy i u.heard.length with before | last | beyond
    · -- The session was seen before, so what came before it is unchanged.
      rw [List.getElem?_append_left before] at hs
      rw [List.take_append_of_le_length before]
      exact h.told i s hs
    · subst last
      rw [List.getElem?_concat_length] at hs
      cases hs
      rw [List.take_of_length_le (by simp)]
      exact h.now.accept accepts
    · rw [List.getElem?_eq_none (by rw [List.length_append, List.length_singleton]; omega)] at hs
      cases hs

/-- A step keeps the session in step. -/
theorem Consistent.step (h : u.Consistent) (step : u.Step v) : v.Consistent := by
  cases step with
  | done _ a result late phase parsed =>
      cases u.workspace.begin_effect late with
      | kept result' phase' silent same =>
          refine h.of_silent ?_ same
          rw [heard, heard_append, silent, List.append_nil, heard]
      | told closing phase' once accepts =>
          rw [phase] at phase'
          cases phase'
      | unread result' phase' met =>
          rw [phase] at phase'
          cases phase'
          rw [parsed] at met
          cases met
  | tell _ a closing late phase =>
      cases u.workspace.begin_effect late with
      | kept result phase' silent same =>
          rw [phase] at phase'
          cases phase'
      | told closing' phase' once accepts =>
          refine h.of_told ?_ accepts
          rw [heard, heard_append, once, heard]
      | unread result phase' met =>
          rw [phase] at phase'
          cases phase'
  | finish w closing pending outputs =>
      refine h.of_silent ?_ (.of_eq (closing.finish_session w))
      rw [heard, heard_append, closing.heard_finish, List.append_nil, heard]
  | abandon w closing pending outputs f =>
      refine h.of_silent ?_ (.refl w.session)
      rw [heard, heard_append, closing.heard_abandon, List.append_nil, heard]

/-- Any number of steps keep the session in step. -/
theorem Consistent.reaches (h : u.Consistent) (run : u.Reaches v) : v.Consistent := by
  induction run with
  | refl => exact h
  | tail _ step ih => exact ih.step step

/-- What was heard is not taken back by a run. -/
theorem Reaches.heard_prefix (run : u.Reaches v) : u.heard <+: v.heard := by
  induction run with
  | refl => exact List.prefix_rfl
  | tail _ step ih => exact ih.trans step.heard_prefix

/-- A run at its start is consistent. -/
theorem consistent_start (settings : Settings) (directory : Directory) (clock : Double)
    (monitored : Bool) : (start settings directory clock monitored).Consistent where
  now := Session.inStep_start settings directory clock monitored
  told := by
    intro i s hs
    cases hs

/-- The revision of a consistent run never decreases. -/
theorem Consistent.revision_le (h : u.Consistent) (run : u.Reaches v) :
    u.workspace.session.revision ≤ v.workspace.session.revision := by
  rw [h.now.revision, (h.reaches run).now.revision]
  exact run.heard_prefix.length_le

end Underway

/-! ### The runs of the model -/

/-- No text that could not be read was met in an action or in those that listeners took up. -/
def Outcome.Parsed (o : Outcome) : Prop :=
  ∀ entry ∈ o.done, metUnreadable entry.2 = false

instance (o : Outcome) : Decidable o.Parsed :=
  inferInstanceAs (Decidable (∀ entry ∈ o.done, metUnreadable entry.2 = false))

/-- What is still to be done after an action began. -/
def Phase.push (pending : List Closing) : Phase → List Closing
  | .ended _ => pending
  | .telling closing => closing :: pending

namespace Underway

/-- A run in which an action began. -/
def begun (u : Underway) (a : Action) : Underway where
  workspace := (u.workspace.begin a).workspace
  pending := (u.workspace.begin a).phase.push u.pending
  outputs := u.outputs ++ (u.workspace.begin a).outputs

/-- A relation that leads from each state of a run of the model to the later ones, if only such
actions begin in it and those that are over at once end so. -/
structure Carries (R : Underway → Underway → Prop) (allowed : Action → Prop)
    (ends : Except Fault Answer → Prop) : Prop where
  trans : ∀ {u v r : Underway}, R u v → R v r → R u r
  left : ∀ {a : Action}, allowed (.leave a) → allowed a
  begins : ∀ (u : Underway) (a : Action), allowed a →
    (∀ result, (u.workspace.begin a).phase = .ended result → ends result) → R u (u.begun a)
  finishes : ∀ (w : Workspace) (closing : Closing) (pending : List Closing) (outputs : List Output),
    R { workspace := w, pending := closing :: pending, outputs }
      { workspace := (closing.finish w).1, pending, outputs := outputs ++ (closing.finish w).2.1 }
  abandons : ∀ (w : Workspace) (closing : Closing) (pending : List Closing) (outputs : List Output)
    (f : Fault),
    R { workspace := w, pending := closing :: pending, outputs }
      { workspace := w, pending, outputs := outputs ++ closing.abandon f }

namespace Carries

variable {R : Underway → Underway → Prop} {allowed : Action → Prop}
  {ends : Except Fault Answer → Prop}

/-- The rest of an action is a step from where listeners did what they did. -/
theorem resume (h : Carries R allowed ends) (closing : Closing) (a : Action) (before : List Output)
    (heard : Outcome) (pending : List Closing) (outputs : List Output) :
    R
      { workspace := heard.workspace
        pending := closing :: pending
        outputs := outputs ++ before ++ heard.outputs }
      { workspace := (closing.resume a before heard).workspace
        pending
        outputs := outputs ++ (closing.resume a before heard).outputs } := by
  cases result : heard.result with
  | error f =>
      have step := h.abandons heard.workspace closing pending (outputs ++ before ++ heard.outputs) f
      simpa [closing.resume_error result, List.append_assoc] using step
  | ok answer =>
      have step := h.finishes heard.workspace closing pending (outputs ++ before ++ heard.outputs)
      simpa [closing.resume_ok result, List.append_assoc] using step

/-- An action that the model runs to its end, with what listeners take up meanwhile, is carried
along. It may begin while other actions are not over. -/
theorem run (h : Carries R allowed ends) (w : Workspace) (queue : List Action) (a : Action)
    (queued : ∀ b ∈ queue, allowed b) (own : allowed a)
    (ended : ∀ entry ∈ (w.run queue a).done, ends entry.2) (pending : List Closing)
    (outputs : List Output) :
    R { workspace := w, pending, outputs }
      { workspace := (w.run queue a).workspace
        pending
        outputs := outputs ++ (w.run queue a).outputs } := by
  induction w, queue, a using Workspace.run.induct generalizing pending outputs with
  | case1 w queue a p result phase =>
      rw [Workspace.run_ended phase] at ended ⊢
      have begun := h.begins { workspace := w, pending, outputs } a own fun result' phase' => by
        cases phase.symm.trans phase'
        exact ended _ (List.mem_singleton_self _)
      rw [Underway.begun, phase] at begun
      exact begun
  | case2 w a p closing phase =>
      have begun := h.begins { workspace := w, pending, outputs } a own fun _ phase' => by
        cases phase.symm.trans phase'
      rw [Underway.begun, phase] at begun
      rw [Workspace.run_untaken phase]
      refine h.trans begun ?_
      simpa [Outcome.silent, Phase.push] using
        h.resume closing a p.outputs (.silent p.workspace) pending outputs
  | case3 w a p closing phase next rest ih =>
      have begun := h.begins { workspace := w, pending, outputs } a own fun _ phase' => by
        cases phase.symm.trans phase'
      rw [Underway.begun, phase] at begun
      rw [Workspace.run_taken phase] at ended ⊢
      have inner := ih (fun b mem => queued b (List.mem_cons_of_mem next mem))
        (queued next List.mem_cons_self)
        (fun entry mem => ended entry (closing.done_resume _ _ _ mem)) (closing :: pending)
        (outputs ++ p.outputs)
      exact h.trans begun (h.trans inner (h.resume closing a p.outputs _ pending outputs))

/-- What is left for later after an action was left before, or by an action. -/
theorem queue_run (h : Carries R allowed ends) (w : Workspace) (queue : List Action) (a : Action)
    (queued : ∀ b ∈ queue, allowed b) (own : allowed a) :
    ∀ b ∈ (w.run queue a).queue, allowed b := by
  induction w, queue, a using Workspace.run.induct with
  | case1 w queue a p result phase =>
      rw [Workspace.run_ended phase]
      intro b mem
      cases a with
      | leave later =>
          rcases List.mem_append.1 mem with old | new
          · exact queued b old
          · rw [List.mem_singleton.1 new]
            exact h.left own
      | _ => exact queued b mem
  | case2 w a p closing phase =>
      rw [Workspace.run_untaken phase, closing.queue_resume]
      exact queued
  | case3 w a p closing phase next rest ih =>
      rw [Workspace.run_taken phase, closing.queue_resume]
      exact ih (fun b mem => queued b (List.mem_cons_of_mem next mem))
        (queued next List.mem_cons_self)

/-- Actions that the model runs one after the other are carried along, up to each of their outcomes.
-/
theorem runAll (h : Carries R allowed ends) {actions : List Action}
    (own : ∀ a ∈ actions, allowed a) (w : Workspace) (queue : List Action)
    (queued : ∀ b ∈ queue, allowed b) {before after : List Outcome} {outcome : Outcome}
    (run : w.runAll queue actions = before ++ outcome :: after)
    (ended : ∀ o ∈ before ++ [outcome], ∀ entry ∈ o.done, ends entry.2) (outputs : List Output) :
    R { workspace := w, pending := [], outputs }
      { workspace := outcome.workspace
        pending := []
        outputs := outputs ++ (before ++ [outcome]).flatMap (·.outputs) } := by
  induction actions generalizing w queue before outputs with
  | nil => cases before <;> cases run
  | cons a rest ih =>
      obtain ⟨first, later⟩ := List.forall_mem_cons.1 own
      rw [Workspace.runAll] at run
      cases before with
      | nil =>
          obtain ⟨rfl, -⟩ := List.cons.inj run
          simpa using h.run w queue a queued first (ended _ (List.mem_singleton_self _)) [] outputs
      | cons o before =>
          obtain ⟨rfl, others⟩ := List.cons.inj run
          obtain ⟨here, there⟩ := List.forall_mem_cons.1 ended
          have step := h.run w queue a queued first here [] outputs
          have steps := ih later _ _ (h.queue_run w queue a queued first) others there
            (outputs ++ (w.run queue a).outputs)
          simpa [List.append_assoc] using h.trans step steps

end Carries

/-- The runs of the model are such runs if no text is met that cannot be read. -/
theorem carries_reaches :
    Carries Reaches Action.CommitsLate fun result => metUnreadable result = false where
  trans := Reaches.trans
  left := id
  begins := by
    intro u a late parsed
    rw [begun]
    cases phase : (u.workspace.begin a).phase with
    | ended result => exact .single (.done u a result late phase (parsed result phase))
    | telling closing => exact .single (.tell u a closing late phase)
  finishes := fun w closing pending outputs => .single (.finish w closing pending outputs)
  abandons := fun w closing pending outputs f => .single (.abandon w closing pending outputs f)

end Underway

/-- In every run from the start, with whatever listeners do while they hear of a document, the
session and each session that listeners saw are in step with what was told by then, and the revision
never decreases. After each action that the model runs to its end it is so. -/
theorem consistent_of_every_run (settings : Settings) (directory : Directory) (clock : Double)
    (monitored : Bool) :
    (∀ u v : Underway, (Underway.start settings directory clock monitored).Reaches u →
      u.Reaches v →
        v.Consistent ∧ u.workspace.session.revision ≤ v.workspace.session.revision) ∧
    ∀ (actions : List Action) (before after : List Outcome) (outcome : Outcome),
      (∀ a ∈ actions, a.CommitsLate) →
      (Workspace.start settings directory clock monitored).runAll [] actions =
        before ++ outcome :: after →
      (∀ o ∈ before ++ [outcome], o.Parsed) →
        let u : Underway :=
          { workspace := outcome.workspace
            pending := []
            outputs := (before ++ [outcome]).flatMap (·.outputs) }
        (Underway.start settings directory clock monitored).Reaches u ∧ u.Consistent := by
  have start := Underway.consistent_start settings directory clock monitored
  constructor
  · intro u v before after
    exact ⟨start.reaches (before.trans after), (start.reaches before).revision_le after⟩
  · intro actions before after outcome lates run parsed u
    have reaches : (Underway.start settings directory clock monitored).Reaches u :=
      Underway.carries_reaches.runAll lates _ [] (by simp) run parsed []
    exact ⟨reaches, start.reaches reaches⟩

/-- Here listeners set another text while they hear of the first document. -/
theorem consistent_of_every_run_nested :
    let component (name : Text) (maturity : Double) : Document :=
      { elements := [{ line := 1, name, position := { visibility := 0.5, maturity } }] }
    let actions : List Action :=
      [.leave (.setText "component Kettle [0.5, 0.25]".toList),
        .setText "component Cup [0.5, 0.75]".toList]
    ∃ first second : Outcome,
      (Workspace.start {} { nodes := [] } 0 true).runAll [] actions = [first, second] ∧
      second.workspace.session.revision = 2 ∧
      second.workspace.session.document = component "Kettle".toList 0.25 ∧
      second.workspace.session.previous = some (component "Cup".toList 0.75) ∧
      Underway.Consistent
        { workspace := second.workspace
          pending := []
          outputs := first.outputs ++ second.outputs } := by
  intro component actions
  let start := Workspace.start {} { nodes := [] } 0 true
  let first := start.run [] actions[0]
  let second := first.workspace.run first.queue actions[1]
  refine ⟨first, second, rfl, by decide +kernel, by decide +kernel, by decide +kernel, ?_⟩
  have parsed : ∀ o ∈ [first] ++ [second], o.Parsed := by decide +kernel
  have lates : ∀ a ∈ actions, a.CommitsLate := by simp [actions, Action.CommitsLate]
  have told := ((consistent_of_every_run {} { nodes := [] } 0 true).2 actions [first] [] second
    lates rfl parsed).2
  simpa using told

end WardleyMaps
