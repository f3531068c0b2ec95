/-
Module: WardleyMaps.Proofs.Session.Announced
Purpose: What is announced while an action runs is the text that is there at its end.
Main exports: Action.rewrites, rewrote, Outcome.AnnouncesNewest, announced_newest
-/
import WardleyMaps.Proofs.Session.Attempt
import WardleyMaps.Proofs.Session.Outcome

namespace WardleyMaps

open Text

/-!
An action announces the text in its second part, as it then is, or it announces the text that is
there already and is over at once. While second parts are done, from the innermost action to the
outermost, no text is replaced any more. So whatever is announced in the course of an action is its
last text, once for every action that rewrote the text with success.
-/

/-- Whether an action is one that rewrites the text by itself, so that those who show the text must
be told of it. Typing is none: the text comes from those who show it. -/
def Action.rewrites : Action → Bool
  | .move _ _ | .drag _ _ | .evolve _ _ | .openFile _ | .reload | .fileChanged => true
  | _ => false

/-- Whether the result of an action is success. -/
def succeeded : Except Fault Answer → Bool
  | .ok (.flag true) => true
  | _ => false

/-- Whether an action that came to an end rewrote the text with success. -/
def rewrote (entry : Action × Except Fault Answer) : Bool :=
  entry.1.rewrites && succeeded entry.2

theorem succeeded_iff {result : Except Fault Answer} :
    succeeded result = true ↔ result = .ok (.flag true) := by
  unfold succeeded
  split
  · exact iff_of_true rfl rfl
  · next other => exact iff_of_false nofun other

/-! ### One action -/

/-- The actions that rewrite the text are those that announce it at their end. -/
theorem Action.rewrites_eq {a : Action} {closing : Closing} (replaces : a.closing? = some closing) :
    a.rewrites = closing.announces := by
  cases a <;> cases replaces <;> rfl

theorem Action.rewrites_of_aside {a : Action} (aside : a.closing? = none) : a.rewrites = false := by
  cases a with
  | setText | move | drag | evolve | openFile | reload | fileChanged => cases aside
  | _ => rfl

/-- An action that is brought to its end rewrote the text if its second part announces it. -/
theorem rewrote_finish {a : Action} {closing : Closing} (same : a.rewrites = closing.announces)
    (w : Workspace) : rewrote (a, .ok (closing.finish w).2.2) = closing.announces := by
  rw [rewrote, same]
  cases announces : closing.announces with
  | false => rfl
  | true => rw [(closing.answer_finish w).2 announces]; rfl

namespace Workspace

variable {w : Workspace} {a : Action}

/-- What is announced by an action that is over at once. -/
theorem announced_ended {result : Except Fault Answer} (phase : (w.begin a).phase = .ended result) :
    announced (w.begin a).outputs =
      List.replicate (rewrote (a, result)).toNat (w.begin a).workspace.session.text := by
  cases replaces : a.closing? with
  | none =>
      rw [(w.begin_aside replaces).1, rewrote, Action.rewrites_of_aside replaces]
      rfl
  | some closing =>
      cases w.begin_attempt replaces with
      | refused result' phase' kept silent refusal readable =>
          cases phase.symm.trans phase'
          have failed : succeeded result = false := by
            rw [← Bool.not_eq_true, succeeded_iff]
            exact refusal
          rw [silent, rewrote, failed, Bool.and_false]
          rfl
      | again phase' finished announces =>
          cases phase.symm.trans phase'
          rw [announces, closing.announced_finish, finished, closing.finish_session,
            rewrote_finish (Action.rewrites_eq replaces)]
      | unread t e unreadable phase' silent taken =>
          cases phase.symm.trans phase'
          have failed : succeeded (.error (.number e)) = false := rfl
          rw [silent, rewrote, failed, Bool.and_false]
          rfl
      | told phase' silent => cases phase.symm.trans phase'

/-- Nothing is announced before listeners hear of a document, and the action announces the text at
its end if it is one that rewrites the text. -/
theorem announced_telling {closing : Closing} (phase : (w.begin a).phase = .telling closing) :
    announced (w.begin a).outputs = [] ∧ a.rewrites = closing.announces := by
  cases replaces : a.closing? with
  | none =>
      obtain ⟨silent, only⟩ := w.begin_aside replaces
      cases only closing phase
      exact ⟨silent, Action.rewrites_of_aside replaces⟩
  | some closing' =>
      cases w.begin_attempt replaces with
      | refused result phase' kept silent refusal readable => cases phase.symm.trans phase'
      | again phase' finished announces => cases phase.symm.trans phase'
      | unread t e failed phase' silent taken => cases phase.symm.trans phase'
      | told phase' silent =>
          cases phase.symm.trans phase'
          exact ⟨silent, Action.rewrites_eq replaces⟩

end Workspace

/-! ### Whole runs -/

/-- What is announced is the text at the end, once for each action that rewrote it. -/
def Outcome.AnnouncesNewest (o : Outcome) : Prop :=
  announced o.outputs = List.replicate (o.done.countP rewrote) o.workspace.session.text

/-- An action that is brought to its end announces the text that is there, as the actions did that
listeners took up meanwhile. -/
theorem Outcome.AnnouncesNewest.resume {heard : Outcome} (h : heard.AnnouncesNewest)
    {closing : Closing} {a : Action} {before : List Output} (silent : announced before = [])
    (same : a.rewrites = closing.announces) :
    (closing.resume a before heard).AnnouncesNewest := by
  cases result : heard.result with
  | error fault =>
      have none : [(a, Except.error fault)].countP rewrote = 0 := by
        simp [rewrote, succeeded]
      rw [closing.resume_error result, AnnouncesNewest, List.countP_append, none, Nat.add_zero,
        announced_append, announced_append, silent, closing.announced_abandon, List.nil_append,
        List.append_nil, h]
  | ok answer =>
      have one (w : Workspace) :
          [(a, Except.ok (closing.finish w).2.2)].countP rewrote = closing.announces.toNat := by
        rw [List.countP_singleton, rewrote_finish same]
        cases closing.announces <;> rfl
      rw [closing.resume_ok result, AnnouncesNewest, List.countP_append, one, announced_append,
        announced_append, silent, closing.announced_finish, closing.finish_session,
        List.nil_append, h, List.replicate_append_replicate]

/-- What is announced in the course of an action is the text at its end. -/
theorem Workspace.run_announcesNewest (w : Workspace) (queue : List Action) (a : Action) :
    (w.run queue a).AnnouncesNewest := by
  apply run_induction
  · intro w
    rfl
  · intro w queue a result phase
    rw [run_ended phase, Outcome.AnnouncesNewest, announced_ended phase, List.countP_singleton]
    cases rewrote (a, result) <;> rfl
  · intro w a closing heard phase h
    obtain ⟨silent, same⟩ := announced_telling phase
    exact h.resume silent same

/-- Whatever is announced in the course of an action, by the action itself or by those that
listeners take up at any depth, is the text that the session has at its end. It is announced once
for each of these actions that rewrote the text with success. So the last that listeners hear is the
newest text. -/
theorem announced_newest (w : Workspace) (queue actions : List Action) :
    ∀ o ∈ w.runAll queue actions,
      announced o.outputs =
        List.replicate (o.done.countP rewrote) o.workspace.session.text ∧
      (announced o.outputs ≠ [] →
        (announced o.outputs).getLast? = some o.workspace.session.text) := by
  intro o mem
  obtain ⟨w', queue', a, -, rfl⟩ := Workspace.exists_run_of_mem_runAll mem
  have newest := w'.run_announcesNewest queue' a
  rw [Outcome.AnnouncesNewest] at newest
  refine ⟨newest, fun some => ?_⟩
  rw [newest, ne_eq, List.replicate_eq_nil_iff] at some
  rw [newest, List.getLast?_replicate, if_neg some]

/-- Here a component is moved while listeners hear that it was moved elsewhere. -/
theorem announced_newest_nested :
    let moved : Text := "component Cup [0.25, 0.50]".toList
    let actions : List Action :=
      [.setText "component Cup [0.5, 0.5]".toList,
        .leave (.move "Cup".toList { visibility := 0.25, maturity := 0.5 }),
        .move "Cup".toList { visibility := 0.75, maturity := 0.5 }]
    ∃ o ∈ (Workspace.start {} { nodes := [] } 0 true).runAll [] actions,
      announced o.outputs = [moved, moved] ∧
      o.workspace.session.text = moved ∧
      (announced o.outputs).getLast? = some o.workspace.session.text := by
  intro moved actions
  let start := Workspace.start {} { nodes := [] } 0 true
  let typed := start.run [] actions[0]
  let left := typed.workspace.run typed.queue actions[1]
  let o := left.workspace.run left.queue actions[2]
  have mem : o ∈ start.runAll [] actions := by
    simp [Workspace.runAll, actions, o, left, typed]
  have told : announced o.outputs = [moved, moved] := by decide +kernel
  refine ⟨o, mem, told, by decide +kernel, (announced_newest start [] actions o mem).2 ?_⟩
  rw [told]
  exact List.cons_ne_nil _ _

end WardleyMaps
