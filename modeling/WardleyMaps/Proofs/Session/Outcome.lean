/-
Module: WardleyMaps.Proofs.Session.Outcome
Purpose: How the outcome of an action is put together, and what holds of every outcome.
Main exports: Workspace.run_induction, Workspace.done_run, Workspace.exists_run_of_mem_runAll
-/
import WardleyMaps.Session.Run

namespace WardleyMaps

/-!
An action is over at once, or listeners hear of its document, do what they do, and then it is
brought to its end. What holds of listeners that do nothing and of actions that are over at once,
and is kept when an action is brought to its end, holds of every outcome
(`Workspace.run_induction`).
-/

/-! ### The rest of an action -/

/-- What came to an end while listeners acted belongs to the whole action. -/
theorem Closing.done_resume (closing : Closing) (a : Action) (before : List Output)
    (heard : Outcome) : heard.done ⊆ (closing.resume a before heard).done := by
  intro entry hentry
  rw [Closing.resume]
  split
  · exact List.mem_append_left _ hentry
  · exact List.mem_append_left _ hentry

/-- What is left for later is what listeners left. -/
theorem Closing.queue_resume (closing : Closing) (a : Action) (before : List Output)
    (heard : Outcome) : (closing.resume a before heard).queue = heard.queue := by
  rw [Closing.resume]
  split <;> rfl

/-- The rest of an action after listeners met a fault. -/
theorem Closing.resume_error {heard : Outcome} {fault : Fault}
    (raised : heard.result = .error fault)
    (closing : Closing) (a : Action) (before : List Output) :
    closing.resume a before heard =
      { heard with
        outputs := before ++ heard.outputs ++ closing.abandon fault
        done := heard.done ++ [(a, .error fault)] } := by
  rw [Closing.resume, raised]

/-- The rest of an action after listeners did what they did. -/
theorem Closing.resume_ok {heard : Outcome} {answer : Answer} (fine : heard.result = .ok answer)
    (closing : Closing) (a : Action) (before : List Output) :
    closing.resume a before heard =
      { workspace := (closing.finish heard.workspace).1
        queue := heard.queue
        outputs := before ++ heard.outputs ++ (closing.finish heard.workspace).2.1
        result := .ok (closing.finish heard.workspace).2.2
        done := heard.done ++ [(a, .ok (closing.finish heard.workspace).2.2)] } := by
  rw [Closing.resume, fine]

/-! ### Whole actions -/

namespace Workspace

variable {w : Workspace} {queue : List Action} {a : Action}

/-- An action that is over at once. -/
theorem run_ended {result : Except Fault Answer} (phase : (w.begin a).phase = .ended result) :
    w.run queue a =
      { workspace := (w.begin a).workspace
        queue := a.leftBy queue
        outputs := (w.begin a).outputs
        result
        done := [(a, result)] } := by
  rw [run]
  simp only [phase]

/-- An action that tells of a document when nothing is left to the listeners. -/
theorem run_untaken {closing : Closing} (phase : (w.begin a).phase = .telling closing) :
    w.run [] a = closing.resume a (w.begin a).outputs (.silent (w.begin a).workspace) := by
  rw [run]
  simp only [phase]

/-- An action that tells of a document when something is left to the listeners. -/
theorem run_taken {closing : Closing} (phase : (w.begin a).phase = .telling closing)
    (next : Action) (rest : List Action) :
    w.run (next :: rest) a =
      closing.resume a (w.begin a).outputs ((w.begin a).workspace.run rest next) := by
  rw [run]
  simp only [phase]

/-- What holds of every outcome: it holds of listeners that do nothing and of an action that is over
at once, and bringing an action to its end keeps it. -/
theorem run_induction {motive : Outcome → Prop} (silent : ∀ w, motive (.silent w))
    (ended : ∀ (w : Workspace) (queue : List Action) (a : Action) (result : Except Fault Answer),
      (w.begin a).phase = .ended result → motive (w.run queue a))
    (resumed : ∀ (w : Workspace) (a : Action) (closing : Closing) (heard : Outcome),
      (w.begin a).phase = .telling closing → motive heard →
        motive (closing.resume a (w.begin a).outputs heard))
    (w : Workspace) (queue : List Action) (a : Action) : motive (w.run queue a) := by
  induction w, queue, a using run.induct with
  | case1 w queue a p result phase => exact ended w queue a result phase
  | case2 w a p closing phase =>
      rw [run_untaken phase]
      exact resumed w a closing _ phase (silent p.workspace)
  | case3 w a p closing phase next rest ih =>
      rw [run_taken phase]
      exact resumed w a closing _ phase ih

/-- The last action that came to an end is the whole one, with the result of the outcome. -/
theorem done_run (w : Workspace) (queue : List Action) (a : Action) :
    (w.run queue a).done = (w.run queue a).done.dropLast ++ [(a, (w.run queue a).result)] := by
  have resume (closing : Closing) (heard : Outcome) :
      (closing.resume a (w.begin a).outputs heard).done =
        (closing.resume a (w.begin a).outputs heard).done.dropLast ++
          [(a, (closing.resume a (w.begin a).outputs heard).result)] := by
    cases result : heard.result with
    | error fault => simp [closing.resume_error result, result]
    | ok answer => simp [closing.resume_ok result]
  cases phase : (w.begin a).phase with
  | ended result => simp [run_ended phase]
  | telling closing =>
      cases queue with
      | nil => rw [run_untaken phase]; exact resume closing _
      | cons next rest => rw [run_taken phase]; exact resume closing _

/-- Each outcome of actions that are run one after the other is that of one of them. -/
theorem exists_run_of_mem_runAll {w : Workspace} {queue : List Action} {actions : List Action}
    {o : Outcome} (mem : o ∈ w.runAll queue actions) :
    ∃ w' queue' a, a ∈ actions ∧ o = Workspace.run w' queue' a := by
  induction actions generalizing w queue with
  | nil => cases mem
  | cons a rest ih =>
      rw [runAll] at mem
      rcases List.mem_cons.1 mem with rfl | later
      · exact ⟨w, queue, a, List.mem_cons_self, rfl⟩
      · obtain ⟨w', queue', b, hb, ran⟩ := ih later
        exact ⟨w', queue', b, List.mem_cons_of_mem a hb, ran⟩

end Workspace

end WardleyMaps
