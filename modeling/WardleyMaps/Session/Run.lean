/-
Module: WardleyMaps.Session.Run
Purpose: Whole actions, with those that listeners take up while an action is under way.
Main exports: Outcome, Workspace.run, Workspace.runAll
-/
import WardleyMaps.Session.Step

namespace WardleyMaps

/-!
When listeners hear of a document they take up the first action that was left to them, if there is
one, and run it to its end. That action may accept a document in turn, of which they hear before the
first action goes on. A fault of the inner action ends the outer one as well. The weight of an
action and of what is left decreases from the outer to the inner action, since what the listeners
take up is no longer left.
-/

/-- The weight of an action; one that is left for later weighs more than when it is taken up. -/
def Action.weight : Action → Nat
  | .leave later => later.weight + 1
  | _ => 1

theorem Action.weight_pos (a : Action) : 0 < a.weight := by
  cases a <;> simp [Action.weight]

/-- The weight of the actions that are left. -/
def totalWeight : List Action → Nat
  | [] => 0
  | a :: rest => a.weight + totalWeight rest

/-- How an action ended: the workspace, the actions that are still left, the outputs in order, an
answer or a fault, and what was done on the way: every action that came to an end, inner ones first,
with its own result. -/
structure Outcome where
  workspace : Workspace
  queue : List Action
  outputs : List Output
  result : Except Fault Answer
  done : List (Action × Except Fault Answer)

/-- The actions that are left after an action began: one may have been added. -/
def Action.leftBy (queue : List Action) : Action → List Action
  | .leave later => queue ++ [later]
  | _ => queue

/-- What listeners do when nothing is left to them. -/
def Outcome.silent (w : Workspace) : Outcome :=
  { workspace := w, queue := [], outputs := [], result := .ok .nothing, done := [] }

/-- The rest of an action after what the listeners did. -/
def Closing.resume (closing : Closing) (a : Action) (before : List Output) (heard : Outcome) :
    Outcome :=
  match heard.result with
  | .error fault =>
      { heard with
        outputs := before ++ heard.outputs ++ closing.abandon fault
        done := heard.done ++ [(a, .error fault)] }
  | .ok _ =>
      let (workspace, outputs, answer) := closing.finish heard.workspace
      { workspace
        queue := heard.queue
        outputs := before ++ heard.outputs ++ outputs
        result := .ok answer
        done := heard.done ++ [(a, .ok answer)] }

namespace Workspace

/-- Run an action, given the actions that are left to the listeners. -/
def run (w : Workspace) (queue : List Action) (a : Action) : Outcome :=
  let p := w.begin a
  match p.phase with
  | .ended result =>
      { workspace := p.workspace
        queue := a.leftBy queue
        outputs := p.outputs
        result
        done := [(a, result)] }
  | .telling closing =>
      match queue with
      | [] => closing.resume a p.outputs (.silent p.workspace)
      | next :: rest => closing.resume a p.outputs (p.workspace.run rest next)
termination_by a.weight + totalWeight queue
decreasing_by
  have := a.weight_pos
  simp only [totalWeight]
  omega

/-- Run actions one after the other; the outcomes in order. -/
def runAll (w : Workspace) (queue : List Action) : List Action → List Outcome
  | [] => []
  | a :: rest =>
      let outcome := w.run queue a
      outcome :: outcome.workspace.runAll outcome.queue rest

end Workspace

end WardleyMaps
