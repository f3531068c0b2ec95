/-
Module: WardleyMaps.Proofs.Session.Watch
Purpose: The file that the watcher was last told to watch is the open file, over whole runs.
Main exports: watching, Workspace.Follows, Workspace.Keeps, Workspace.begin_keeps, Underway.Turn,
  watched_file_is_open
-/
import Mathlib.Logic.Relation
import WardleyMaps.Proofs.Session.Consistency

namespace WardleyMaps

open Text

/-!
An action that opens a file tells the watcher to stop before it takes the path of the file, and
tells it to watch the file of the session once listeners have heard of the document. In between they
may do anything: open other files, stop the watcher, or end the action with a fault. Whatever comes
of it, no path is taken while a file is watched. So the last file that the watcher was told to
watch, if it was not told to stop since, is the open one (`Workspace.Follows`). Every part of an
action keeps that (`Workspace.begin_keeps`, `Closing.finish_keeps`), and so does every run.
-/

/-! ### What the watcher is told -/

/-- The call on the watcher that an output is: a path to watch, or none to stop. -/
def Output.watcherCall : Output → Option (Option Text)
  | .signal (.watch path) => some (some path)
  | .signal .stop => some none
  | _ => none

/-- The calls on the watcher, in the order of the outputs. -/
def watcherCalls (outputs : List Output) : List (Option Text) :=
  outputs.filterMap Output.watcherCall

/-- The file that is watched after the outputs: that of the last call on the watcher, unless this
call told it to stop. -/
def watching (outputs : List Output) : Option Text :=
  (watcherCalls outputs).getLast?.join

@[simp] theorem watcherCalls_nil : watcherCalls [] = [] := rfl

@[simp] theorem watcherCalls_append (before after : List Output) :
    watcherCalls (before ++ after) = watcherCalls before ++ watcherCalls after :=
  List.filterMap_append

@[simp] theorem watcherCalls_reports (es : List LogEntry) : watcherCalls (reports es) = [] := by
  induction es with
  | nil => rfl
  | cons e rest ih => exact ih

@[simp] theorem watcherCalls_fileTrouble (verb path : Text) (message : String) :
    watcherCalls (Workspace.fileTrouble verb path message) = [] := rfl

@[simp] theorem Closing.watcherCalls_abandon (closing : Closing) (f : Fault) :
    watcherCalls (closing.abandon f) = [] := by
  cases closing <;> rfl

theorem watching_append_of_quiet {after : List Output} (quiet : watcherCalls after = [])
    (before : List Output) : watching (before ++ after) = watching before := by
  rw [watching, watcherCalls_append, quiet, List.append_nil, watching]

/-- The last call decides. -/
theorem watching_append_of_call {after : List Output} {call : Option Text}
    (last : (watcherCalls after).getLast? = some call) (before : List Output) :
    watching (before ++ after) = call := by
  rw [watching, watcherCalls_append, List.getLast?_append, last]
  rfl

namespace Workspace

/-! ### Following the watcher -/

/-- A file is watched as the open one. -/
structure Watches (w : Workspace) (path : Text) : Prop where
  monitored : w.monitored = true
  opened : w.session.path = some path
  watched : w.watched = some path

/-- After the outputs no file is watched but the open one. -/
def Follows (w : Workspace) (outputs : List Output) : Prop :=
  ∀ path, watching outputs = some path → w.Watches path

/-- With these outputs a workspace becomes another one, and no file comes to be watched but the open
one. -/
def Keeps (w : Workspace) (outputs : List Output) (v : Workspace) : Prop :=
  ∀ before, w.Follows before → v.Follows (before ++ outputs)

theorem Keeps.trans {w v u : Workspace} {first second : List Output} (h : w.Keeps first v)
    (later : v.Keeps second u) : w.Keeps (first ++ second) u := by
  intro before follows
  rw [← List.append_assoc]
  exact later _ (h before follows)

/-- Nothing is told to the watcher, and the same file is watched. -/
theorem keeps_of_quiet {w v : Workspace} {outputs : List Output} (quiet : watcherCalls outputs = [])
    (same : ∀ path, w.Watches path → v.Watches path) : w.Keeps outputs v := by
  intro before follows path
  rw [watching_append_of_quiet quiet]
  exact fun last => same path (follows path last)

/-- When the watcher is told to stop, anything may be done; another path may be taken. -/
theorem keeps_stopSignals (w v : Workspace) : w.Keeps w.stopSignals v := by
  intro before follows watched last
  by_cases monitored : w.monitored = true
  · rw [stopSignals, if_pos monitored, watching_append_of_call rfl] at last
    cases last
  · rw [stopSignals, if_neg monitored, List.append_nil] at last
    exact absurd (follows watched last).monitored monitored

/-- The watcher is told to watch the open file. -/
theorem startWatching_keeps (w : Workspace) : w.Keeps w.startWatching.2 w.startWatching.1 := by
  rw [startWatching]
  split
  · next path monitored opened =>
    intro before follows watched last
    rw [watching_append_of_call rfl] at last
    obtain rfl := Option.some.inj last
    exact ⟨monitored, opened, rfl⟩
  · exact keeps_of_quiet rfl fun _ => id

/-- Writing the file tells nothing to the watcher. -/
theorem saveFile_keeps (w : Workspace) : w.Keeps w.saveFile.2.1 w.saveFile.1 := by
  rw [saveFile]
  split
  · exact keeps_of_quiet rfl fun _ => id
  · split <;> exact keeps_of_quiet rfl fun _ h => ⟨h.monitored, h.opened, h.watched⟩

end Workspace

/-! ### One part of an action -/

theorem Closing.finish_keeps (w : Workspace) (closing : Closing) :
    w.Keeps (closing.finish w).2.1 (closing.finish w).1 := by
  have same : w.Keeps [] w := Workspace.keeps_of_quiet rfl fun _ => id
  have told : w.Keeps [.signal (.textChanged w.session.text)] w :=
    Workspace.keeps_of_quiet rfl fun _ => id
  cases closing with
  | giveDocument => exact same
  | accept => exact same
  | announce save =>
      rw [Closing.finish]
      split
      · exact told.trans w.saveFile_keeps
      · exact told
  | watch =>
      have left : w.startWatching.1.Keeps
          [.report (traceLeave sessionCategory openFileName)] w.startWatching.1 :=
        Workspace.keeps_of_quiet rfl fun _ => id
      exact (told.trans w.startWatching_keeps).trans left

/-- The part of an action that was done keeps to the open file. -/
def Progress.Keeps (w : Workspace) (p : Progress) : Prop :=
  w.Keeps p.outputs p.workspace

namespace Workspace

/-- Outputs may come first with which another path is taken. -/
theorem Keeps.after {w v : Workspace} {outputs : List Output} (h : w.Keeps outputs v) {p : Progress}
    (later : p.Keeps v) : (p.after outputs).Keeps w :=
  h.trans later

/-- An action that is over tells nothing to the watcher. -/
theorem answering_keeps {w v : Workspace} {outputs : List Output}
    (quiet : watcherCalls outputs = []) (same : ∀ path, w.Watches path → v.Watches path)
    (a : Answer) : (v.answering outputs a).Keeps w :=
  keeps_of_quiet quiet same

theorem failing_keeps {w v : Workspace} {outputs : List Output}
    (quiet : watcherCalls outputs = []) (same : ∀ path, w.Watches path → v.Watches path)
    (f : Fault) : (v.failing outputs f).Keeps w :=
  keeps_of_quiet quiet same

variable (w : Workspace)

theorem accept_keeps (d : Document) (closing : Closing) : (w.accept d closing).Keeps w := by
  refine keeps_of_quiet ?_ fun _ h => ⟨h.monitored, h.opened, h.watched⟩
  rw [accept, watcherCalls_append, watcherCalls_reports]
  rfl

theorem replaceText_keeps (t : Text) (closing : Closing) : (w.replaceText t closing).Keeps w := by
  have same : ∀ path, w.Watches path →
      ({ w with session := { w.session with text := t, revision := w.session.revision + 1 } }
        : Workspace).Watches path := fun _ h => ⟨h.monitored, h.opened, h.watched⟩
  rw [replaceText]
  split
  · exact closing.finish_keeps w
  · dsimp only
    split
    · exact failing_keeps (closing.watcherCalls_abandon _) same _
    · exact (keeps_of_quiet (watcherCalls_reports _) same).after (accept_keeps _ _ _)

theorem applyEdit_keeps (edited : Except PrecisionError (Option Edited))
    (entries : Option Edited → List LogEntry) (notice : Text) :
    (w.applyEdit edited entries notice).Keeps w := by
  have quiet (es : List LogEntry) : w.Keeps (reports es) w :=
    keeps_of_quiet (watcherCalls_reports es) fun _ => id
  cases edited with
  | error e => exact failing_keeps rfl (fun _ => id) _
  | ok found =>
      cases found with
      | none => exact quiet _
      | some e => exact (quiet _).after (w.replaceText_keeps _ _)

theorem openFile_keeps (path : Text) : (w.openFile path).Keeps w := by
  have entered : w.Keeps [.report (traceEnter sessionCategory openFileName)] w :=
    keeps_of_quiet rfl fun _ => id
  rw [openFile]
  split
  · exact failing_keeps rfl (fun _ => id) _
  · split
    · exact answering_keeps rfl (fun _ => id) _
    · exact (entered.trans (w.keeps_stopSignals _)).after (replaceText_keeps _ _ _)

theorem reload_keeps : w.reload.Keeps w := by
  rw [reload]
  split
  · exact answering_keeps rfl (fun _ => id) _
  · split
    · exact answering_keeps rfl (fun _ => id) _
    · split
      · exact answering_keeps rfl (fun _ => id) _
      · exact (keeps_of_quiet rfl fun _ => id).after (w.replaceText_keeps _ _)

theorem commit_keeps (delta : Int) (source : Text) : (w.commit delta source).Keeps w := by
  have quiet (es : List LogEntry) : w.Keeps (reports es) w :=
    keeps_of_quiet (watcherCalls_reports es) fun _ => id
  rw [commit]
  split
  · exact failing_keeps rfl (fun _ => id) _
  · dsimp only
    split
    · exact (quiet _).after (w.accept_keeps _ _)
    · refine answering_keeps ?_ (fun _ => id) _
      rw [watcherCalls_append, watcherCalls_reports]
      rfl

/-- Whatever an action does before listeners hear of a document, no file comes to be watched but the
open one. -/
theorem begin_keeps (a : Action) : (w.begin a).Keeps w := by
  have other : ∀ path, w.Watches path → w.Watches path := fun _ => id
  unfold begin
  cases a with
  | setText t => exact w.replaceText_keeps t .giveDocument
  | move name position => exact w.applyEdit_keeps _ _ _
  | drag name pixel =>
      dsimp only
      split
      · exact failing_keeps watcherCalls_nil other _
      · exact w.applyEdit_keeps _ _ _
  | evolve name maturity => exact w.applyEdit_keeps _ _ _
  | openFile path => exact w.openFile_keeps path
  | reload => exact w.reload_keeps
  | save => exact w.saveFile_keeps
  | stop => exact w.keeps_stopSignals w
  | fileChanged =>
      dsimp only
      split
      · exact w.reload_keeps
      · exact answering_keeps watcherCalls_nil other _
  | sample now =>
      refine answering_keeps watcherCalls_nil ?_ _
      exact fun _ h => ⟨h.monitored, h.opened, h.watched⟩
  | commit delta source => exact w.commit_keeps delta source
  | surface =>
      dsimp only
      split
      · exact failing_keeps watcherCalls_nil other _
      · exact answering_keeps watcherCalls_nil other _
  | look => exact answering_keeps watcherCalls_nil other _
  | setClock now =>
      refine answering_keeps watcherCalls_nil ?_ _
      exact fun _ h => ⟨h.monitored, h.opened, h.watched⟩
  | changeSettings change =>
      refine answering_keeps watcherCalls_nil ?_ _
      exact fun _ h => ⟨h.monitored, h.opened, h.watched⟩
  | showFile path =>
      dsimp only
      split
      · exact failing_keeps watcherCalls_nil other _
      · exact answering_keeps watcherCalls_nil other _
  | changeFiles change =>
      dsimp only
      split
      · exact failing_keeps watcherCalls_nil other _
      · refine answering_keeps watcherCalls_nil ?_ _
        exact fun _ h => ⟨h.monitored, h.opened, h.watched⟩
  | refused fault => exact failing_keeps watcherCalls_nil other _
  | leave later => exact answering_keeps watcherCalls_nil other _

/-! ### The call that reports a change of the file -/

/-- Read a file again and take its text if it is another one. -/
def reloadFrom (path : Text) : Progress :=
  match w.directory.readText path with
  | .error fault => w.answering (fileTrouble "read".toList path fault.message) (.flag false)
  | .ok t =>
      if t = w.session.text then w.answering [] (.flag false)
      else
        let notice := LogEntry.trace sessionCategory ("reloading ".toList ++ path)
        (w.replaceText t (.announce false)).after [.report notice]

variable {w}

/-- A change of the watched file is answered by reading this file again. -/
theorem Watches.begin_fileChanged {path : Text} (h : w.Watches path) :
    w.begin .fileChanged = w.reloadFrom path := by
  have told : w.watched.isSome = true := by rw [h.watched, Option.isSome_some]
  calc w.begin .fileChanged = w.reload := if_pos told
    _ = w.reloadFrom path := by
      rw [reload, h.opened]
      rfl

end Workspace

/-! ### Whole runs -/

namespace Underway

/-- One step of a run in which listeners and callers may do anything: an action begins, or the
innermost action that is under way goes on, or a fault takes the place of its second part. -/
inductive Turn : Underway → Underway → Prop where
  | begin (u : Underway) (a : Action) :
      Turn u
        { workspace := (u.workspace.begin a).workspace
          pending := (u.workspace.begin a).phase.push u.pending
          outputs := u.outputs ++ (u.workspace.begin a).outputs }
  | finish (w : Workspace) (closing : Closing) (pending : List Closing) (outputs : List Output) :
      Turn { workspace := w, pending := closing :: pending, outputs }
        { workspace := (closing.finish w).1, pending, outputs := outputs ++ (closing.finish w).2.1 }
  | abandon (w : Workspace) (closing : Closing) (pending : List Closing) (outputs : List Output)
      (f : Fault) :
      Turn { workspace := w, pending := closing :: pending, outputs }
        { workspace := w, pending, outputs := outputs ++ closing.abandon f }

/-- Any number of steps. -/
def Turns : Underway → Underway → Prop :=
  Relation.ReflTransGen Turn

theorem Turns.trans {u v r : Underway} (first : u.Turns v) (second : v.Turns r) : u.Turns r :=
  Relation.ReflTransGen.trans first second

variable {u v : Underway}

theorem Turn.keeps (turn : u.Turn v) (h : u.workspace.Follows u.outputs) :
    v.workspace.Follows v.outputs := by
  cases turn with
  | begin _ a => exact u.workspace.begin_keeps a u.outputs h
  | finish w closing pending outputs => exact closing.finish_keeps w outputs h
  | abandon w closing pending outputs f =>
      exact Workspace.keeps_of_quiet (closing.watcherCalls_abandon f) (fun _ => id) outputs h

theorem Turns.keeps (run : u.Turns v) (h : u.workspace.Follows u.outputs) :
    v.workspace.Follows v.outputs := by
  induction run with
  | refl => exact h
  | tail _ turn ih => exact turn.keeps ih

/-- The runs of the model are such runs, whatever they meet. -/
theorem carries_turns : Carries Turns (fun _ => True) fun _ => True where
  trans := Turns.trans
  left := id
  begins := fun u a _ _ => .single (.begin u a)
  finishes := fun w closing pending outputs => .single (.finish w closing pending outputs)
  abandons := fun w closing pending outputs f => .single (.abandon w closing pending outputs f)

end Underway

/-- The file that the watcher was told to watch with its last call is the open one, and a change of
it is answered by reading this file again. -/
def Underway.WatchesOpenFile (u : Underway) : Prop :=
  ∀ path, watching u.outputs = some path →
    u.workspace.session.path = some path ∧
      u.workspace.begin .fileChanged = u.workspace.reloadFrom path

/-- In every run from the start, with whatever listeners do while they hear of a document and with
whatever faults, the file that is watched is the open one, in each state. So it is after each action
that the model runs to its end. -/
theorem watched_file_is_open (settings : Settings) (directory : Directory) (clock : Double)
    (monitored : Bool) :
    (∀ u, (Underway.start settings directory clock monitored).Turns u → u.WatchesOpenFile) ∧
    ∀ (queue actions : List Action) (before after : List Outcome) (outcome : Outcome),
      (Workspace.start settings directory clock monitored).runAll queue actions =
        before ++ outcome :: after →
      let u : Underway :=
        { workspace := outcome.workspace
          pending := []
          outputs := (before ++ [outcome]).flatMap (·.outputs) }
      (Underway.start settings directory clock monitored).Turns u ∧ u.WatchesOpenFile := by
  have all : ∀ u, (Underway.start settings directory clock monitored).Turns u →
      u.WatchesOpenFile := by
    intro u run path last
    have follows : u.workspace.Follows u.outputs := run.keeps nofun
    have watches := follows path last
    exact ⟨watches.opened, watches.begin_fileChanged⟩
  refine ⟨all, fun queue actions before after outcome run => ?_⟩
  have turns := Underway.carries_turns.runAll (fun _ _ => trivial) _ queue (fun _ _ => trivial) run
    (fun _ _ _ _ => trivial) []
  exact ⟨turns, all _ turns⟩

/-- Here a second file is opened while listeners hear of the first one, and it is the one that is
watched in the end. -/
theorem watched_file_is_open_nested :
    let files : Directory :=
      { nodes := [(["cups.owm".toList], .file "title Cups".toUTF8.toList),
          (["tea.owm".toList], .file "title Tea".toUTF8.toList)] }
    let actions : List Action := [.leave (.openFile "tea.owm".toList), .openFile "cups.owm".toList]
    ∃ first second : Outcome,
      (Workspace.start {} files 0 true).runAll [] actions = [first, second] ∧
      watcherCalls (first.outputs ++ second.outputs) =
        [none, none, some "/tea.owm".toList, some "/tea.owm".toList] ∧
      second.workspace.session.path = some "/tea.owm".toList ∧
      second.workspace.begin .fileChanged = second.workspace.reloadFrom "/tea.owm".toList := by
  intro files actions
  let start := Workspace.start {} files 0 true
  let first := start.run [] actions[0]
  let second := first.workspace.run first.queue actions[1]
  have calls : watcherCalls (first.outputs ++ second.outputs) =
      [none, none, some "/tea.owm".toList, some "/tea.owm".toList] := by decide +kernel
  have follows :=
    ((watched_file_is_open {} files 0 true).2 [] actions [first] [] second rfl).2
  have last : watching ([first, second].flatMap (·.outputs)) = some "/tea.owm".toList := by
    simp [watching, calls]
  exact ⟨first, second, rfl, calls, follows _ last⟩

end WardleyMaps
