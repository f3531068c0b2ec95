/-
Module: WardleyMaps.Session.Step
Purpose: What an action does up to the moment when listeners hear of a document, and after it.
Main exports: Progress, Closing, Workspace.begin, Closing.finish, Closing.abandon
-/
import WardleyMaps.Session.Basic

namespace WardleyMaps

open Text

/-!
An action accepts at most one document. So it falls into a part before the listeners hear of the
document and a part after it, and between them the listeners may change everything. The second part
works on what it then finds: it announces the text and saves the file as they are at that time.
-/

/-- What an action still has to do once listeners have heard of its document: give the document
back, report success, announce the text and perhaps save it, or announce the text and begin to watch
the file. -/
inductive Closing where
  | giveDocument
  | accept
  | announce (save : Bool)
  | watch
deriving DecidableEq, Repr

/-- Whether an action is over, or listeners are to hear of its document. -/
inductive Phase where
  | ended (result : Except Fault Answer)
  | telling (closing : Closing)

/-- The workspace and the outputs of the part of an action that was done. -/
structure Progress where
  workspace : Workspace
  outputs : List Output
  phase : Phase

/-- Outputs that come before those of a part of an action. -/
def Progress.after (outputs : List Output) (p : Progress) : Progress :=
  { p with outputs := outputs ++ p.outputs }

namespace Workspace

/-- An action that ends with an answer. -/
def answering (w : Workspace) (outputs : List Output) (a : Answer) : Progress :=
  { workspace := w, outputs, phase := .ended (.ok a) }

/-- An action that ends with a fault. -/
def failing (w : Workspace) (outputs : List Output) (f : Fault) : Progress :=
  { workspace := w, outputs, phase := .ended (.error f) }

/-! ### Files -/

/-- What listeners and the log are told of a file that cannot be used. -/
def fileTrouble (verb path : Text) (message : String) : List Output :=
  let notice := "Cannot ".toList ++ verb ++ ' ' :: path ++ ": ".toList ++ message.toList
  [.report (.event 40 sessionLogger notice), .signal (.fileError notice)]

/-- Write the text to the open file; the flag tells whether it was written. If that fails, the file
stays as the write left it. -/
def saveFile (w : Workspace) : Workspace × List Output × Bool :=
  match w.session.path with
  | none => (w, [], false)
  | some path =>
      match w.directory.writeText path w.session.text with
      | .error failed =>
          ({ w with directory := failed.directory },
            fileTrouble "write".toList path failed.fault.message, false)
      | .ok directory =>
          let saved := LogEntry.trace sessionCategory ("saved ".toList ++ path)
          ({ w with directory }, [.report saved], true)

/-- Tell the watcher to stop, if there is one. -/
def stopSignals (w : Workspace) : List Output :=
  if w.monitored then [.signal .stop] else []

/-- Tell the watcher to watch the open file, if there is one. -/
def startWatching (w : Workspace) : Workspace × List Output :=
  match w.monitored, w.session.path with
  | true, some path => ({ w with watched := some path }, [.signal (.watch path)])
  | _, _ => (w, [])

end Workspace

/-- The second part of an action. -/
def Closing.finish (w : Workspace) : Closing → Workspace × List Output × Answer
  | .giveDocument => (w, [], .document w.session.document)
  | .accept => (w, [], .flag true)
  | .announce save =>
      let told := Output.signal (.textChanged w.session.text)
      if save && w.settings.editor.writeBack then
        let (w, outputs, _) := w.saveFile
        (w, told :: outputs, .flag true)
      else (w, [told], .flag true)
  | .watch =>
      let told := Output.signal (.textChanged w.session.text)
      let (w, outputs) := w.startWatching
      let left := Output.report (traceLeave sessionCategory openFileName)
      (w, told :: outputs ++ [left], .flag true)

/-- What is shown when a fault takes the place of the second part. -/
def Closing.abandon (f : Fault) : Closing → List Output
  | .watch => [.report (traceFault openFileName f.kind.toList f.message.toList)]
  | _ => []

namespace Workspace

/-! ### Replacing the text -/

/-- Accept a document for the current text. -/
def accept (w : Workspace) (d : Document) (closing : Closing) : Progress :=
  let s := w.session
  let previous := if s.loaded then some s.document else none
  let (cues, new) := s.cues.record previous d w.clock
  let notice := s!"committed r{s.revision}: {d.elements.length} elements, "
    ++ s!"{d.problems.length} errors"
  let session := { s with document := d, previous, loaded := true, cues }
  { workspace := { w with session }
    outputs := reports (cueEntries new ++ [.trace sessionCategory notice.toList])
      ++ [.signal (.documentChanged session)]
    phase := .telling closing }

/-- Replace the text and read it. The text of an accepted document is not read again. -/
def replaceText (w : Workspace) (t : Text) (closing : Closing) : Progress :=
  let s := w.session
  if s.loaded && s.text = t then
    let (w, outputs, answer) := closing.finish w
    w.answering outputs answer
  else
    let w := { w with session := { s with text := t, revision := s.revision + 1 } }
    match Document.read t with
    | .error e => w.failing (closing.abandon (.number e)) (.number e)
    | .ok d => (w.accept d closing).after (reports (readingEntries t d))

/-- Accept a document that was read from a source for a revision, unless another revision is current
by now. The revision is given by its distance from the current one. -/
def commit (w : Workspace) (delta : Int) (source : Text) : Progress :=
  match Document.read source with
  | .error e => w.failing [] (.number e)
  | .ok d =>
      let read := reports (readingEntries source d)
      if delta = 0 then (w.accept d .accept).after read
      else
        let current := w.session.revision
        let notice := s!"dropping stale parse r{(current : Int) + delta} (current r{current})"
        w.answering (read ++ [.report (.trace sessionCategory notice.toList)]) (.flag false)

/-! ### Edits -/

/-- Replace the text by that of an edit, or say that there was nothing to edit. -/
def applyEdit (w : Workspace) (edited : Except PrecisionError (Option Edited))
    (entries : Option Edited → List LogEntry) (notice : Text) : Progress :=
  match edited with
  | .error e => w.failing [] (.precision e)
  | .ok none =>
      w.answering (reports (entries none ++ [.event 20 sessionLogger notice])) (.flag false)
  | .ok (some e) =>
      (w.replaceText e.source (.announce true)).after (reports (entries (some e)))

/-- Move a name to a position. -/
def move (w : Workspace) (name : Text) (position : Position) : Progress :=
  w.applyEdit
    (updatePosition w.session.text name position w.settings.editor.coordinatePrecision)
    (moveEntries name)
    ("No component, anchor, submap or note matches ".toList ++ quoted name)

/-- Evolve a name to a maturity. -/
def evolve (w : Workspace) (name : Text) (maturity : Double) : Progress :=
  w.applyEdit
    (updateEvolution w.session.text name maturity w.settings.editor.coordinatePrecision)
    (evolveEntries name)
    ("No evolve statement for ".toList ++ quoted name)

/-- The surface of the current document. -/
def surface (w : Workspace) : Except SurfaceTooSmall (Surface Double) :=
  Surface.forMap (some w.session.document) w.settings.canvas

/-! ### Opening and reloading -/

/-- Open a file: read it, take its text, and watch it. If it cannot be read, all stays as it is. -/
def openFile (w : Workspace) (path : Text) : Progress :=
  let entered := Output.report (traceEnter sessionCategory openFileName)
  match unusablePath? path with
  | some fault => w.failing (entered :: Closing.watch.abandon (.file fault)) (.file fault)
  | none =>
      match w.directory.readText path with
      | .error fault =>
          let left := Output.report (traceLeave sessionCategory openFileName)
          w.answering (entered :: fileTrouble "read".toList path fault.message ++ [left])
            (.flag false)
      | .ok t =>
          let session := { w.session with path := some (w.directory.absolute path) }
          let opened := { w with session }
          (opened.replaceText t .watch).after (entered :: w.stopSignals)

/-- Read the open file again and take its text if it is another one. -/
def reload (w : Workspace) : Progress :=
  match w.session.path with
  | none => w.answering [] (.flag false)
  | some path =>
      match w.directory.readText path with
      | .error fault =>
          w.answering (fileTrouble "read".toList path fault.message) (.flag false)
      | .ok t =>
          if t = w.session.text then w.answering [] (.flag false)
          else
            let notice := LogEntry.trace sessionCategory ("reloading ".toList ++ path)
            (w.replaceText t (.announce false)).after [.report notice]

/-! ### Actions -/

/-- The first part of an action. -/
def begin (w : Workspace) : Action → Progress
  | .setText t => w.replaceText t .giveDocument
  | .move name position => w.move name position
  | .drag name pixel =>
      match w.surface with
      | .error e => w.failing [] (.surface e)
      | .ok s => w.move name (s.toNormalized pixel).position
  | .evolve name maturity => w.evolve name maturity
  | .openFile path => w.openFile path
  | .reload => w.reload
  | .save =>
      let (w, outputs, saved) := w.saveFile
      w.answering outputs (.flag saved)
  | .stop => w.answering w.stopSignals .nothing
  | .fileChanged => if w.watched.isSome then w.reload else w.answering [] .nothing
  | .sample now =>
      let (cues, found) := w.session.cues.sample (now.getD w.clock)
      { w with session := { w.session with cues } }.answering [] (.cues found)
  | .commit delta source => w.commit delta source
  | .surface =>
      match w.surface with
      | .error e => w.failing [] (.surface e)
      | .ok s => w.answering [] (.surface s)
  | .look => w.answering [] .nothing
  | .setClock now => { w with clock := now }.answering [] .nothing
  | .changeSettings change => { w with settings := change w.settings }.answering [] .nothing
  | .showFile path =>
      match w.directory.read path with
      | .error fault => w.failing [] (.file fault)
      | .ok bytes => w.answering [] (.content bytes)
  | .refused fault => w.failing [] fault
  | .changeFiles change =>
      match change w.directory with
      | .error fault => w.failing [] (.file fault)
      | .ok directory => { w with directory }.answering [] .nothing
  | .leave _ => w.answering [] .nothing

end Workspace

end WardleyMaps
