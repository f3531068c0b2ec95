/-
Module: WardleyMaps.Session.Basic
Purpose: A map that is being worked on, what is around it, and what can be done with it.
Main exports: Session, Workspace, Action, Answer, Signal, Output
-/
import WardleyMaps.Document.Lookup
import WardleyMaps.Fault
import WardleyMaps.Report

namespace WardleyMaps

/-!
A session holds the source of one map and the document read from it. Typing, dragging, evolving,
opening and reloading all replace the source as a whole; each new source is read, compared with the
document before, and accepted under the next revision number. Listeners hear of every accepted
document at once, and may act on the session while the action that led to it is not yet over.
-/

/-- A map that is being worked on: its source, the document read from it and the one before, whether
any was accepted yet, the number of the source, the open file and the running cues. -/
structure Session where
  text : Text := []
  document : Document := {}
  previous : Option Document := none
  loaded : Bool := false
  revision : Nat := 0
  path : Option Text := none
  cues : CueTracker
deriving DecidableEq

/-- A session with the settings, the files and the time around it. If the open file is monitored, a
watcher is told which file to watch; `watched` is the file that it was last told. -/
structure Workspace where
  session : Session
  settings : Settings
  directory : Directory
  clock : Double := 0
  monitored : Bool := true
  watched : Option Text := none
deriving DecidableEq

/-- A workspace with nothing open. The cues keep the settings of the start. -/
def Workspace.start (settings : Settings) (directory : Directory) (clock : Double)
    (monitored : Bool) : Workspace :=
  { session :=
      { cues := { duration := settings.glitch.duration, tolerance := settings.glitch.epsilon } }
    settings, directory, clock, monitored }

/-- What can be done in a workspace. Besides the work on the map, time may pass, settings and files
may change, and files may be read. An action may also be left to the listeners, who take it up when
they next hear of a document, and one whose operands nobody can use is refused. -/
inductive Action where
  | setText (t : Text)
  | move (name : Text) (position : Position)
  | drag (name : Text) (pixel : Pixel Double)
  | evolve (name : Text) (maturity : Double)
  | openFile (path : Text)
  | reload
  | save
  | stop
  | fileChanged
  | sample (now : Option Double)
  | commit (delta : Int) (source : Text)
  | surface
  | look
  | setClock (now : Double)
  | changeSettings (change : Settings → Settings)
  | showFile (path : Text)
  | changeFiles (change : Directory → Except FileFault Directory)
  | refused (fault : Fault)
  | leave (later : Action)

/-- What an action gives back. -/
inductive Answer where
  | nothing
  | flag (b : Bool)
  | document (d : Document)
  | cues (found : List (Text × CueProgress))
  | surface (s : Surface Double)
  | content (bytes : List UInt8)
deriving DecidableEq

/-- What listeners and the watcher are told. With a new document the listeners see the whole session
as it is at that moment. -/
inductive Signal where
  | documentChanged (s : Session)
  | textChanged (t : Text)
  | fileError (message : Text)
  | watch (path : Text)
  | stop
deriving DecidableEq

/-- What an action shows while it runs: signals, and entries for the log. -/
inductive Output where
  | signal (s : Signal)
  | report (e : LogEntry)
deriving DecidableEq

/-- The logger of sessions. -/
def sessionLogger : Text := "session".toList

/-- The category of the traces of sessions. -/
def sessionCategory : Text := "SESSION".toList

/-- The name under which the opening of a file is traced. -/
def openFileName : Text := "MapSession.open_file".toList

/-- Entries for the log as outputs. -/
def reports (es : List LogEntry) : List Output :=
  es.map .report

end WardleyMaps
