/-
Module: WardleyMaps.Log
Purpose: Records of what the program does, and where they are written.
Main exports: LogEntry, Log, LogWorld, LogWorld.configure, LogWorld.emit, LogWorld.close
-/
import WardleyMaps.Files.Directory
import WardleyMaps.Settings.Basic

namespace WardleyMaps

open Text

/-!
A record has a level, the name of a logger and a text. Configuring the log opens the console and
perhaps a file for the records, after closing what an earlier configuration had opened, and sets the
least level that is written. Traces are records with a category; they are written only if the
configuration asks for them, which lets all levels through.

The handlers that configuring installed and those that records are passed to are two lists: closing
the log goes through the first and takes each of its handlers out of the second. A record that is
passed to no handler gets to the handler of last resort, if the runtime has it: this one prints the
bare text of records that deserve attention.

Left out is what the system may do to a log file that is open: records always get there.
-/

/-- How the fault that is being handled is shown when there is none. -/
def noFault : Text := "NoneType: None".toList

/-- What the program reports: a record of a level, a traced step, or a traced failure with the fault
that is being handled. -/
inductive LogEntry where
  | event (level : Int) (logger text : Text)
  | trace (category text : Text)
  | failure (text : Text) (fault : Text := noFault)
deriving DecidableEq, Repr

/-- A record that is ready to be written. -/
structure LogRecord where
  level : Int
  logger : Text
  text : Text
deriving DecidableEq, Repr

/-- The levels by their names; two levels have a second name. -/
def levelNames : List (Text × Int) :=
  [("CRITICAL".toList, 50), ("FATAL".toList, 50), ("ERROR".toList, 40), ("WARNING".toList, 30),
    ("WARN".toList, 30), ("INFO".toList, 20), ("DEBUG".toList, 10), ("NOTSET".toList, 0)]

/-- The level of records that deserve attention; it is the least level unless the log is
configured. -/
def warningLevel : Int := 30

/-- The name of a level; a level between the named ones is shown by its number. -/
def levelName (level : Int) : Text :=
  match levelNames.find? (·.2 = level) with
  | some (name, _) => name
  | none => (s!"Level {level}").toList

/-- The capital form of a letter, as far as the names of levels may hold it: the dotless i and the
long s have the capitals I and S. -/
def capital (c : Char) : Char :=
  if c.toNat = 0x131 then 'I' else if c.toNat = 0x17F then 'S' else c.toUpper

/-- The level of a name in any letter case; an unknown name stands for warnings. -/
def levelOf (name : Text) : Int :=
  ((levelNames.find? (·.1 = name.map capital)).map Prod.snd).getD warningLevel

/-- The logger of traces. -/
def traceLogger : Text := "wardleysync.trace".toList

/-- The least level that is written with given settings. -/
def LogSettings.threshold (s : LogSettings) : Int :=
  if s.trace then 10 else levelOf s.level

/-- The text of a traced failure, followed by the fault on lines of its own. -/
def failureText (text fault : Text) : Text :=
  let line := "[ERROR] ".toList ++ text
  line ++ (if line.getLast? = some '\n' then [] else ['\n']) ++ fault

/-- The record of an entry, none for traces unless they are asked for. -/
def LogEntry.record? (tracing : Bool) : LogEntry → Option LogRecord
  | .event level logger text => some { level, logger, text }
  | .trace category text =>
      if tracing then
        some { level := 10, logger := traceLogger, text := '[' :: category ++ "] ".toList ++ text }
      else none
  | .failure text fault =>
      if tracing then some { level := 40, logger := traceLogger, text := failureText text fault }
      else none

/-- The name of a logger; the one without a name is the root of all. -/
def loggerName (logger : Text) : Text :=
  if logger.isEmpty then "root".toList else logger

/-- The line of a record, after a stamp of the time. -/
def LogRecord.line (stamp : Text) (r : LogRecord) : Text :=
  stamp ++ '[' :: levelName r.level ++ "] ".toList ++ loggerName r.logger ++ ": ".toList ++ r.text
    ++ ['\n']

/-- The line of a record without any handler's form. -/
def LogRecord.bare (r : LogRecord) : Text :=
  r.text ++ ['\n']

/-- Where records go: to the console, or to a file behind what was written to it before. -/
inductive LogSink where
  | console
  | file (path : Path) (offset : Nat)
deriving DecidableEq, Repr

/-- A place where records go, and a number that no other handler has. -/
structure LogHandler where
  number : Nat
  sink : LogSink
deriving DecidableEq, Repr

/-- The state of the log: the handlers that configuring installed, as they were then, the handlers
that records are passed to, the number of the next handler, the least level, whether traces are
written, and whether the runtime has a handler of last resort. -/
structure Log where
  installed : List LogHandler := []
  handlers : List LogHandler := []
  next : Nat := 0
  threshold : Int := warningLevel
  tracing : Bool := false
  lastResort : Bool := false
deriving DecidableEq, Repr

namespace Log

/-- Install a handler; records are not passed to it yet. -/
def install (log : Log) (sink : LogSink) : Log :=
  { log with
    installed := log.installed ++ [{ number := log.next, sink }]
    next := log.next + 1 }

/-- Pass records to a handler, unless they are passed to it already. -/
def attach (log : Log) (h : LogHandler) : Log :=
  if log.handlers.any (·.number = h.number) then log
  else { log with handlers := log.handlers ++ [h] }

/-- Pass records to all handlers that are installed. -/
def attachAll (log : Log) : Log :=
  log.installed.foldl attach log

/-- Pass no more records to a handler. -/
def detach (h : LogHandler) (log : Log) : Log :=
  { log with handlers := log.handlers.filter (·.number ≠ h.number) }

/-- Close the handlers that are installed, the last one first; the least level stays. -/
def close (log : Log) : Log :=
  { log.installed.foldr detach log with installed := [] }

end Log

/-- The log, the directory in which its files are, and what was written to the console so far. -/
structure LogWorld where
  log : Log
  directory : Directory
  console : Text := []
deriving DecidableEq, Repr

namespace LogWorld

/-- Close the log. -/
def close (w : LogWorld) : LogWorld :=
  { w with log := w.log.close }

/-- Open a file for records, or say on the console why it cannot be opened. -/
def openFile (w : LogWorld) (name : Text) : LogWorld :=
  if name = [] then w
  else
    match w.directory.openPlace (w.directory.absolute name) with
    | .error fault =>
        let notice := s!"Cannot open log file {String.ofList name}: {fault.message}\n"
        { w with console := w.console ++ notice.toList }
    | .ok p =>
        { w with
          directory := w.directory.set p (.file [])
          log := w.log.install (.file p 0) }

/-- Configure the log anew. If no file can have the name of the log file, what was installed before
is closed, but no handler gets any record, and the least level and the traces stay as they were. -/
def configure (w : LogWorld) (s : LogSettings) : LogWorld :=
  let w := { w with log := w.log.close.install .console }
  if (unusablePath? s.logFile).isSome then w
  else
    let w := w.openFile s.logFile
    { w with log := { w.log.attachAll with threshold := s.threshold, tracing := s.trace } }

/-- Write a line to one place. -/
def writeLine (line : Text) (w : LogWorld) : LogSink → LogWorld × LogSink
  | .console => ({ w with console := w.console ++ line }, .console)
  | .file path offset =>
      let bytes := Utf8.encode line
      ({ w with directory := w.directory.writeAt path offset bytes },
        .file path (offset + bytes.length))

/-- Write a line to some handlers. -/
def writeAll (line : Text) (w : LogWorld) : List LogHandler → LogWorld × List LogHandler
  | [] => (w, [])
  | h :: hs =>
      let (w, sink) := writeLine line w h.sink
      let (w, hs) := writeAll line w hs
      (w, { h with sink } :: hs)

/-- Write a line to all handlers that records are passed to. -/
def writeOut (w : LogWorld) (line : Text) : LogWorld :=
  let (w', handlers) := writeAll line w w.log.handlers
  { w' with log := { w'.log with handlers } }

/-- Whether a record is written. -/
def admits (log : Log) (r : LogRecord) : Bool :=
  0 < r.level && log.threshold ≤ r.level

/-- Whether the handler of last resort prints a record. -/
def resorts (log : Log) (r : LogRecord) : Bool :=
  log.lastResort && warningLevel ≤ r.level

/-- Pass a record to all handlers. If there are none, the handler of last resort may print its bare
text. -/
def pass (stamp : Text) (w : LogWorld) (r : LogRecord) : LogWorld :=
  if w.log.handlers = [] then
    if resorts w.log r then { w with console := w.console ++ r.bare } else w
  else w.writeOut (r.line stamp)

/-- Report an entry. -/
def emit (stamp : Text) (w : LogWorld) (e : LogEntry) : LogWorld :=
  match e.record? w.log.tracing with
  | none => w
  | some r => if admits w.log r then w.pass stamp r else w

/-- Report entries one after the other. -/
def emitAll (stamp : Text) (w : LogWorld) (es : List LogEntry) : LogWorld :=
  es.foldl (emit stamp) w

end LogWorld

/-- The trace that a named operation begins. -/
def traceEnter (category name : Text) : LogEntry :=
  .trace category (">>> ".toList ++ name)

/-- The trace that a named operation ends with an answer. -/
def traceLeave (category name : Text) : LogEntry :=
  .trace category ("<<< ".toList ++ name)

/-- The trace that a named operation ends with a fault of a kind. -/
def traceFault (name kind text : Text) : LogEntry :=
  .trace "ERROR".toList ("!!! ".toList ++ name ++ " raised ".toList ++ kind ++ ": ".toList ++ text)

/-- The traces around a named operation, given what the operation reports and the fault that it ends
with, if it does. -/
def traceCall (category name : Text) (inside : List LogEntry) (fault : Option (Text × Text)) :
    List LogEntry :=
  traceEnter category name :: inside ++
    [match fault with
      | none => traceLeave category name
      | some (kind, text) => traceFault name kind text]

end WardleyMaps
