/-
Module: WardleyMaps.Command.Run
Purpose: What the commands do.
Main exports: CommandOutcome, Command.run, Invocation.run
-/
import WardleyMaps.Command.Invocation
import WardleyMaps.Command.Summary
import WardleyMaps.Document.Encode
import WardleyMaps.Fault
import WardleyMaps.Report
import WardleyMaps.Settings.Store

namespace WardleyMaps

open Text

/-!
A command reads one file and prints what it finds, or prints or writes back what it makes of it. It
ends with a code: zero for success, one if there was nothing to edit or problems are not accepted,
two if a file cannot be read or written. What a command has to complain about goes to the console,
next to the records of the log.
-/

/-- How a command ended: the log, the files and the console, what was printed, and a code or a
fault. -/
structure CommandOutcome where
  world : LogWorld
  output : Text := []
  result : Except Fault Nat

/-- The code of success. -/
def codeSuccess : Nat := 0

/-- The code if there was nothing to edit. -/
def codeNoMatch : Nat := 1

/-- The code if problems are not accepted. -/
def codeProblems : Nat := 1

/-- The code if a file cannot be read or written. -/
def codeUnreadable : Nat := 2

namespace LogWorld

/-- A command that ends with a fault. -/
def failing (w : LogWorld) (f : Fault) : CommandOutcome :=
  { world := w, result := .error f }

/-- A command that ends with a line on the console. -/
def complaining (w : LogWorld) (complaint : Text) (code : Nat) : CommandOutcome :=
  { world := { w with console := w.console ++ "wardleysync: ".toList ++ complaint ++ ['\n'] }
    result := .ok code }

/-- A command that prints a text. -/
def printing (w : LogWorld) (output : Text) (code : Nat) : CommandOutcome :=
  { world := w, output, result := .ok code }

/-- Go on with the text of a file, or complain that it cannot be read. -/
def withText (w : LogWorld) (file : Text) (next : Text → CommandOutcome) : CommandOutcome :=
  match unusablePath? file with
  | some fault => w.failing (.file fault)
  | none =>
      match w.directory.readText file with
      | .ok source => next source
      | .error fault =>
          w.complaining ("cannot read ".toList ++ file ++ ": ".toList ++ fault.message.toList)
            codeUnreadable

/-- Print a source, or write it back to its file. If that fails, the file stays as the write left
it. -/
def deliver (w : LogWorld) (file source : Text) (write : Bool) : CommandOutcome :=
  if write then
    match w.directory.writeText file source with
    | .ok directory => { world := { w with directory }, result := .ok codeSuccess }
    | .error failed =>
        { w with directory := failed.directory }.complaining
          ("cannot write ".toList ++ file ++ ": ".toList ++ failed.fault.message.toList)
          codeUnreadable
  else w.printing source codeSuccess

/-- Deliver an edited source, or complain that there was nothing to edit. -/
def deliverEdit (w : LogWorld) (stamp file : Text) (write : Bool)
    (edited : Except Fault (Option Edited)) (entries : Option Edited → List LogEntry)
    (complaint : Text) : CommandOutcome :=
  match edited with
  | .error f => w.failing f
  | .ok none => (w.emitAll stamp (entries none)).complaining complaint codeNoMatch
  | .ok (some e) => (w.emitAll stamp (entries (some e))).deliver file e.source write

end LogWorld

/-- A name to look for. -/
def soughtName (name : Option Text) : Except Fault Text :=
  match name with
  | some t => .ok t
  | none => .error (.blank .name)

/-- Why a blank number cannot be written with as many places as a setting asks for. -/
def blankNumeral (precision : Int) : Fault :=
  match placesOf precision with
  | .error (.unwritable e) => .precision (.unwritable e)
  | _ => .blank .numeral

/-- Two numbers that are to be written with as many places as a setting asks for. The first fault
decides. -/
def writtenPair (precision : Int) : Option Double → Option Double → Except Fault Position
  | some visibility, some maturity => .ok { visibility, maturity }
  | some _, none =>
      match placesOf precision with
      | .error e => .error (.precision e)
      | .ok _ => .error (.blank .numeral)
  | none, _ => .error (blankNumeral precision)

/-- The position that a pair of numbers stands for: the position itself, or that of a pixel of the
surface for the map. Only then is the map read. -/
def targetPosition (w : LogWorld) (stamp : Text) (canvas : CanvasSettings) (source : Text)
    (first second : Option Double) (pixels : Bool) :
    Except Fault (LogWorld × Option Double × Option Double) :=
  if pixels then do
    let d ← (Document.read source).mapError .number
    let s ← (Surface.forMap (some d) canvas).mapError .surface
    match first, second with
    | some x, some y =>
        let position := (s.toNormalized { x, y }).position
        .ok (w.emitAll stamp (readingEntries source d), position.visibility, position.maturity)
    | _, _ => .error (.blank .pixels)
  else .ok (w, first, second)

/-- Move a name, or say why that cannot be done. -/
def movedTo (source : Text) (name : Option Text) (first second : Option Double) (precision : Int) :
    Except Fault (Option Edited) := do
  let name ← soughtName name
  let position ← writtenPair precision first second
  (updatePosition source name position precision).mapError .precision

/-- Evolve a name, or say why that cannot be done. A blank number matters only if there is something
to edit. -/
def evolvedTo (source : Text) (name : Option Text) (maturity : Option Double) (precision : Int) :
    Except Fault (Option Edited) := do
  let name ← soughtName name
  match maturity with
  | some m => (updateEvolution source name m precision).mapError .precision
  | none =>
      match updateEvolution source name 0 precision with
      | .ok none => .ok none
      | _ => .error (blankNumeral precision)

/-- Run a command. -/
def Command.run (w : LogWorld) (stamp : Text) (store : SettingsStore) : Command → CommandOutcome
  | .parse file json strict =>
      w.withText file fun source =>
        match Document.read source with
        | .error e => w.failing (.number e)
        | .ok d =>
            let shown := if json then d.encode.pretty else d.summary
            (w.emitAll stamp (readingEntries source d)).printing (shown ++ ['\n'])
              (if strict && !d.problems.isEmpty then codeProblems else codeSuccess)
  | .move file name first second pixels write =>
      w.withText file fun source =>
        match targetPosition w stamp store.settings.canvas source first second pixels with
        | .error f => w.failing f
        | .ok (w, first, second) =>
            let shown := name.getD []
            w.deliverEdit stamp file write
              (movedTo source name first second store.settings.editor.coordinatePrecision)
              (moveEntries shown) ("no declaration named ".toList ++ quoted shown)
  | .evolve file name maturity write =>
      w.withText file fun source =>
        let shown := name.getD []
        w.deliverEdit stamp file write
          (evolvedTo source name maturity store.settings.editor.coordinatePrecision)
          (evolveEntries shown) ("no evolve statement for ".toList ++ quoted shown)
  | .settings pathOnly =>
      match store.ensureFile w.directory with
      | .error stopped => { w with directory := stopped.directory }.failing stopped.fault
      | .ok (store, directory) =>
          let w := { w with directory }
          if pathOnly then w.printing (settingsFile ++ ['\n']) codeSuccess
          else
            match store.settings.text with
            | .ok t => w.printing t codeSuccess
            | .error e => w.failing (.integer e)

/-- The settings of the log for an invocation: its switches add to what the settings say. -/
def Invocation.logSettings (i : Invocation) (s : LogSettings) : LogSettings :=
  { s with
    level := if i.verbose then "DEBUG".toList else s.level
    trace := i.trace || s.trace }

/-- Load the settings, configure the log, run the command and close the log. Left out is the warning
that settings cannot be read: it comes before the log is configured, so that only the handler of
last resort could print it. -/
def Invocation.run (i : Invocation) (stamp : Text) (d : Directory) : CommandOutcome :=
  let world : LogWorld := { log := {}, directory := d }
  match SettingsStore.ofDirectory d with
  | .error e => world.failing (.load e)
  | .ok store =>
      let settings := i.logSettings store.settings.logging
      let world := world.configure settings
      match unusablePath? settings.logFile with
      | some fault => world.failing (.file fault)
      | none =>
          let named := LogEntry.trace "MAIN".toList ("command ".toList ++ i.command.name)
          let outcome := i.command.run (world.emit stamp named) stamp store
          { outcome with world := outcome.world.close }

end WardleyMaps
