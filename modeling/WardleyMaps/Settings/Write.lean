/-
Module: WardleyMaps.Settings.Write
Purpose: The text of a settings file.
Main exports: Settings.text, Settings.written, tomlQuoted
-/
import WardleyMaps.Number.Literal
import WardleyMaps.Number.Shortest
import WardleyMaps.Settings.Basic
import WardleyMaps.Text.Quoted

namespace WardleyMaps

/-!
A settings file names every setting, one group after the other with an empty line between them. What
is written is read back as the same settings. An integer that is too long cannot be written; the
text ends before its line.
-/

/-- One character of a string in a settings file. A tab stands for itself; other control characters
are escaped. -/
def tomlEscaped (c : Char) : Text :=
  match c with
  | '"' => ['\\', '"']
  | '\\' => ['\\', '\\']
  | '\x08' => ['\\', 'b']
  | '\n' => ['\\', 'n']
  | '\x0c' => ['\\', 'f']
  | '\r' => ['\\', 'r']
  | _ =>
      if (c.toNat < 32 && c ≠ '\t') || c.toNat = 127 then
        '\\' :: 'u' :: Text.hexadecimal 4 c.toNat
      else [c]

/-- A string between double quotes. -/
def tomlQuoted (t : Text) : Text :=
  '"' :: t.flatMap tomlEscaped ++ ['"']

/-- A truth value. -/
def tomlBoolean (b : Bool) : Text :=
  if b then "true".toList else "false".toList

/-- A key with its value on a line. -/
def entryText (key : String) (value : Text) : Text :=
  key.toList ++ " = ".toList ++ value ++ ['\n']

/-- A group as its header and its lines. -/
def groupLines (name : String) (entries : List (Except IntegerTooLong Text)) :
    List (Except IntegerTooLong Text) :=
  .ok ('[' :: name.toList ++ [']', '\n']) :: entries

/-- The line of a setting that is a number. -/
def numberLine (key : String) (x : Double) : Except IntegerTooLong Text :=
  .ok (entryText key x.text)

/-- The line of a setting that is an integer. -/
def integerLine (key : String) (i : Int) : Except IntegerTooLong Text :=
  (writeInteger i).map (entryText key)

/-- The line of a setting that is a switch. -/
def switchLine (key : String) (b : Bool) : Except IntegerTooLong Text :=
  .ok (entryText key (tomlBoolean b))

/-- The line of a setting that is a text. -/
def textLine (key : String) (t : Text) : Except IntegerTooLong Text :=
  .ok (entryText key (tomlQuoted t))

/-- The groups of the settings, each as its lines. -/
def Settings.groups (s : Settings) : List (List (Except IntegerTooLong Text)) :=
  [groupLines "canvas"
      [numberLine "width" s.canvas.width, numberLine "height" s.canvas.height,
        numberLine "padding" s.canvas.padding],
    groupLines "glitch"
      [numberLine "duration" s.glitch.duration, numberLine "epsilon" s.glitch.epsilon],
    groupLines "editor"
      [integerLine "coordinate_precision" s.editor.coordinatePrecision,
        switchLine "write_back" s.editor.writeBack],
    groupLines "watcher" [integerLine "debounce_ms" s.watcher.debounceMs],
    groupLines "logging"
      [textLine "level" s.logging.level, switchLine "trace" s.logging.trace,
        textLine "log_file" s.logging.logFile]]

/-- Lines as one text up to the first that cannot be written, and why it cannot. -/
def writeLines {ε : Type} : List (Except ε Text) → Text × Option ε
  | [] => ([], none)
  | .error e :: _ => ([], some e)
  | .ok line :: rest =>
      let (later, fault) := writeLines rest
      (line ++ later, fault)

/-- What can be written of the settings, and the integer at which it ends, if it is too long. -/
def Settings.written (s : Settings) : Text × Option IntegerTooLong :=
  writeLines (List.intercalate [.ok ['\n']] s.groups)

/-- The settings as the text of a file. -/
def Settings.text (s : Settings) : Except IntegerTooLong Text :=
  match s.written with
  | (t, none) => .ok t
  | (_, some e) => .error e

end WardleyMaps
