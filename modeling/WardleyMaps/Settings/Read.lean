/-
Module: WardleyMaps.Settings.Read
Purpose: Settings from the tables of a settings file.
Main exports: Settings.ofTable, Settings.ofText, SettingFault, LoadFault
-/
import WardleyMaps.Settings.Basic
import WardleyMaps.Toml.Read

namespace WardleyMaps

/-!
A settings file has one table for each group. What it does not name keeps its standard value. A
value of another type is converted where that makes sense; if one cannot be, or if the file cannot
be read at all, none of its values count and all settings are standard ones. Only a number that is
too large for its setting, and values that are nested too deep, are not passed over.
-/

/-- Why a value cannot be used for a setting. -/
inductive SettingFault where
  | unfit
  | overflow (cause : Overflow)
  | tooDeep
deriving DecidableEq, Repr

namespace TomlValue

/-- A value as a number. -/
def toNumber : TomlValue → Except SettingFault Double
  | .float x => .ok x
  | .integer i => (Double.ofInteger i).mapError .overflow
  | .boolean b => .ok (if b then 1 else 0)
  | .text t =>
      match Double.readLiteral? t with
      | some x => .ok x
      | none => .error .unfit
  | _ => .error .unfit

/-- A value as an integer; of other numbers the fraction is dropped. -/
def toInteger : TomlValue → Except SettingFault Int
  | .integer i => .ok i
  | .float .nan => .error .unfit
  | .float x =>
      match x.truncate? with
      | some i => .ok i
      | none => .error (.overflow .infiniteNumber)
  | .boolean b => .ok (if b then 1 else 0)
  | .text t =>
      match readInteger? t with
      | some i => .ok i
      | none => .error .unfit
  | _ => .error .unfit

/-- A value as a switch. -/
def toSwitch (v : TomlValue) : Except SettingFault Bool :=
  .ok v.isTrue

/-- A value as a text. -/
def toText (v : TomlValue) : Except SettingFault Text :=
  v.shown.mapError fun
    | .integer _ => .unfit
    | .tooDeep => .tooDeep

end TomlValue

namespace TomlTable

/-- The table of a group, empty if the file does not have it. -/
def group (t : TomlTable) (name : String) : Except SettingFault TomlTable :=
  match t.get? name.toList with
  | none => .ok []
  | some (.table entries) => .ok entries
  | some _ => .error .unfit

/-- One setting of a group, the standard value if the group does not name it. -/
def setting {α : Type} (t : TomlTable) (key : String) (convert : TomlValue → Except SettingFault α)
    (standard : α) : Except SettingFault α :=
  match t.get? key.toList with
  | none => .ok standard
  | some v => convert v

end TomlTable

/-- The settings of a file, in the order of the groups; the first value that cannot be used
decides. -/
def Settings.ofTable (file : TomlTable) : Except SettingFault Settings := do
  let standard : Settings := {}
  let canvas ← file.group "canvas"
  let width ← canvas.setting "width" TomlValue.toNumber standard.canvas.width
  let height ← canvas.setting "height" TomlValue.toNumber standard.canvas.height
  let padding ← canvas.setting "padding" TomlValue.toNumber standard.canvas.padding
  let glitch ← file.group "glitch"
  let duration ← glitch.setting "duration" TomlValue.toNumber standard.glitch.duration
  let epsilon ← glitch.setting "epsilon" TomlValue.toNumber standard.glitch.epsilon
  let editor ← file.group "editor"
  let coordinatePrecision ←
    editor.setting "coordinate_precision" TomlValue.toInteger standard.editor.coordinatePrecision
  let writeBack ← editor.setting "write_back" TomlValue.toSwitch standard.editor.writeBack
  let watcher ← file.group "watcher"
  let debounceMs ← watcher.setting "debounce_ms" TomlValue.toInteger standard.watcher.debounceMs
  let logging ← file.group "logging"
  let level ← logging.setting "level" TomlValue.toText standard.logging.level
  let trace ← logging.setting "trace" TomlValue.toSwitch standard.logging.trace
  let logFile ← logging.setting "log_file" TomlValue.toText standard.logging.logFile
  .ok
    { canvas := { width, height, padding }
      glitch := { duration, epsilon }
      editor := { coordinatePrecision, writeBack }
      watcher := { debounceMs }
      logging := { level, trace, logFile } }

/-- Why no settings can be had from a file, not even the standard ones: a number is too large, or
values are nested too deep to be read or to be shown. -/
inductive LoadFault where
  | overflow (cause : Overflow)
  | tooDeep
  | tooDeepToShow
deriving DecidableEq, Repr

/-- The name of the kind of a fault. -/
def LoadFault.kind : LoadFault → String
  | .overflow _ => "OverflowError"
  | .tooDeep => "RecursionError"
  | .tooDeepToShow => "RecursionError"

/-- The wording of a fault. -/
def LoadFault.message : LoadFault → String
  | .overflow cause => cause.message
  | .tooDeep => "maximum recursion depth exceeded"
  | .tooDeepToShow => "maximum recursion depth exceeded while getting the repr of an object"

/-- The settings of the text of a file. A text that cannot be used gives the standard ones. -/
def Settings.ofText (t : Text) : Except LoadFault Settings :=
  match readToml t with
  | .error .malformed => .ok {}
  | .error .tooDeep => .error .tooDeep
  | .ok file =>
      match Settings.ofTable file with
      | .ok s => .ok s
      | .error .unfit => .ok {}
      | .error (.overflow cause) => .error (.overflow cause)
      | .error .tooDeep => .error .tooDeepToShow

end WardleyMaps
