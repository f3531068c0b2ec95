/-
Module: WardleyMaps.Proofs.Settings.Load
Purpose: Which settings the content of a settings file stands for, and when none can be had from it.
Main exports: TomlTable.Gives, Settings.ReadFrom, knownSettings, TomlTable.firstFault?,
  SettingsStore.StandsFor, SettingsStore.Raises, load_iff
-/
import Mathlib.Control.Monad.Basic
import WardleyMaps.Proofs.Document.Pass
import WardleyMaps.Settings.Store

namespace WardleyMaps

open Text

/-!
A file gives a value for every setting unless one of its own cannot be converted or one of its
groups is no table (`TomlTable.Gives`). If it gives all of them they are the settings
(`Settings.ofTable_eq_ok`); if it does not, the first setting without a value tells why
(`Settings.ofTable_eq_error`). Most such causes, and whatever else keeps a file from being read,
lead to the standard settings. But a number that is too large and values that are nested too deep
are passed on as faults, so that loading has no settings to give (`load_iff`).
-/

/-! ### One setting -/

/-- Why there is no value. -/
def faultOf {ε α : Type} : Except ε α → Option ε
  | .ok _ => none
  | .error e => some e

theorem faultOf_eq_some {ε α : Type} {x : Except ε α} {e : ε} :
    faultOf x = some e ↔ x = .error e := by
  cases x <;> simp [faultOf]

/-- The value of a setting for a file: that of its key, converted, or the standard value if the file
does not have the group or the key. A group that is no table gives no value. -/
def TomlTable.Gives {α : Type} (file : TomlTable) (group key : String)
    (convert : TomlValue → Except SettingFault α) (standard value : α) : Prop :=
  match file.get? group.toList with
  | none => value = standard
  | some (.table entries) =>
      match TomlTable.get? entries key.toList with
      | none => value = standard
      | some own => convert own = .ok value
  | some _ => False

/-- A setting that is read: its group, its key and why a value cannot be used for it. -/
structure KnownSetting where
  group : String
  key : String
  refusal : TomlValue → Option SettingFault

/-- A setting whose values are converted. -/
def KnownSetting.converted {α : Type} (group key : String)
    (convert : TomlValue → Except SettingFault α) : KnownSetting :=
  { group, key, refusal := fun v => faultOf (convert v) }

/-- Why a file gives no value for a setting, if it gives none. -/
def KnownSetting.faultIn (file : TomlTable) (k : KnownSetting) : Option SettingFault :=
  match file.get? k.group.toList with
  | none => none
  | some (.table entries) => (TomlTable.get? entries k.key.toList).bind k.refusal
  | some _ => some .unfit

/-- The settings in the order in which they are read. -/
def knownSettings : List KnownSetting :=
  [.converted "canvas" "width" TomlValue.toNumber, .converted "canvas" "height" TomlValue.toNumber,
    .converted "canvas" "padding" TomlValue.toNumber,
    .converted "glitch" "duration" TomlValue.toNumber,
    .converted "glitch" "epsilon" TomlValue.toNumber,
    .converted "editor" "coordinate_precision" TomlValue.toInteger,
    .converted "editor" "write_back" TomlValue.toSwitch,
    .converted "watcher" "debounce_ms" TomlValue.toInteger,
    .converted "logging" "level" TomlValue.toText, .converted "logging" "trace" TomlValue.toSwitch,
    .converted "logging" "log_file" TomlValue.toText]

/-- Why the first setting for which a file gives no value has none. -/
def TomlTable.firstFault? (file : TomlTable) : Option SettingFault :=
  knownSettings.findSome? (·.faultIn file)

/-- A setting of a file, the group and then the key. -/
def TomlTable.given {α : Type} (file : TomlTable) (group key : String)
    (convert : TomlValue → Except SettingFault α) (standard : α) : Except SettingFault α := do
  let entries ← file.group group
  entries.setting key convert standard

section

variable {α : Type} {file : TomlTable} {group key : String}
  {convert : TomlValue → Except SettingFault α} {standard value : α}

theorem TomlTable.given_eq_ok :
    file.given group key convert standard = .ok value ↔
      file.Gives group key convert standard value := by
  unfold given Gives TomlTable.group
  cases file.get? group.toList with
  | none => simp [bind, Except.bind, setting, get?, eq_comm]
  | some v =>
      cases v with
      | table entries =>
          simp only [bind, Except.bind, setting]
          cases TomlTable.get? entries key.toList with
          | none => simp [eq_comm]
          | some own => rfl
      | _ => simp [bind, Except.bind]

theorem TomlTable.faultOf_given :
    faultOf (file.given group key convert standard) =
      (KnownSetting.converted group key convert).faultIn file := by
  simp only [given, KnownSetting.faultIn, KnownSetting.converted, TomlTable.group]
  cases file.get? group.toList with
  | none => rfl
  | some v =>
      cases v with
      | table entries =>
          simp only [bind, Except.bind, setting]
          cases TomlTable.get? entries key.toList with
          | none => rfl
          | some own => rfl
      | _ => rfl

end

/-! ### All settings -/

/-- Every setting has the value that a file gives for it. -/
structure Settings.ReadFrom (file : TomlTable) (s : Settings) : Prop where
  width : file.Gives "canvas" "width" TomlValue.toNumber 500 s.canvas.width
  height : file.Gives "canvas" "height" TomlValue.toNumber 600 s.canvas.height
  padding : file.Gives "canvas" "padding" TomlValue.toNumber 20 s.canvas.padding
  duration : file.Gives "glitch" "duration" TomlValue.toNumber 0.8 s.glitch.duration
  epsilon : file.Gives "glitch" "epsilon" TomlValue.toNumber 0.001 s.glitch.epsilon
  coordinatePrecision :
    file.Gives "editor" "coordinate_precision" TomlValue.toInteger 2 s.editor.coordinatePrecision
  writeBack : file.Gives "editor" "write_back" TomlValue.toSwitch true s.editor.writeBack
  debounceMs : file.Gives "watcher" "debounce_ms" TomlValue.toInteger 100 s.watcher.debounceMs
  level : file.Gives "logging" "level" TomlValue.toText "WARNING".toList s.logging.level
  trace : file.Gives "logging" "trace" TomlValue.toSwitch false s.logging.trace
  logFile : file.Gives "logging" "log_file" TomlValue.toText [] s.logging.logFile

namespace Settings

/-- The settings of a table are its values one by one; a group is looked up once for all of its
keys. -/
theorem ofTable_eq (file : TomlTable) :
    Settings.ofTable file = (do
      let width ← file.given "canvas" "width" TomlValue.toNumber 500
      let height ← file.given "canvas" "height" TomlValue.toNumber 600
      let padding ← file.given "canvas" "padding" TomlValue.toNumber 20
      let duration ← file.given "glitch" "duration" TomlValue.toNumber 0.8
      let epsilon ← file.given "glitch" "epsilon" TomlValue.toNumber 0.001
      let coordinatePrecision ← file.given "editor" "coordinate_precision" TomlValue.toInteger 2
      let writeBack ← file.given "editor" "write_back" TomlValue.toSwitch true
      let debounceMs ← file.given "watcher" "debounce_ms" TomlValue.toInteger 100
      let level ← file.given "logging" "level" TomlValue.toText "WARNING".toList
      let trace ← file.given "logging" "trace" TomlValue.toSwitch false
      let logFile ← file.given "logging" "log_file" TomlValue.toText []
      .ok
        { canvas := { width, height, padding }
          glitch := { duration, epsilon }
          editor := { coordinatePrecision, writeBack }
          watcher := { debounceMs }
          logging := { level, trace, logFile } }) := by
  simp only [ofTable, TomlTable.given]
  cases file.group "canvas" with
  | error f => rfl
  | ok canvas =>
  cases file.group "glitch" with
  | error f => rfl
  | ok glitch =>
  cases file.group "editor" with
  | error f => rfl
  | ok editor =>
  cases file.group "watcher" with
  | error f => rfl
  | ok watcher =>
  cases file.group "logging" with
  | error f => rfl
  | ok logging => rfl

/-- A table that gives every setting its value is read as the settings with these values. -/
theorem ofTable_eq_ok {file : TomlTable} {s : Settings} :
    Settings.ofTable file = .ok s ↔ s.ReadFrom file := by
  rw [ofTable_eq]
  simp only [bind_eq_ok, TomlTable.given_eq_ok]
  constructor
  · rintro ⟨width, hwidth, height, hheight, padding, hpadding, duration, hduration, epsilon,
      hepsilon, precision, hprecision, writeBack, hwriteBack, debounce, hdebounce, level, hlevel,
      trace, htrace, logFile, hlogFile, made⟩
    cases made
    exact ⟨hwidth, hheight, hpadding, hduration, hepsilon, hprecision, hwriteBack, hdebounce,
      hlevel, htrace, hlogFile⟩
  · intro h
    exact ⟨_, h.width, _, h.height, _, h.padding, _, h.duration, _, h.epsilon, _,
      h.coordinatePrecision, _, h.writeBack, _, h.debounceMs, _, h.level, _, h.trace, _, h.logFile,
      rfl⟩

/-- One setting is read before the others. -/
theorem faultOf_bind {α β : Type} {file : TomlTable} {k : KnownSetting} {later : List KnownSetting}
    {x : Except SettingFault α} {f : α → Except SettingFault β} (own : faultOf x = k.faultIn file)
    (others : ∀ a, faultOf (f a) = later.findSome? (·.faultIn file)) :
    faultOf (x >>= f) = (k :: later).findSome? (·.faultIn file) := by
  rw [List.findSome?_cons, ← own]
  cases x with
  | error e => rfl
  | ok a => exact others a

/-- A table that does not is refused for the cause of the first setting without a value. -/
theorem ofTable_eq_error {file : TomlTable} {f : SettingFault} :
    Settings.ofTable file = .error f ↔ file.firstFault? = some f := by
  have first : faultOf (Settings.ofTable file) = file.firstFault? := by
    rw [ofTable_eq]
    refine faultOf_bind TomlTable.faultOf_given fun width => ?_
    refine faultOf_bind TomlTable.faultOf_given fun height => ?_
    refine faultOf_bind TomlTable.faultOf_given fun padding => ?_
    refine faultOf_bind TomlTable.faultOf_given fun duration => ?_
    refine faultOf_bind TomlTable.faultOf_given fun epsilon => ?_
    refine faultOf_bind TomlTable.faultOf_given fun precision => ?_
    refine faultOf_bind TomlTable.faultOf_given fun writeBack => ?_
    refine faultOf_bind TomlTable.faultOf_given fun debounce => ?_
    refine faultOf_bind TomlTable.faultOf_given fun level => ?_
    refine faultOf_bind TomlTable.faultOf_given fun trace => ?_
    exact faultOf_bind TomlTable.faultOf_given fun logFile => rfl
  rw [← first, faultOf_eq_some]

end Settings

/-! ### The file -/

/-- The settings file can be read and holds a table. -/
def Directory.HoldsTable (d : Directory) (file : TomlTable) : Prop :=
  ∃ t, d.readText settingsFile = .ok t ∧ readToml t = .ok file

/-- The settings that the content of the settings file stands for: those that are read from its
table, or the standard ones if there is no table or not all settings can be read from it. -/
def SettingsStore.StandsFor (d : Directory) (s : Settings) : Prop :=
  (∃ file, d.HoldsTable file ∧ s.ReadFrom file) ∨
    s = {} ∧ ∀ file, d.HoldsTable file → ∀ other : Settings, ¬ other.ReadFrom file

/-- The content of the settings file leads to a fault: the first setting without a value has none
because its number is too large or its parts are nested too deep to be shown, or values are nested
too deep to be read. -/
inductive SettingsStore.Raises (d : Directory) : LoadFault → Prop
  | overflow {file : TomlTable} {cause : Overflow} (holds : d.HoldsTable file)
      (first : file.firstFault? = some (.overflow cause)) : Raises d (.overflow cause)
  | tooDeepToShow {file : TomlTable} (holds : d.HoldsTable file)
      (first : file.firstFault? = some .tooDeep) : Raises d .tooDeepToShow
  | tooDeep {t : Text} (content : d.readText settingsFile = .ok t)
      (nested : readToml t = .error .tooDeep) : Raises d .tooDeep

/-- A file holds one table at most. -/
theorem Directory.HoldsTable.unique {d : Directory} {file other : TomlTable}
    (h : d.HoldsTable file) (h' : d.HoldsTable other) : file = other := by
  obtain ⟨t, content, read⟩ := h
  obtain ⟨t', content', read'⟩ := h'
  cases content.symm.trans content'
  exact Except.ok.inj (read.symm.trans read')

namespace SettingsStore

variable {d : Directory}

/-- What is loaded of a table. -/
theorem load_of_holdsTable {file : TomlTable} (h : d.HoldsTable file) :
    load d =
      match Settings.ofTable file with
      | .ok s => .ok s
      | .error .unfit => .ok {}
      | .error (.overflow cause) => .error (.overflow cause)
      | .error .tooDeep => .error .tooDeepToShow := by
  obtain ⟨t, content, read⟩ := h
  cases table : Settings.ofTable file with
  | ok s => simp only [load, content, Settings.ofText, read, table]
  | error fault => cases fault <;> simp only [load, content, Settings.ofText, read, table]

/-- Without a table the standard settings are loaded, unless values are nested too deep to be
read. -/
theorem load_of_not_holdsTable (none : ∀ file, ¬ d.HoldsTable file) :
    load d = .ok {} ∨ load d = .error .tooDeep ∧ Raises d .tooDeep := by
  rw [load]
  cases content : d.readText settingsFile with
  | error fault => exact .inl rfl
  | ok t =>
      cases read : readToml t with
      | ok file => exact absurd ⟨t, content, read⟩ (none file)
      | error e =>
          cases e with
          | malformed => exact .inl (by simp only [Settings.ofText, read])
          | tooDeep =>
              exact .inr ⟨by simp only [Settings.ofText, read], .tooDeep content read⟩

/-- The content of a file stands for no two settings. -/
theorem StandsFor.unique {s other : Settings} (h : StandsFor d s) (h' : StandsFor d other) :
    s = other := by
  rcases h with ⟨file, holds, read⟩ | ⟨rfl, unread⟩
  · rcases h' with ⟨file', holds', read'⟩ | ⟨rfl, unread⟩
    · cases holds.unique holds'
      exact Except.ok.inj
        ((Settings.ofTable_eq_ok.2 read).symm.trans (Settings.ofTable_eq_ok.2 read'))
    · exact absurd read (unread file holds s)
  · rcases h' with ⟨file', holds', read'⟩ | ⟨rfl, -⟩
    · exact absurd read' (unread file' holds' other)
    · rfl

/-- Settings that are loaded are those that the content stands for. -/
theorem standsFor_of_load {s : Settings} (loaded : load d = .ok s) : StandsFor d s := by
  by_cases table : ∃ file, d.HoldsTable file
  · obtain ⟨file, holds⟩ := table
    rw [load_of_holdsTable holds] at loaded
    cases read : Settings.ofTable file with
    | ok own =>
        rw [read] at loaded
        cases loaded
        exact .inl ⟨file, holds, Settings.ofTable_eq_ok.1 read⟩
    | error f =>
        have unread (file' : TomlTable) (holds' : d.HoldsTable file') (other : Settings) :
            ¬ other.ReadFrom file' := by
          intro fits
          cases holds.unique holds'
          cases read.symm.trans (Settings.ofTable_eq_ok.2 fits)
        rw [read] at loaded
        cases f with
        | unfit => exact .inr ⟨(Except.ok.inj loaded).symm, unread⟩
        | overflow cause => cases loaded
        | tooDeep => cases loaded
  · have none (file : TomlTable) : ¬ d.HoldsTable file := fun holds => table ⟨file, holds⟩
    rcases load_of_not_holdsTable none with standard | ⟨raised, -⟩
    · have same : s = {} := Except.ok.inj (loaded.symm.trans standard)
      exact .inr ⟨same, fun file holds => absurd holds (none file)⟩
    · cases raised.symm.trans loaded

theorem load_eq_error {fault : LoadFault} : load d = .error fault ↔ Raises d fault := by
  constructor
  · intro raised
    by_cases table : ∃ file, d.HoldsTable file
    · obtain ⟨file, holds⟩ := table
      rw [load_of_holdsTable holds] at raised
      cases read : Settings.ofTable file with
      | ok s => rw [read] at raised; cases raised
      | error f =>
          rw [read] at raised
          cases f with
          | unfit => cases raised
          | overflow cause => cases raised; exact .overflow holds (Settings.ofTable_eq_error.1 read)
          | tooDeep => cases raised; exact .tooDeepToShow holds (Settings.ofTable_eq_error.1 read)
    · have none (file : TomlTable) : ¬ d.HoldsTable file := fun holds => table ⟨file, holds⟩
      rcases load_of_not_holdsTable none with standard | ⟨raised', raises⟩
      · cases standard.symm.trans raised
      · cases raised'.symm.trans raised
        exact raises
  · intro raises
    cases raises with
    | overflow holds first =>
        rw [load_of_holdsTable holds, Settings.ofTable_eq_error.2 first]
    | tooDeepToShow holds first =>
        rw [load_of_holdsTable holds, Settings.ofTable_eq_error.2 first]
    | tooDeep content nested =>
        rw [load, content]
        simp only [Settings.ofText, nested]

end SettingsStore

/-- Loading gives the settings that the content of the file stands for, and nothing else: those that
its table gives if every one of them can be converted, and otherwise the standard ones altogether.
It fails to do so exactly if the first setting without a value is a number that is too large or is
nested too deep to be shown, or if the values of the file are nested too deep to be read; then it
ends with this fault. -/
theorem load_iff (d : Directory) :
    (∀ s, SettingsStore.load d = .ok s ↔
      SettingsStore.StandsFor d s ∧ ∀ fault, ¬ SettingsStore.Raises d fault) ∧
    ∀ fault, SettingsStore.load d = .error fault ↔ SettingsStore.Raises d fault := by
  refine ⟨fun s => ⟨fun loaded => ⟨SettingsStore.standsFor_of_load loaded, fun fault raises => ?_⟩,
    fun ⟨standsFor, fine⟩ => ?_⟩, fun fault => SettingsStore.load_eq_error⟩
  · cases loaded.symm.trans (SettingsStore.load_eq_error.2 raises)
  · cases loaded : SettingsStore.load d with
    | error fault => exact absurd (SettingsStore.load_eq_error.1 loaded) (fine fault)
    | ok other => rw [(SettingsStore.standsFor_of_load loaded).unique standsFor]

/-- Here the number of places is infinite. That is no integer, so that the content stands for the
standard settings, but nothing is loaded. -/
theorem not_loaded_of_infinite_precision :
    let content : Text := "[editor]\ncoordinate_precision = inf\n".toList
    let d : Directory :=
      { nodes := [(["config".toList], .folder),
          (["config".toList, "settings.toml".toList], .file (Utf8.encode content))] }
    SettingsStore.StandsFor d {} ∧ SettingsStore.Raises d (.overflow .infiniteNumber) ∧
      ∀ s, SettingsStore.load d ≠ .ok s := by
  intro content d
  have raised : SettingsStore.load d = .error (.overflow .infiniteNumber) := by decide +kernel
  have raises := ((load_iff d).2 _).1 raised
  refine ⟨.inr ⟨rfl, fun file holds other fits => ?_⟩, raises, fun s loaded => ?_⟩
  · rw [SettingsStore.load_of_holdsTable holds, Settings.ofTable_eq_ok.2 fits] at raised
    cases raised
  · exact (((load_iff d).1 s).1 loaded).2 _ raises

end WardleyMaps
