/-
Module: WardleyMaps.Proofs.Settings.Saved
Purpose: Settings that are saved are loaded again as they were.
Main exports: Settings.rows, Settings.text_eq, Settings.ofText_text, Settings.agrees_self_iff,
  SettingsStore.load_save
-/
import WardleyMaps.Proofs.Command.Ending
import WardleyMaps.Proofs.Files.Utf8
import WardleyMaps.Proofs.Settings.Load
import WardleyMaps.Proofs.Toml.Document

namespace WardleyMaps

open Text

/-!
The text of the settings is a document of five groups (`Settings.text_eq`). Reading it gives the
table of these, and the table gives every setting the value that was written
(`Settings.ofText_text`), also a number that is infinite or not defined and a text with any
characters. So what is saved to a file is loaded from it (`SettingsStore.load_save`).
-/

/-! ### The groups -/

/-- The line of a number. -/
def numberEntry (key : String) (bare : BareKey key) (x : Double) : TomlEntry where
  key := key
  text := x.text
  value := .float x
  bare := bare
  reads := readsAs_float x

/-- The line of an integer that is short enough. -/
def integerEntry (key : String) (bare : BareKey key) (i : Int)
    (short : (ofNat i.natAbs).length ≤ maxIntegerDigits) : TomlEntry where
  key := key
  text := ofInt i
  value := .integer i
  bare := bare
  reads := readsAs_integer short

/-- The line of a switch. -/
def switchEntry (key : String) (bare : BareKey key) (b : Bool) : TomlEntry where
  key := key
  text := tomlBoolean b
  value := .boolean b
  bare := bare
  reads := readsAs_boolean b

/-- The line of a text. -/
def textEntry (key : String) (bare : BareKey key) (t : Text) : TomlEntry where
  key := key
  text := tomlQuoted t
  value := .text t
  bare := bare
  reads := readsAs_text t

namespace Settings

variable {s : Settings}

/-- The drawing surface as written. -/
def canvasRows (s : Settings) : TomlGroup where
  name := "canvas"
  entries := [numberEntry "width" (by decide) s.canvas.width,
    numberEntry "height" (by decide) s.canvas.height,
    numberEntry "padding" (by decide) s.canvas.padding]
  bare := by decide
  distinct := by simp [numberEntry]

/-- The cues as written. -/
def cueRows (s : Settings) : TomlGroup where
  name := "glitch"
  entries := [numberEntry "duration" (by decide) s.glitch.duration,
    numberEntry "epsilon" (by decide) s.glitch.epsilon]
  bare := by decide
  distinct := by simp [numberEntry]

/-- The ways to edit as written. -/
def editorRows (s : Settings) (short : s.ShortIntegers) : TomlGroup where
  name := "editor"
  entries := [
    integerEntry "coordinate_precision" (by decide) s.editor.coordinatePrecision short.precision,
    switchEntry "write_back" (by decide) s.editor.writeBack]
  bare := by decide
  distinct := by simp [integerEntry, switchEntry]

/-- The watcher as written. -/
def watcherRows (s : Settings) (short : s.ShortIntegers) : TomlGroup where
  name := "watcher"
  entries := [integerEntry "debounce_ms" (by decide) s.watcher.debounceMs short.debounce]
  bare := by decide
  distinct := by simp

/-- The log as written. -/
def logRows (s : Settings) : TomlGroup where
  name := "logging"
  entries := [textEntry "level" (by decide) s.logging.level,
    switchEntry "trace" (by decide) s.logging.trace,
    textEntry "log_file" (by decide) s.logging.logFile]
  bare := by decide
  distinct := by simp [textEntry, switchEntry]

/-- The groups of the settings with the values of their keys. -/
def rows (s : Settings) (short : s.ShortIntegers) : List TomlGroup :=
  [s.canvasRows, s.cueRows, s.editorRows short, s.watcherRows short, s.logRows]

theorem integerLine_eq (key : String) {i : Int}
    (short : (ofNat i.natAbs).length ≤ maxIntegerDigits) :
    integerLine key i = .ok (entryText key (ofInt i)) := by
  rw [integerLine, writeInteger, if_neg (Nat.not_lt.2 short)]
  rfl

/-- All lines can be written. -/
theorem groups_eq (short : s.ShortIntegers) :
    s.groups = (s.rows short).map fun g => g.lines.map .ok := by
  rw [groups, integerLine_eq _ short.precision, integerLine_eq _ short.debounce]
  rfl

theorem writeLines_ok {ε : Type} (lines : List Text) :
    writeLines (lines.map (Except.ok : Text → Except ε Text)) = (lines.flatten, none) := by
  induction lines with
  | nil => rfl
  | cons line lines ih => rw [List.map_cons, writeLines, ih, List.flatten_cons]

theorem intercalate_map {α β : Type} (f : α → β) (mark : α) (groups : List (List α)) :
    List.intercalate [f mark] (groups.map (List.map f)) =
      (List.intercalate [mark] groups).map f := by
  induction groups with
  | nil => rfl
  | cons g groups ih =>
      cases groups with
      | nil => simp [List.intercalate]
      | cons h groups => simpa [List.intercalate] using ih

/-- The text of the settings is the document of their groups. -/
theorem text_eq (short : s.ShortIntegers) : s.text = .ok (groupsText (s.rows short)) := by
  have lines : List.intercalate [.ok ['\n']] s.groups =
      (List.intercalate [['\n']] ((s.rows short).map TomlGroup.lines)).map
        (Except.ok : Text → Except IntegerTooLong Text) := by
    rw [groups_eq short, ← intercalate_map, List.map_map]
    rfl
  rw [text, written, lines, writeLines_ok]
  rfl

/-! ### Reading them -/

theorem rows_distinct (short : s.ShortIntegers) : ((s.rows short).map (·.name.toList)).Nodup := by
  simp [rows, canvasRows, cueRows, editorRows, watcherRows, logRows]

/-- The table of the settings gives a key of one of their groups the value that stands there. -/
theorem gives_of_mem {α : Type} {convert : TomlValue → Except SettingFault α} {standard value : α}
    {group key : String} (short : s.ShortIntegers) {g : TomlGroup} {e : TomlEntry}
    (groups : g ∈ s.rows short) (entries : e ∈ g.entries) (named : g.name = group)
    (keyed : e.key = key) (fits : convert e.value = .ok value) :
    (groupsTable (s.rows short)).Gives group key convert standard value := by
  have table : (groupsTable (s.rows short)).get? g.name.toList =
      some (.table (entriesTable g.entries)) := by
    refine TomlTable.get?_of_mem ?_ (List.mem_map_of_mem groups)
    simpa [groupsTable, Function.comp_def] using rows_distinct short
  have entry : (entriesTable g.entries).get? e.key.toList = some e.value := by
    refine TomlTable.get?_of_mem ?_ (List.mem_map_of_mem entries)
    simpa [entriesTable, Function.comp_def] using g.distinct
  simp only [TomlTable.Gives, ← named, ← keyed, table, entry, fits]

/-- The table of the groups gives every setting its value. -/
theorem readFrom_rows (short : s.ShortIntegers) : s.ReadFrom (groupsTable (s.rows short)) := by
  have canvas : s.canvasRows ∈ s.rows short := by simp [rows]
  have cue : s.cueRows ∈ s.rows short := by simp [rows]
  have editor : s.editorRows short ∈ s.rows short := by simp [rows]
  have watcher : s.watcherRows short ∈ s.rows short := by simp [rows]
  have log : s.logRows ∈ s.rows short := by simp [rows]
  constructor
  case width => exact gives_of_mem short canvas (.head _) rfl rfl rfl
  case height => exact gives_of_mem short canvas (.tail _ (.head _)) rfl rfl rfl
  case padding => exact gives_of_mem short canvas (.tail _ (.tail _ (.head _))) rfl rfl rfl
  case duration => exact gives_of_mem short cue (.head _) rfl rfl rfl
  case epsilon => exact gives_of_mem short cue (.tail _ (.head _)) rfl rfl rfl
  case coordinatePrecision => exact gives_of_mem short editor (.head _) rfl rfl rfl
  case writeBack => exact gives_of_mem short editor (.tail _ (.head _)) rfl rfl rfl
  case debounceMs => exact gives_of_mem short watcher (.head _) rfl rfl rfl
  case level => exact gives_of_mem short log (.head _) rfl rfl rfl
  case trace => exact gives_of_mem short log (.tail _ (.head _)) rfl rfl rfl
  case logFile => exact gives_of_mem short log (.tail _ (.tail _ (.head _))) rfl rfl rfl

/-- The settings are read from their text. -/
theorem ofText_text (short : s.ShortIntegers) {t : Text} (text : s.text = .ok t) :
    Settings.ofText t = .ok s := by
  cases text.symm.trans (text_eq short)
  simp only [ofText, readToml_groups (rows_distinct short), ofTable_eq_ok.2 (readFrom_rows short)]

/-- The numbers of the settings. -/
def numbers (s : Settings) : List Double :=
  [s.canvas.width, s.canvas.height, s.canvas.padding, s.glitch.duration, s.glitch.epsilon]

/-- Settings have the values that they have themselves, unless one of them is not a number. -/
theorem agrees_self_iff (s : Settings) : s.agrees s = true ↔ ∀ x ∈ s.numbers, x ≠ .nan := by
  have same (x : Double) : x.same x = true ↔ x ≠ .nan := by
    cases x with
    | nan => simp [Double.same, Double.le]
    | infinite negative => cases negative <;> simp [Double.same, Double.le]
    | finite negative units fits => simp [Double.same, Double.le]
  simp [agrees, numbers, same, and_assoc]

end Settings

/-- What was saved is what the file holds. -/
theorem SettingsStore.readText_of_save {store : SettingsStore} {d after : Directory} {t : Text}
    (text : store.settings.text = .ok t) (saved : store.save d = .ok after) :
    after.readText settingsFile = .ok t := by
  have whole : store.settings.written = (t, none) := by
    rw [Settings.text] at text
    split at text
    · next written =>
      rw [written, Except.ok.inj text]
    · cases text
  simp only [save, whole, bind_eq_ok, mapError_eq_ok] at saved
  obtain ⟨folder, -, file, written, made⟩ := saved
  cases made
  exact Directory.readText_eq_ok.2 ⟨_, Directory.read_write written, Utf8.decode_encode t⟩

/-- Settings with short integers are written as a text from which they are read again. They are
saved if their folder can be made and their file can be written, and then the file holds this text
and just these settings are loaded from it. They have equal values unless one is not a number. -/
theorem SettingsStore.load_save (store : SettingsStore) (d : Directory)
    (short : store.settings.ShortIntegers) :
    ∃ t, store.settings.text = .ok t ∧ Settings.ofText t = .ok store.settings ∧
      ((∃ after, store.save d = .ok after) ↔
        ∃ d', d.ensureFolder settingsFolder = .ok d' ∧ d'.writable settingsFile = true) ∧
      ∀ after, store.save d = .ok after →
        after.readText settingsFile = .ok t ∧
          ∃ loaded, SettingsStore.load after = .ok loaded ∧ loaded = store.settings ∧
            (loaded.agrees store.settings = true ↔ ∀ x ∈ store.settings.numbers, x ≠ .nan) := by
  obtain ⟨t, text⟩ := Settings.exists_text_iff.2 short
  have reads : Settings.ofText t = .ok store.settings := Settings.ofText_text short text
  refine ⟨t, text, reads, exists_save_iff short, fun after saved => ?_⟩
  have content : after.readText settingsFile = .ok t := readText_of_save text saved
  have loaded : SettingsStore.load after = .ok store.settings := by
    rw [SettingsStore.load, content]
    exact reads
  exact ⟨content, store.settings, loaded, rfl, store.settings.agrees_self_iff⟩

/-- Settings with numbers and texts that are seldom met. -/
def oddSettings : Settings where
  canvas := { width := .infinite true, height := 5e-324, padding := .zero true }
  glitch := { duration := 0.1, epsilon := 1e22 }
  editor := { coordinatePrecision := -12, writeBack := false }
  watcher := { debounceMs := 1000000000000000000000 }
  logging := { level := "\"é\\\n\t\x00\x7f".toList, trace := true, logFile := "a = [1]\r\n".toList }

theorem SettingsStore.load_save_odd :
    oddSettings.ShortIntegers ∧
      oddSettings.text = .ok
        (["[canvas]", "width = -inf", "height = 5e-324", "padding = -0.0", "",
          "[glitch]", "duration = 0.1", "epsilon = 1e+22", "",
          "[editor]", "coordinate_precision = -12", "write_back = false", "",
          "[watcher]", "debounce_ms = 1000000000000000000000", "",
          "[logging]", "level = \"\\\"é\\\\\\n\t\\u0000\\u007f\"", "trace = true",
          "log_file = \"a = [1]\\r\\n\""].flatMap fun line => line.toList ++ ['\n']) ∧
      ∃ after, SettingsStore.save { settings := oddSettings } { nodes := [] } = .ok after ∧
        SettingsStore.load after = .ok oddSettings := by
  have short : oddSettings.ShortIntegers := ⟨by decide +kernel, by decide +kernel⟩
  obtain ⟨t, -, -, saves, loads⟩ :=
    SettingsStore.load_save { settings := oddSettings } { nodes := [] } short
  obtain ⟨after, saved⟩ := saves.2 ⟨_, rfl, by decide +kernel⟩
  obtain ⟨-, loaded, load, same, -⟩ := loads after saved
  exact ⟨short, by decide +kernel, after, saved, load.trans (congrArg _ same)⟩

end WardleyMaps
