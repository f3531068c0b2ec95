/-
Module: WardleyMaps.Settings.Store
Purpose: Settings that are kept in a file.
Main exports: SettingsStore, SettingsStore.load, SettingsStore.save, SettingsStore.ensureFile
-/
import WardleyMaps.Fault
import WardleyMaps.Settings.Write

namespace WardleyMaps

/-!
The file with the settings has a fixed place below the working directory. Nothing is written before
it is asked for: a missing file stands for the standard settings.
-/

/-- The folder of the settings file. -/
def settingsFolder : Text := "config".toList

/-- The settings file. -/
def settingsFile : Text := "config/settings.toml".toList

/-- The settings in use, and whether the file was missing when they were first loaded and has not
been written since by completing it. -/
structure SettingsStore where
  settings : Settings := {}
  missing : Bool := false
deriving DecidableEq

/-- A save that came to no good end: why, and the directory as it was left. -/
structure SaveFault where
  fault : Fault
  directory : Directory
deriving DecidableEq

namespace SettingsStore

/-- The settings of the file, the standard ones if it is missing or cannot be used. -/
def load (d : Directory) : Except LoadFault Settings :=
  match d.readText settingsFile with
  | .ok t => Settings.ofText t
  | .error _ => .ok {}

/-- The store of a directory. -/
def ofDirectory (d : Directory) : Except LoadFault SettingsStore :=
  (load d).map fun settings => { settings, missing := !d.present settingsFile }

/-- Write all settings to the file and make its folder. What comes before an integer that is too
long is written all the same. -/
def save (s : SettingsStore) (d : Directory) : Except SaveFault Directory := do
  let d ← (d.ensureFolder settingsFolder).mapError fun e => { fault := .file e, directory := d }
  let (text, tooLong) := s.settings.written
  let d ← (d.writeText settingsFile text).mapError fun e =>
    { fault := .file e.fault, directory := e.directory }
  match tooLong with
  | none => .ok d
  | some e => .error { fault := .integer e, directory := d }

/-- Write the file if it is missing, or was when the settings were loaded. -/
def ensureFile (s : SettingsStore) (d : Directory) : Except SaveFault (SettingsStore × Directory) :=
  if s.missing || !d.present settingsFile then
    (s.save d).map fun d => ({ s with missing := false }, d)
  else .ok (s, d)

/-- Load the settings again. -/
def reload (s : SettingsStore) (d : Directory) : Except LoadFault SettingsStore :=
  (load d).map fun settings => { s with settings }

end SettingsStore

end WardleyMaps
