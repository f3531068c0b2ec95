/-
Module: WardleyMaps.Settings.Basic
Purpose: The groups of settings and their standard values.
Main exports: Settings, CanvasSettings, CueSettings, EditorSettings, WatcherSettings, LogSettings,
  Settings.agrees
-/
import WardleyMaps.Number.Double
import WardleyMaps.Text.Blank

namespace WardleyMaps

/-!
Every setting has a standard value, so that a file with settings needs to name only those that
differ.
-/

/-- The drawing surface, in pixels. -/
structure CanvasSettings where
  width : Double := 500
  height : Double := 600
  padding : Double := 20
deriving DecidableEq

/-- How long cues run and how far an element may move without one. -/
structure CueSettings where
  duration : Double := 0.8
  epsilon : Double := 0.001
deriving DecidableEq

/-- How many places written coordinates have, and whether edits are saved at once. -/
structure EditorSettings where
  coordinatePrecision : Int := 2
  writeBack : Bool := true
deriving DecidableEq

/-- How long a file must be quiet before it is read again. -/
structure WatcherSettings where
  debounceMs : Int := 100
deriving DecidableEq

/-- The least level of records, whether steps are traced, and a file for the records. -/
structure LogSettings where
  level : Text := "WARNING".toList
  trace : Bool := false
  logFile : Text := []
deriving DecidableEq

/-- All settings. -/
structure Settings where
  canvas : CanvasSettings := {}
  glitch : CueSettings := {}
  editor : EditorSettings := {}
  watcher : WatcherSettings := {}
  logging : LogSettings := {}
deriving DecidableEq

/-- Whether two settings have equal values; numbers are compared as numbers, so that both zeros
agree and an undefined number agrees with none. -/
def Settings.agrees (a b : Settings) : Bool :=
  a.canvas.width.same b.canvas.width && a.canvas.height.same b.canvas.height
    && a.canvas.padding.same b.canvas.padding && a.glitch.duration.same b.glitch.duration
    && a.glitch.epsilon.same b.glitch.epsilon && a.editor = b.editor && a.watcher = b.watcher
    && a.logging = b.logging

end WardleyMaps
