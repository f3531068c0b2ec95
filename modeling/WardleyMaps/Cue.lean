/-
Module: WardleyMaps.Cue
Purpose: Short highlights of the elements that a new document brings or moves.
Main exports: Cue, detectChanges, CueTracker, CueTracker.record, CueTracker.sample, byName
-/
import WardleyMaps.Document.Basic

namespace WardleyMaps

/-!
After each reading the elements are compared with those of the document before. An element that is
new, or lies more than a tolerance away from where the first element of its name lay, gets a cue
unless it has one already. A cue ends when its age reaches the duration. The first document of all
brings no cues.
-/

/-- A highlight of an element since a point in time. -/
structure Cue where
  name : Text
  start : Double
  isNew : Bool
deriving DecidableEq

/-- How long a cue runs unless the settings say otherwise. -/
def standardDuration : Double := 0.8

/-- How far an element may move unnoticed unless the settings say otherwise. -/
def standardTolerance : Double := 0.001

/-- Whether the age of a cue has reached the duration. -/
def Cue.expired (c : Cue) (now : Double) (duration : Double) : Bool :=
  duration.le (now - c.start)

/-- The name of an element and its place. -/
structure Spot where
  name : Text
  position : Position
deriving DecidableEq

/-- The place of a component under its name. -/
def Component.spot (c : Component) : Spot :=
  { name := c.name, position := c.position }

/-- Whether two positions differ by more than a tolerance on an axis. -/
def movedBeyond (tolerance : Double) (a b : Position) : Bool :=
  tolerance.lt (a.visibility - b.visibility).abs || tolerance.lt (a.maturity - b.maturity).abs

/-- The cue for one element, given the elements before. -/
def cueFor (before : List Spot) (now tolerance : Double) (s : Spot) : Option Cue :=
  match before.find? (·.name = s.name) with
  | none => some { name := s.name, start := now, isNew := true }
  | some old =>
      if movedBeyond tolerance s.position old.position then
        some { name := s.name, start := now, isNew := false }
      else none

/-- The new cues for the current elements, in order; elements with a running cue get none. -/
def detectChanges (previous : Option (List Spot)) (current : List Spot) (now : Double)
    (active : List Text) (tolerance : Double) : List Cue :=
  match previous with
  | none => []
  | some before =>
      (current.filter fun s => !active.contains s.name).filterMap (cueFor before now tolerance)

/-- The running cues, with the duration and the tolerance that hold for all of them. -/
structure CueTracker where
  duration : Double
  tolerance : Double
  cues : List Cue := []
deriving DecidableEq

/-- How far a cue has run, from zero to one. -/
structure CueProgress where
  progress : Double
  isNew : Bool
deriving DecidableEq

/-- Entries by their names. Of several entries of one name the last one counts, and it stands where
the first of them stood. -/
def byName {α : Type} : List (Text × α) → List (Text × α)
  | [] => []
  | (name, value) :: rest =>
      let later := byName rest
      (name, (later.lookup name).getD value) :: later.filter fun entry => entry.1 ≠ name

namespace CueTracker

/-- The names with a running cue. -/
def activeNames (t : CueTracker) : List Text :=
  t.cues.map (·.name)

/-- Whether a name has a running cue. -/
def isActive (t : CueTracker) (name : Text) : Bool :=
  t.activeNames.contains name

/-- End the cues whose age has reached the duration. -/
def prune (t : CueTracker) (now : Double) : CueTracker :=
  { t with cues := t.cues.filter fun c => !c.expired now t.duration }

/-- Compare two documents and start cues for the changed elements. Cues that are over end first, so
that their elements may get a new one. -/
def record (t : CueTracker) (previous : Option Document) (current : Document) (now : Double) :
    CueTracker × List Cue :=
  let t := t.prune now
  let before := previous.map fun d => d.elements.map Component.spot
  let spots := current.elements.map Component.spot
  let cues := detectChanges before spots now t.activeNames t.tolerance
  ({ t with cues := t.cues ++ cues }, cues)

/-- How far one cue has run; with a duration that is not positive it is over at once. -/
def progressOf (t : CueTracker) (now : Double) (c : Cue) : CueProgress :=
  let share := if (0 : Double).lt t.duration then (now - c.start) / t.duration else 1
  { progress := share.clampUnit, isNew := c.isNew }

/-- The running cues by name, after those that are over have ended. -/
def sample (t : CueTracker) (now : Double) : CueTracker × List (Text × CueProgress) :=
  let t := t.prune now
  (t, byName (t.cues.map fun c => (c.name, t.progressOf now c)))

/-- End all cues. -/
def clear (t : CueTracker) : CueTracker :=
  { t with cues := [] }

end CueTracker

end WardleyMaps
