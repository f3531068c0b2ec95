/-
Module: WardleyMaps.Report
Purpose: What readings, edits and cues report to the log.
Main exports: readingEntries, moveEntries, evolveEntries, cueEntries
-/
import WardleyMaps.Cue
import WardleyMaps.Document.Read
import WardleyMaps.Edit.Evolution
import WardleyMaps.Log

namespace WardleyMaps

open Text

/-- What the reading of a source reports: its size, and where the first problem is. -/
def readingEntries (source : Text) (d : Document) : List LogEntry :=
  let size := s!"parsed {(lines source).length} lines: {d.elements.length} elements, "
    ++ s!"{d.links.length} links, {d.problems.length} errors"
  let problems :=
    match d.problems with
    | [] => []
    | first :: _ =>
        let notice := s!"parse produced {d.problems.length} error(s), first on line {first.line}"
        [.event 10 "wardley.parser".toList notice.toList]
  .trace "PARSE".toList size.toList :: problems

/-- What the move of a name reports. -/
def moveEntries (name : Text) : Option Edited → List LogEntry
  | some e =>
      let place := s!" on line {e.lineNumber} to ["
      [.trace "PATCH".toList
        ("moved ".toList ++ quoted name ++ place.toList ++ e.written ++ [']'])]
  | none =>
      [.event 10 "wardley.patcher".toList
        ("no declaration named ".toList ++ quoted name ++ " to move".toList)]

/-- What the evolution of a name reports. -/
def evolveEntries (name : Text) : Option Edited → List LogEntry
  | some e =>
      let place := s!" on line {e.lineNumber} to "
      [.trace "PATCH".toList ("evolved ".toList ++ quoted name ++ place.toList ++ e.written)]
  | none =>
      [.event 10 "wardley.patcher".toList ("no evolve statement for ".toList ++ quoted name)]

/-- What new cues report. -/
def cueEntries (cues : List Cue) : List LogEntry :=
  if cues.isEmpty then []
  else [.trace "GLITCH".toList ("glitch cues: ".toList ++ quotedList (cues.map (·.name)))]

end WardleyMaps
