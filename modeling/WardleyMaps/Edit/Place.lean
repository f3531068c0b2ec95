/-
Module: WardleyMaps.Edit.Place
Purpose: The place of an edit: a span of one source line and the lines around it.
Main exports: SourceLine, Span, EditPlace, EditPlace.source, locateFirst
-/
import WardleyMaps.Body
import WardleyMaps.Comment

namespace WardleyMaps

open Text

/-!
An edit replaces one span of one line and keeps every other character of the source. Statements are
recognised on the lines without comments, and the span is then looked for on the line as it stands
in the source, so a line is carried in both forms.
-/

/-- A line of the source, the same line without comments, and whether it lies inside a body. -/
structure SourceLine where
  raw : Text
  bare : Text
  hidden : Bool
deriving DecidableEq, Repr

/-- The lines of a source in both forms. -/
def sourceForms (source : Text) : List SourceLine :=
  let raw := lines source
  let bare := stripLines false raw
  List.zipWith (fun raw (bare, hidden) => { raw, bare, hidden }) raw (bare.zip (inBody bare))

/-- A span of a line and what stands before and after it. -/
structure Span where
  before : Text
  old : Text
  after : Text
deriving DecidableEq, Repr

/-- The line with another text in the span. -/
def Span.line (s : Span) (new : Text) : Text :=
  s.before ++ new ++ s.after

/-- A span of a source and the lines above and below the span's line. -/
structure EditPlace where
  above : List Text
  span : Span
  below : List Text
deriving DecidableEq, Repr

/-- The number of the line of a place. -/
def EditPlace.lineNumber (p : EditPlace) : Nat :=
  p.above.length + 1

/-- The source with another text at the place. -/
def EditPlace.source (p : EditPlace) (new : Text) : Text :=
  unlines (p.above ++ p.span.line new :: p.below)

/-- The first line on which a span is found. -/
def locateFirst (locate : SourceLine → Option Span) : List SourceLine → Option EditPlace
  | [] => none
  | line :: rest =>
      match locate line with
      | some span => some { above := [], span, below := rest.map (·.raw) }
      | none => (locateFirst locate rest).map fun p => { p with above := line.raw :: p.above }

/-- An edit that was made: the number of its line, the text that was written and the new source. -/
structure Edited where
  lineNumber : Nat
  written : Text
  source : Text
deriving DecidableEq, Repr

/-- Write a text at a place. -/
def EditPlace.write (p : EditPlace) (new : Text) : Edited :=
  { lineNumber := p.lineNumber, written := new, source := p.source new }

end WardleyMaps
