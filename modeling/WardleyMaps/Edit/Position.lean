/-
Module: WardleyMaps.Edit.Position
Purpose: Writing a new position into the declaration of an element.
Main exports: updatePosition, applyPosition, matchingLines, pairText
-/
import WardleyMaps.Edit.Place
import WardleyMaps.Number.Fixed
import WardleyMaps.Statement.Field

namespace WardleyMaps

open Text

/-!
A name is moved at its first declaration as component, anchor or submap outside of bodies, or at the
first note whose text holds the name, whichever comes first. Only the contents of one pair of square
brackets are replaced.
-/

/-- The keywords that declare a position for a name. -/
def positionedKeywords : List Text :=
  ["component".toList, "anchor".toList, "submap".toList]

/-- What `accept` makes of the text after at least one blank; as many blanks as possible are passed
over, and fewer if `accept` does not agree. -/
def afterBlanks {α : Type} (accept : Text → Option α) : Text → Option α
  | [] => none
  | c :: rest => if isBlank c then afterBlanks accept rest <|> accept rest else none

/-- What follows the opening bracket after a name and perhaps blanks. -/
def bracketAfterName? (name t : Text) : Option Text :=
  (after? name t).bind fun rest =>
    match trimStart rest with
    | '[' :: opened => some opened
    | _ => none

/-- What follows the opening bracket of a declaration of a name that the text begins with. -/
def declaration? (name t : Text) : Option Text :=
  positionedKeywords.findSome? fun keyword =>
    (after? keyword t).bind (afterBlanks (bracketAfterName? name))

/-- Whether a line without comments declares a name. -/
def declares (name bare : Text) : Bool :=
  (declaration? name (trim bare)).isSome

/-- Whether a line without comments is a note whose text holds a name. -/
def noteHolds (name bare : Text) : Bool :=
  startsWithKeyword "note".toList bare &&
    occurs name (((trim bare).drop 4).takeWhile (· ≠ '['))

/-- The span up to the closing bracket, when `opened` is the end of the line after an opening one.
-/
def spanToBracket (line opened : Text) : Option Span :=
  (cutAt ']' opened).map fun (old, after) =>
    { before := line.take (line.length - opened.length), old, after := ']' :: after }

/-- The contents of the brackets that give the position of a name on a line. -/
def positionSpan (name : Text) (line : SourceLine) : Option Span :=
  if positionedKeywords.any (startsWithKeyword · line.bare) then
    if line.hidden || !declares name line.bare then none
    else (findEdge (declaration? name) false line.raw).bind (spanToBracket line.raw)
  else if noteHolds name line.bare then
    (cut "note".toList line.raw).bind fun (_, rest) =>
      (cutAt '[' rest).bind fun (_, opened) => spanToBracket line.raw opened
  else none

/-- The text of a position between brackets. -/
def pairText (precision : Int) (p : Position) : Except PrecisionError Text := do
  let visibility ← p.visibility.fixedText precision
  let maturity ← p.maturity.fixedText precision
  .ok (visibility ++ ", ".toList ++ maturity)

/-- Write a position into the first declaration of a name, none if there is none. -/
def updatePosition (source name : Text) (position : Position) (precision : Int) :
    Except PrecisionError (Option Edited) := do
  let new ← pairText precision position
  .ok ((locateFirst (positionSpan name) (sourceForms source)).map (·.write new))

/-- The source with a position written into the first declaration of a name, unchanged if there is
none. -/
def applyPosition (source name : Text) (position : Position) (precision : Int) :
    Except PrecisionError Text :=
  (updatePosition source name position precision).map fun edited =>
    (edited.map (·.source)).getD source

/-- The numbers of the lines that declare a name outside of bodies. -/
def matchingLines (source name : Text) : List Nat :=
  ((sourceForms source).zipIdx 1).filterMap fun (line, number) =>
    if !line.hidden && declares name line.bare then some number else none

end WardleyMaps
