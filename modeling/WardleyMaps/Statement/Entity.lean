/-
Module: WardleyMaps.Statement.Entity
Purpose: The statements that place something on the map or describe the map as a whole.
Main exports: readTitle, readStages, readComponent, readAnchor, readNote, readAttitude, readMethod
-/
import WardleyMaps.Statement.Option

namespace WardleyMaps

open Text

/-!
Each reader takes the number of a line and the line, without its comments, and returns one entity or
the cause why there is none. A reader trusts that the line begins with its keyword and passes over
as many characters as the keyword has.
-/

/-- The statement `title` with a text. -/
def readTitle (line : Text) : Except Cause Text :=
  requireText "title statement" "text" (afterKeyword "title".toList line)

/-- The statement `style` with a name. -/
def readStyle (line : Text) : Except Cause Text :=
  requireText "style statement" "name" (afterKeyword "style".toList line)

/-- The statement `evolution` with the names of four stages; further names are ignored. -/
def readStages (line : Text) : Except Cause (List Stage) :=
  let parts := (pieces "->".toList (by decide) (afterKeyword "evolution".toList line)).map trim
  if parts.length < 4 || (parts.take 4).contains [] then .error .stagesNeeded
  else .ok ((parts.take 4).map fun part => { line1 := part })

/-- The statement `size` with a width and a height. -/
def readSize (line : Text) : Except Cause Size := do
  let b ← requireBracket "size" "[width, height]" (afterKeyword "size".toList line)
  let (width, height) ← readPair "size" b.inside
  .ok { width, height }

/-- The statement `annotations` with the place of the list of annotations. -/
def readLegend (line : Text) : Except Cause Position := do
  let b ← requireBracket "annotations" "[visibility, maturity]"
    (afterKeyword "annotations".toList line)
  readPosition "annotations position" b.inside

/-- The keyword of a component or of a submap. -/
def componentKeyword (submap : Bool) : String :=
  if submap then "submap" else "component"

/-- The statement `component` or `submap` with its options. -/
def readComponent (submap : Bool) (number : Nat) (line : Text) : Except Cause Component := do
  let keyword := componentKeyword submap
  let placed ← readPlaced keyword (afterKeyword keyword.toList line)
  let name ← requireText keyword "name" placed.name
  let reading := readDecorators placed.tail
  let label ← readLabel reading.spacing placed.tail
  .ok
    { line := number
      name
      position := placed.position
      inertia := reading.inertia || hasInertia placed.tail
      evolveTo := readInlineEvolution placed.tail
      label
      decorators := reading.decorators
      labelSpacing := reading.spacing
      reference := readReference placed.tail
      submap }

/-- The statement `anchor`. -/
def readAnchor (number : Nat) (line : Text) : Except Cause Anchor := do
  let placed ← readPlaced "anchor" (afterKeyword "anchor".toList line)
  let name ← requireText "anchor" "name" placed.name
  .ok { line := number, name, position := placed.position }

/-- The statement `note`. -/
def readNote (number : Nat) (line : Text) : Except Cause Note := do
  let placed ← readPlaced "note" (afterKeyword "note".toList line)
  let text ← requireText "note" "text" placed.name
  .ok { line := number, text, position := placed.position }

/-- The keyword of an accelerator or of a deaccelerator. -/
def acceleratorKeyword (slowing : Bool) : String :=
  if slowing then "deaccelerator" else "accelerator"

/-- The statement `accelerator` or `deaccelerator`. -/
def readAccelerator (slowing : Bool) (number : Nat) (line : Text) : Except Cause Accelerator := do
  let keyword := acceleratorKeyword slowing
  let placed ← readPlaced keyword (afterKeyword keyword.toList line)
  let name ← requireText keyword "name" placed.name
  .ok { line := number, name, position := placed.position, slowing }

/-- The statement `url` with a name and an address. -/
def readAddress (number : Nat) (line : Text) : Except Cause Address := do
  let b ← requireBracket "url" "[address]" (afterKeyword "url".toList line)
  let name ← requireText "url" "name" (trim b.before)
  let address := trim b.inside
  if address.isEmpty then .error .emptyAddress else .ok { line := number, name, address }

/-- The keyword of an attitude. -/
def AttitudeKind.keyword : AttitudeKind → String
  | .pioneers => "pioneers"
  | .settlers => "settlers"
  | .townplanners => "townplanners"

/-- The statement of an attitude with two opposite corners and perhaps a width and a height. -/
def readAttitude (kind : AttitudeKind) (number : Nat) (line : Text) : Except Cause Attitude := do
  let keyword := kind.keyword
  let b ← requireBracket keyword "[v1, m1, v2, m2]" (afterKeyword keyword.toList line)
  match ← readCoordinates 4 (keyword ++ " area") b.inside with
  | [v1, m1, v2, m2] =>
      let size := words b.after
      .ok
        { line := number
          kind
          corner := { visibility := v1, maturity := m1 }
          opposite := { visibility := v2, maturity := m2 }
          width := size[0]?
          height := size[1]? }
  | _ => .error (.wrongCount 4 (keyword ++ " area") (trim b.inside))

/-- The keyword of a method. -/
def MethodKind.keyword : MethodKind → String
  | .buy => "buy"
  | .build => "build"
  | .outsource => "outsource"

/-- The statement of a method with the name of a component. -/
def readMethod (kind : MethodKind) (number : Nat) (line : Text) : Except Cause Method := do
  let name ← requireText kind.keyword "component name" (afterKeyword kind.keyword.toList line)
  .ok { line := number, name, kind }

end WardleyMaps
