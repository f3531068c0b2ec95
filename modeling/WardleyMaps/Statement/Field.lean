/-
Module: WardleyMaps.Statement.Field
Purpose: The fields that statements share: their keyword, brackets and numbers.
Main exports: startsWithKeyword, afterKeyword, splitBracket, readCoordinates, readPlaced
-/
import WardleyMaps.Document.Basic
import WardleyMaps.Text.Cut

namespace WardleyMaps

open Text

/-!
A statement is one line. It begins with its keyword as a whole token, and most statements give
coordinates as numbers between commas in the first pair of square brackets.
-/

/-- Whether a line begins with a keyword that ends there or is followed by a blank. -/
def startsWithKeyword (keyword line : Text) : Bool :=
  match after? keyword (trim line) with
  | some [] => true
  | some (c :: _) => isBlank c
  | none => false

/-- What stands on a line after its first characters, as many as the keyword has. -/
def afterKeyword (keyword line : Text) : Text :=
  trim ((trim line).drop keyword.length)

/-- The number that a token denotes. -/
def readNumber (field : String) (token : Text) : Except Cause Double :=
  match Double.read? (trim token) with
  | some x => .ok x
  | none => .error (.invalidNumber field (trim token))

/-- What stands before, in and after the first pair of square brackets. -/
structure Bracketed where
  before : Text
  inside : Text
  after : Text
deriving DecidableEq, Repr

/-- The first pair of square brackets of a text, none without an opening bracket. -/
def splitBracket (t : Text) : Except Cause (Option Bracketed) :=
  match cutAt '[' t with
  | none => .ok none
  | some (before, rest) =>
      match cutAt ']' rest with
      | none => .error (.unclosedBracket "coordinates")
      | some (inside, after) => .ok (some { before, inside, after })

/-- The first pair of square brackets of a statement that needs one. -/
def requireBracket (statement part : String) (t : Text) : Except Cause Bracketed := do
  match ← splitBracket t with
  | some b => .ok b
  | none => .error (.missing statement part)

/-- The numbers between the commas of a bracket, which must be as many as asked for. -/
def readCoordinates (count : Int) (field : String) (inside : Text) : Except Cause (List Double) :=
  let parts := (inside.splitOn ',').map trim
  if (parts.length : Int) ≠ count || parts.contains [] then
    .error (.wrongCount count field (trim inside))
  else parts.mapM (readNumber field)

/-- The two numbers of a bracket. -/
def readPair (field : String) (inside : Text) : Except Cause (Double × Double) := do
  match ← readCoordinates 2 field inside with
  | [a, b] => .ok (a, b)
  | _ => .error (.wrongCount 2 field (trim inside))

/-- The position that a bracket holds. -/
def readPosition (field : String) (inside : Text) : Except Cause Position := do
  let (visibility, maturity) ← readPair field inside
  .ok { visibility, maturity }

/-- A name with the position after it, and what follows the bracket. -/
structure Placed where
  name : Text
  position : Position
  tail : Text
deriving DecidableEq

/-- A statement of the form `name [visibility, maturity] tail`. -/
def readPlaced (statement : String) (rest : Text) : Except Cause Placed := do
  let b ← requireBracket statement "[visibility, maturity]" rest
  let position ← readPosition (statement ++ " coordinates") b.inside
  .ok { name := trim b.before, position, tail := b.after }

/-- A name that must not be empty. -/
def requireText (statement part : String) (t : Text) : Except Cause Text :=
  if t.isEmpty then .error (.without statement part) else .ok t

end WardleyMaps
