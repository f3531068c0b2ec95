/-
Module: WardleyMaps.Statement.Evolve
Purpose: The statement `evolve` and the maturity token in it.
Main exports: MaturityToken, findMaturity, readEvolution
-/
import WardleyMaps.Statement.Option

namespace WardleyMaps

open Text

/-!
No mark separates the name of an evolving component from its maturity. The maturity is the first
token that follows a blank, consists of digits with one point among them or before them, and is
followed by neither a digit nor a point. Names of several words, and names that end in a whole
number, are read as names.
-/

/-- A maturity token, the blank before it and the text around both. -/
structure MaturityToken where
  before : Text
  blank : Char
  token : Text
  rest : Text
deriving DecidableEq, Repr

/-- Digits, a point and at least one digit, with no point after them; and what follows. -/
def scanMaturity (t : Text) : Option (Text × Text) :=
  match t.dropWhile isDigit with
  | '.' :: later =>
      let fraction := later.takeWhile isDigit
      let rest := later.dropWhile isDigit
      if fraction.isEmpty || rest.head? = some '.' then none
      else some (t.takeWhile isDigit ++ '.' :: fraction, rest)
  | _ => none

/-- The first maturity token of a text. -/
def findMaturity : Text → Option MaturityToken
  | [] => none
  | c :: rest =>
      match if isBlank c then scanMaturity rest else none with
      | some (token, later) => some { before := [], blank := c, token, rest := later }
      | none => (findMaturity rest).map fun found => { found with before := c :: found.before }

/-- The number that a maturity token denotes. -/
def maturityValue (token : Text) : Double :=
  (Double.read? token).getD .nan

/-- The statement `evolve name maturity` or `evolve name->new name maturity` with its options. -/
def readEvolution (number : Nat) (line : Text) : Except Cause Evolution := do
  match findMaturity (' ' :: afterKeyword "evolve".toList line) with
  | none => .error (.missing "evolve" "a maturity value")
  | some found =>
      let target := trim found.before
      let (name, newName) :=
        match cut "->".toList target with
        | some (name, newName) => (trim name, trim newName)
        | none => (target, [])
      let name ← requireText "evolve" "component name" name
      let reading := readDecorators found.rest
      let label ← readLabel reading.spacing found.rest
      .ok
        { line := number
          name
          maturity := maturityValue found.token
          newName
          label
          decorators := reading.decorators
          labelSpacing := reading.spacing }

end WardleyMaps
