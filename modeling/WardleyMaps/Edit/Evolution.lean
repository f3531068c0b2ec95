/-
Module: WardleyMaps.Edit.Evolution
Purpose: Writing a new maturity into the statement that evolves a component.
Main exports: updateEvolution, applyEvolution
-/
import WardleyMaps.Edit.Position
import WardleyMaps.Statement.Evolve

namespace WardleyMaps

open Text

/-!
The maturity is written into the first `evolve` statement that names the component, at the first
maturity token after the name. The name ends at a blank or at the arrow before a new name.
-/

/-- What follows a name, if a blank or an arrow ends it there. -/
def endOfName? (name t : Text) : Option Text :=
  (after? name t).bind fun rest =>
    match rest with
    | c :: _ => if isBlank c || startsWith ['-', '>'] rest then some rest else none
    | [] => none

/-- What follows the name of an `evolve` statement that the text begins with. -/
def evolveHeader? (name t : Text) : Option Text :=
  (after? "evolve".toList t).bind (afterBlanks (endOfName? name))

/-- The maturity token of the statement that evolves a name on a line. -/
def maturitySpan (name : Text) (line : SourceLine) : Option Span :=
  if startsWithKeyword "evolve".toList line.bare
      && (evolveHeader? name (trim line.bare)).isSome then
    (findPlace (evolveHeader? name) line.raw).bind fun rest =>
      (findMaturity rest).map fun found =>
        { before := line.raw.take (line.raw.length - (found.token ++ found.rest).length)
          old := found.token
          after := found.rest }
  else none

/-- Write a maturity into the first statement that evolves a name, none if there is none. -/
def updateEvolution (source name : Text) (maturity : Double) (precision : Int) :
    Except PrecisionError (Option Edited) :=
  match locateFirst (maturitySpan name) (sourceForms source) with
  | none => .ok none
  | some place => (maturity.fixedText precision).map fun new => some (place.write new)

/-- The source with a maturity written into the first statement that evolves a name, unchanged if
there is none. -/
def applyEvolution (source name : Text) (maturity : Double) (precision : Int) :
    Except PrecisionError Text :=
  (updateEvolution source name maturity precision).map fun edited =>
    (edited.map (·.source)).getD source

end WardleyMaps
