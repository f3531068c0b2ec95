/-
Module: WardleyMaps.Document.Basic
Purpose: The map document: its entities, its presentation and the problems found while reading it.
Main exports: Document, Component, Link, Pipeline, NumberedNote, Problem, Cause
-/
import WardleyMaps.Number.Numeral
import WardleyMaps.Text.Quoted

namespace WardleyMaps

/-!
A document is a snapshot: entities hold values and names, and a link or an evolution refers to a
component by name only. Lines are counted from one. Positions are kept as they were read, also when
they lie outside the unit square.
-/

/-- A place on the map: the height in the value chain and the stage of evolution. -/
structure Position where
  visibility : Double
  maturity : Double
deriving DecidableEq

/-- Where a label stands, in pixels from the marker of its element. -/
structure LabelOffset where
  x : Double
  y : Double
deriving DecidableEq

/-- The offset of a label that the map does not place. -/
def LabelOffset.standard : LabelOffset := { x := 5, y := -10 }

/-- The offset multiplied by a number. -/
def LabelOffset.times (offset : LabelOffset) (factor : Double) : LabelOffset :=
  { x := offset.x * factor, y := offset.y * factor }

/-- The offset multiplied by the spacing of decorators; without spacing it stays. -/
def LabelOffset.spread (offset : LabelOffset) (spacing : Nat) : LabelOffset :=
  if spacing = 0 then offset else offset.times (.ofNat spacing)

/-- The offset multiplied by any integer; one that is not positive changes nothing, and one beyond
all numbers cannot be used. -/
def LabelOffset.scaled (offset : LabelOffset) (factor : Int) : Except Overflow LabelOffset :=
  if factor ≤ 0 then .ok offset else (Double.ofInteger factor).map offset.times

/-- The flags in parentheses after a component. -/
structure Decorators where
  ecosystem : Bool := false
  market : Bool := false
  buy : Bool := false
  build : Bool := false
  outsource : Bool := false
deriving DecidableEq, Repr

/-- One stage along the axis of evolution; the second line of its label may be empty. -/
structure Stage where
  line1 : Text
  line2 : Text := []
deriving DecidableEq, Repr

/-- The four stages of a map that names none. -/
def standardStages : List Stage :=
  [{ line1 := "Genesis".toList }, { line1 := "Custom-Built".toList },
    { line1 := "Product".toList, line2 := "(+rental)".toList },
    { line1 := "Commodity".toList, line2 := "(+utility)".toList }]

/-- A component or a submap. -/
structure Component where
  line : Nat
  name : Text
  position : Position
  inertia : Bool := false
  evolveTo : Option Double := none
  label : LabelOffset := LabelOffset.standard
  decorators : Decorators := {}
  labelSpacing : Nat := 0
  reference : Option Text := none
  submap : Bool := false
deriving DecidableEq

/-- A user need that anchors the map. -/
structure Anchor where
  line : Nat
  name : Text
  position : Position
deriving DecidableEq

/-- A free text on the map. -/
structure Note where
  line : Nat
  text : Text
  position : Position
deriving DecidableEq

/-- A force that speeds evolution up or slows it down. -/
structure Accelerator where
  line : Nat
  name : Text
  position : Position
  slowing : Bool
deriving DecidableEq

/-- The seven arrows of a link: a dependency, the three plain flows and the three flows that carry a
value. -/
inductive Arrow where
  | dependency
  | flow
  | flowBoth
  | flowBack
  | value (carried : Text)
  | valueBoth (carried : Text)
  | valueBack (carried : Text)
deriving DecidableEq, Repr

/-- Every arrow but the dependency is a flow. -/
def Arrow.isFlow : Arrow → Bool
  | .dependency => false
  | _ => true

/-- Flows towards the future. -/
def Arrow.isFuture : Arrow → Bool
  | .flowBack | .value _ | .valueBoth _ => true
  | _ => false

/-- Flows towards the past. -/
def Arrow.isPast : Arrow → Bool
  | .flowBoth | .valueBoth _ | .valueBack _ => true
  | _ => false

/-- The value that a flow carries. -/
def Arrow.carried? : Arrow → Option Text
  | .value v | .valueBoth v | .valueBack v => some v
  | _ => none

/-- A dependency or a flow between two names. -/
structure Link where
  start : Text
  target : Text
  arrow : Arrow
  context : Option Text := none
deriving DecidableEq, Repr

/-- The expected evolution of a component, perhaps under another name. -/
structure Evolution where
  line : Nat
  name : Text
  maturity : Double
  newName : Text := []
  label : LabelOffset := LabelOffset.standard
  decorators : Decorators := {}
  labelSpacing : Nat := 0
deriving DecidableEq

/-- The name under which the evolved component is drawn. -/
def Evolution.displayName (e : Evolution) : Text :=
  if e.newName.isEmpty then e.name else e.newName

/-- A component inside a pipeline, which has a maturity only. -/
structure PipelineChild where
  line : Nat
  name : Text
  maturity : Double
  label : LabelOffset := LabelOffset.standard
deriving DecidableEq

/-- A band of maturity that groups interchangeable components. -/
structure Pipeline where
  line : Nat
  name : Text
  shown : Bool := false
  first : Double := 0.2
  last : Double := 0.8
  children : List PipelineChild := []
deriving DecidableEq

/-- An annotation: a number that stands at one or more places, and its text. -/
structure NumberedNote where
  line : Nat
  number : Nat
  places : List Position
  text : Text
deriving DecidableEq

/-- A name for an address. -/
structure Address where
  line : Nat
  name : Text
  address : Text
deriving DecidableEq, Repr

/-- The three attitudes towards a part of the map. -/
inductive AttitudeKind where
  | pioneers
  | settlers
  | townplanners
deriving DecidableEq, Repr

/-- An area of the map and the attitude of those who work there; the sizes are kept as written. -/
structure Attitude where
  line : Nat
  kind : AttitudeKind
  corner : Position
  opposite : Position
  width : Option Text
  height : Option Text
deriving DecidableEq

/-- The three ways to obtain a component. -/
inductive MethodKind where
  | buy
  | build
  | outsource
deriving DecidableEq, Repr

/-- The decorator that says the same as a method. -/
def MethodKind.decorators : MethodKind → Decorators
  | .buy => { buy := true }
  | .build => { build := true }
  | .outsource => { outsource := true }

/-- How a component is to be obtained. -/
structure Method where
  line : Nat
  name : Text
  kind : MethodKind
deriving DecidableEq, Repr

/-- The size of the drawing surface; zeros ask for no particular size. -/
structure Size where
  width : Double
  height : Double
deriving DecidableEq

/-- Whether a size asks for a particular surface. -/
def Size.isSet (s : Size) : Bool :=
  (0 : Double).lt s.width && (0 : Double).lt s.height

/-- How the map as a whole is shown. -/
structure Presentation where
  style : Text := "plain".toList
  legend : Position := { visibility := 0.9, maturity := 0.1 }
  size : Size := { width := 0, height := 0 }
deriving DecidableEq

/-- Problems are faults of one statement, or settings of the whole map that cannot be applied. -/
inductive ProblemKind where
  | lineSyntax
  | configuration
deriving DecidableEq, Repr

/-- What is wrong with a statement. -/
inductive Cause where
  | invalidNumber (field : String) (token : Text)
  | wrongCount (count : Int) (field : String) (inside : Text)
  | unclosedBracket (place : String)
  | unclosedBody
  | missing (statement part : String)
  | without (statement part : String)
  | emptyAddress
  | stagesNeeded
  | endpointsNeeded
deriving DecidableEq, Repr

/-- Only the naming of the stages concerns the whole map. -/
def Cause.kind : Cause → ProblemKind
  | .stagesNeeded => .configuration
  | _ => .lineSyntax

/-- The wording of a cause. -/
def Cause.message : Cause → String
  | .invalidNumber field token => s!"invalid {field} {String.ofList (Text.quoted token)}"
  | .wrongCount count field inside =>
      s!"expected {count} comma-separated values in {field}, got [{String.ofList inside}]"
  | .unclosedBracket place => s!"unclosed '[' in {place}"
  | .unclosedBody => "unclosed '\x7b' in pipeline body"
  | .missing statement part => s!"{statement} is missing {part}"
  | .without statement part => s!"{statement} has no {part}"
  | .emptyAddress => "url has an empty address"
  | .stagesNeeded => "evolution needs four stages separated by '->'; using defaults"
  | .endpointsNeeded => "link needs both a start and an end name"

/-- A problem on one line. -/
structure Problem where
  line : Nat
  cause : Cause
deriving DecidableEq, Repr

/-- A map as it was read. -/
structure Document where
  title : Text := "Untitled Map".toList
  elements : List Component := []
  links : List Link := []
  anchors : List Anchor := []
  evolved : List Evolution := []
  pipelines : List Pipeline := []
  annotations : List NumberedNote := []
  notes : List Note := []
  stages : List Stage := standardStages
  submaps : List Component := []
  addresses : List Address := []
  attitudes : List Attitude := []
  accelerators : List Accelerator := []
  methods : List Method := []
  presentation : Presentation := {}
  problems : List Problem := []
deriving DecidableEq

end WardleyMaps
