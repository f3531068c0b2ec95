/-
Module: WardleyMaps.Document.Lookup
Purpose: Finding the entity that a name refers to.
Main exports: Document.elementNamed?, Document.positionedNamed?, Document.problemLines
-/
import WardleyMaps.Document.Basic

namespace WardleyMaps

/-!
A name refers to the first component that declares it, else to the first anchor, else to the first
submap, else to an evolved component that is shown under it. A name that nothing declares refers to
nothing, and whatever mentions it is left out of the drawing.
-/

/-- What the end of a link may refer to. -/
inductive Positioned where
  | component (component : Component)
  | anchor (anchor : Anchor)
deriving DecidableEq

namespace Document

/-- The first component of a name. -/
def elementNamed? (d : Document) (name : Text) : Option Component :=
  d.elements.find? (·.name = name)

/-- An evolved component drawn as a component of its own: its height is that of the component it
evolves from. -/
def evolvedElement? (d : Document) (e : Evolution) : Option Component :=
  (d.elementNamed? e.name).map fun base =>
    { line := e.line
      name := e.displayName
      position := { visibility := base.position.visibility, maturity := e.maturity }
      label := e.label
      decorators := e.decorators }

/-- What a name refers to. -/
def positionedNamed? (d : Document) (name : Text) : Option Positioned :=
  ((d.elementNamed? name).map .component)
    <|> ((d.anchors.find? (·.name = name)).map .anchor)
    <|> ((d.submaps.find? (·.name = name)).map .component)
    <|> ((d.evolved.filter (·.displayName = name)).findSome? d.evolvedElement?).map .component

/-- The lines with problems, each once and in order. -/
def problemLines (d : Document) : List Nat :=
  (d.problems.map (·.line)).eraseDups.mergeSort

end Document

end WardleyMaps
