/-
Module: WardleyMaps.Document.Encode
Purpose: Documents and their entities as JSON values.
Main exports: Document.encode, Component.encode, Link.encode, Problem.encode
-/
import WardleyMaps.Document.Lookup
import WardleyMaps.Json.Basic

namespace WardleyMaps

/-!
Every entity becomes an object with all its fields, missing values among them, in a fixed order.
-/

open JsonValue

/-- The fields of a position. -/
def Position.members (p : Position) : List (String × JsonValue) :=
  [("visibility", .number p.visibility), ("maturity", .number p.maturity)]

/-- A position as an object. -/
def Position.encode (p : Position) : JsonValue :=
  .object p.members

/-- An offset as an object. -/
def LabelOffset.encode (l : LabelOffset) : JsonValue :=
  .object [("x", .number l.x), ("y", .number l.y)]

/-- The flags, each by its name. -/
def Decorators.encode (d : Decorators) : JsonValue :=
  .object
    [("ecosystem", .boolean d.ecosystem), ("market", .boolean d.market), ("buy", .boolean d.buy),
      ("build", .boolean d.build), ("outsource", .boolean d.outsource)]

/-- Both lines of the label of a stage. -/
def Stage.encode (s : Stage) : JsonValue :=
  .object [("line1", .text s.line1), ("line2", .text s.line2)]

/-- A component with all its options. -/
def Component.encode (c : Component) : JsonValue :=
  .object <|
    [("line", JsonValue.integer c.line), ("name", .text c.name)] ++ c.position.members ++
    [("inertia", .boolean c.inertia), ("evolving", .boolean c.evolveTo.isSome),
      ("evolve_maturity", orNull (c.evolveTo.map .number)), ("label", c.label.encode),
      ("decorators", c.decorators.encode), ("increase_label_spacing", .integer c.labelSpacing),
      ("url", orNull (c.reference.map .text)), ("submap", .boolean c.submap)]

/-- An anchor as an object. -/
def Anchor.encode (a : Anchor) : JsonValue :=
  .object ([("line", JsonValue.integer a.line), ("name", .text a.name)] ++ a.position.members)

/-- A note as an object. -/
def Note.encode (n : Note) : JsonValue :=
  .object ([("line", JsonValue.integer n.line), ("text", .text n.text)] ++ n.position.members)

/-- An accelerator, with whether it slows down. -/
def Accelerator.encode (a : Accelerator) : JsonValue :=
  .object <|
    [("line", JsonValue.integer a.line), ("name", .text a.name)] ++ a.position.members ++
    [("deaccelerator", .boolean a.slowing)]

/-- A link, its arrow taken apart into what it tells. -/
def Link.encode (l : Link) : JsonValue :=
  .object
    [("start", .text l.start), ("end", .text l.target), ("flow", .boolean l.arrow.isFlow),
      ("future", .boolean l.arrow.isFuture), ("past", .boolean l.arrow.isPast),
      ("context", orNull (l.context.map .text)),
      ("flow_value", orNull (l.arrow.carried?.map .text))]

/-- An evolution as an object. -/
def Evolution.encode (e : Evolution) : JsonValue :=
  .object
    [("line", .integer e.line), ("name", .text e.name), ("maturity", .number e.maturity),
      ("override", .text e.newName), ("label", e.label.encode),
      ("decorators", e.decorators.encode), ("increase_label_spacing", .integer e.labelSpacing)]

/-- A component inside a pipeline. -/
def PipelineChild.encode (c : PipelineChild) : JsonValue :=
  .object
    [("line", .integer c.line), ("name", .text c.name), ("maturity", .number c.maturity),
      ("label", c.label.encode)]

/-- A pipeline with its span and its components. -/
def Pipeline.encode (p : Pipeline) : JsonValue :=
  .object
    [("line", .integer p.line), ("name", .text p.name), ("hidden", .boolean !p.shown),
      ("maturity1", .number p.first), ("maturity2", .number p.last),
      ("components", .array (p.children.map (·.encode)))]

/-- An annotation with its places. -/
def NumberedNote.encode (n : NumberedNote) : JsonValue :=
  .object
    [("line", .integer n.line), ("number", .integer n.number),
      ("occurrences", .array (n.places.map (·.encode))), ("text", .text n.text)]

/-- A name with its address. -/
def Address.encode (a : Address) : JsonValue :=
  .object [("line", .integer a.line), ("name", .text a.name), ("url", .text a.address)]

/-- The word for an attitude. -/
def AttitudeKind.encode : AttitudeKind → JsonValue
  | .pioneers => string "pioneers"
  | .settlers => string "settlers"
  | .townplanners => string "townplanners"

/-- An attitude with both corners of its area. -/
def Attitude.encode (a : Attitude) : JsonValue :=
  .object <|
    [("line", JsonValue.integer a.line), ("attitude", a.kind.encode)] ++ a.corner.members ++
    [("visibility2", .number a.opposite.visibility), ("maturity2", .number a.opposite.maturity),
      ("width", orNull (a.width.map .text)), ("height", orNull (a.height.map .text))]

/-- A method as the decorator that says the same. -/
def Method.encode (m : Method) : JsonValue :=
  .object
    [("line", .integer m.line), ("name", .text m.name), ("decorators", m.kind.decorators.encode)]

/-- A size as an object. -/
def Size.encode (s : Size) : JsonValue :=
  .object [("width", .number s.width), ("height", .number s.height)]

/-- How the map as a whole is shown. -/
def Presentation.encode (p : Presentation) : JsonValue :=
  .object
    [("style", .text p.style), ("annotations", p.legend.encode), ("size", p.size.encode)]

/-- The word for a kind of problem. -/
def ProblemKind.encode : ProblemKind → JsonValue
  | .lineSyntax => string "line_syntax"
  | .configuration => string "configuration"

/-- A problem with its wording and its kind. -/
def Problem.encode (p : Problem) : JsonValue :=
  .object
    [("line", .integer p.line), ("message", string p.cause.message), ("kind", p.cause.kind.encode)]

/-- What the end of a link refers to. -/
def Positioned.encode : Positioned → JsonValue
  | .component c => c.encode
  | .anchor a => a.encode

/-- A document with all its entities. -/
def Document.encode (d : Document) : JsonValue :=
  .object
    [("title", .text d.title), ("elements", .array (d.elements.map (·.encode))),
      ("links", .array (d.links.map (·.encode))),
      ("anchors", .array (d.anchors.map (·.encode))),
      ("evolved", .array (d.evolved.map (·.encode))),
      ("pipelines", .array (d.pipelines.map (·.encode))),
      ("annotations", .array (d.annotations.map (·.encode))),
      ("notes", .array (d.notes.map (·.encode))),
      ("evolution", .array (d.stages.map (·.encode))),
      ("submaps", .array (d.submaps.map (·.encode))),
      ("urls", .array (d.addresses.map (·.encode))),
      ("attitudes", .array (d.attitudes.map (·.encode))),
      ("accelerators", .array (d.accelerators.map (·.encode))),
      ("methods", .array (d.methods.map (·.encode))),
      ("presentation", d.presentation.encode),
      ("errors", .array (d.problems.map (·.encode)))]

end WardleyMaps
