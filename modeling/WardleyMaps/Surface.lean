/-
Module: WardleyMaps.Surface
Purpose: Map positions and pixels of a drawing surface, in both directions.
Main exports: Surface, Surface.make, Surface.forMap, Surface.toSurface, Surface.toNormalized
-/
import WardleyMaps.Document.Basic
import WardleyMaps.Number.Shortest
import WardleyMaps.Settings.Basic

namespace WardleyMaps

/-!
Maturity runs from left to right and visibility from bottom to top, inside a padding on all four
sides. The conversions are written once for all kinds of numbers: drawing uses binary ones, and over
the rational numbers the two directions are inverse to each other.
-/

/-- A drawing surface with a padding. -/
structure Surface (α : Type) where
  width : α
  height : α
  padding : α
deriving DecidableEq

/-- A place on a surface, in pixels from its upper left corner. -/
structure Pixel (α : Type) where
  x : α
  y : α
deriving DecidableEq

/-- A place on a map, for any kind of numbers. -/
structure Spread (α : Type) where
  visibility : α
  maturity : α
deriving DecidableEq

namespace Surface

variable {α : Type} [Add α] [Sub α] [Mul α] [Div α] [OfNat α 1] [OfNat α 2]

/-- The width inside the padding. -/
def spanX (s : Surface α) : α :=
  s.width - 2 * s.padding

/-- The height inside the padding. -/
def spanY (s : Surface α) : α :=
  s.height - 2 * s.padding

/-- The column of a maturity. -/
def maturityToX (s : Surface α) (maturity : α) : α :=
  s.padding + maturity * s.spanX

/-- The row of a visibility. -/
def visibilityToY (s : Surface α) (visibility : α) : α :=
  s.padding + (1 - visibility) * s.spanY

/-- The maturity of a column. -/
def xToMaturity (s : Surface α) (x : α) : α :=
  (x - s.padding) / s.spanX

/-- The visibility of a row. -/
def yToVisibility (s : Surface α) (y : α) : α :=
  1 - (y - s.padding) / s.spanY

/-- Where a place of the map is drawn. -/
def toSurface (s : Surface α) (p : Spread α) : Pixel α :=
  { x := s.maturityToX p.maturity, y := s.visibilityToY p.visibility }

/-- The place of the map that is drawn at a pixel. -/
def toNormalized (s : Surface α) (p : Pixel α) : Spread α :=
  { visibility := s.yToVisibility p.y, maturity := s.xToMaturity p.x }

end Surface

/-- A position as a place for the conversions. -/
def Position.spread (p : Position) : Spread Double :=
  { visibility := p.visibility, maturity := p.maturity }

/-- A place of the conversions as a position. -/
def Spread.position (p : Spread Double) : Position :=
  { visibility := p.visibility, maturity := p.maturity }

/-- The nearest position inside the unit square. -/
def Position.clamp (p : Position) : Position :=
  { visibility := p.visibility.clampUnit, maturity := p.maturity.clampUnit }

/-- The padding leaves nothing of a surface. -/
structure SurfaceTooSmall where
  surface : Surface Double
deriving DecidableEq

/-- The wording of the refusal. -/
def SurfaceTooSmall.message (e : SurfaceTooSmall) : String :=
  let width := String.ofList e.surface.width.text
  let height := String.ofList e.surface.height.text
  let padding := String.ofList e.surface.padding.text
  s!"Surface {width}x{height} too small for padding {padding}"

namespace Surface

/-- A surface on which the padding leaves something to draw on. -/
def make (s : Surface Double) : Except SurfaceTooSmall (Surface Double) :=
  if s.spanX.le 0 || s.spanY.le 0 then .error { surface := s } else .ok s

/-- The surface for a map: the size that the map asks for, else that of the settings. -/
def forMap (document : Option Document) (canvas : CanvasSettings) :
    Except SurfaceTooSmall (Surface Double) :=
  let own := (document.map (·.presentation.size)).filter Size.isSet
  match own with
  | some size => make { width := size.width, height := size.height, padding := canvas.padding }
  | none => make { width := canvas.width, height := canvas.height, padding := canvas.padding }

end Surface

end WardleyMaps
