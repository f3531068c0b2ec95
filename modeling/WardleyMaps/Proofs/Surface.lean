/-
Module: WardleyMaps.Proofs.Surface
Purpose: A drop on a drawing surface lands where it was dropped, up to the places that are written.
Main exports: Surface.Fits, Checked, Spread.readBack?, Surface.landing?, Surface.DropsLand,
  Surface.dropsLand_iff
-/
import WardleyMaps.Proofs.Edit.Frame
import WardleyMaps.Proofs.Edit.Reread
import WardleyMaps.Proofs.Number.Exact
import WardleyMaps.Surface

namespace WardleyMaps

/-!
A drop is a pixel. Its place on the map is written with a fixed number of places, and what is read
again is drawn at a pixel, where the drop lands (`Surface.landing?`). The conversions are told for
rational numbers here. They stretch distances by the spans of the surface inside its padding, so a
coordinate that is half a unit of its last place off moves the pixel by as much of the span. This
bound, and conversions that never divide by zero, are had exactly on the surfaces that can be made
(`Surface.dropsLand_iff`).
-/

variable {α β : Type}

/-! ### Exact measures -/

/-- The surface with its measures in other numbers. -/
def Surface.map (f : α → β) (s : Surface α) : Surface β :=
  { width := f s.width, height := f s.height, padding := f s.padding }

/-- The pixel in other numbers. -/
def Pixel.map (f : α → β) (p : Pixel α) : Pixel β :=
  { x := f p.x, y := f p.y }

/-- The place in other numbers. -/
def Spread.map (f : α → β) (p : Spread α) : Spread β :=
  { visibility := f p.visibility, maturity := f p.maturity }

/-- The rational measures of a surface, if they are finite. -/
def Surface.toRat? (s : Surface Double) : Option (Surface ℚ) := do
  return { width := ← s.width.toRat?, height := ← s.height.toRat?, padding := ← s.padding.toRat? }

/-- The rational coordinates of a place, if they are finite. -/
def Spread.toRat? (p : Spread Double) : Option (Spread ℚ) := do
  return { visibility := ← p.visibility.toRat?, maturity := ← p.maturity.toRat? }

/-- The padding leaves something of a surface. -/
structure Surface.Fits (s : Surface ℚ) : Prop where
  spanX_pos : 0 < s.spanX
  spanY_pos : 0 < s.spanY

/-- A surface is made if something is left of its exact measures, although it is asked with rounded
differences. -/
theorem Surface.make_eq_ok_iff {t : Surface Double} {s : Surface ℚ} (measures : t.toRat? = some s) :
    make t = .ok t ↔ s.Fits := by
  simp only [toRat?, Option.bind_eq_bind, Option.bind_eq_some_iff, Option.pure_def,
    Option.some.injEq] at measures
  obtain ⟨width, hwidth, height, hheight, padding, hpadding, rfl⟩ := measures
  have across : t.spanX.le 0 = true ↔ width - 2 * padding ≤ 0 :=
    Double.sub_two_mul_le_zero_iff hwidth hpadding
  have down : t.spanY.le 0 = true ↔ height - 2 * padding ≤ 0 :=
    Double.sub_two_mul_le_zero_iff hheight hpadding
  unfold make
  split
  · next small =>
    rw [Bool.or_eq_true, across, down] at small
    refine iff_of_false nofun fun fits => ?_
    rcases small with small | small
    · exact not_lt.2 small fits.spanX_pos
    · exact not_lt.2 small fits.spanY_pos
  · next large =>
    rw [Bool.or_eq_true, across, down, not_or, not_le, not_le] at large
    exact iff_of_true rfl ⟨large.1, large.2⟩

/-! ### Checked arithmetic -/

/-- A rational number, or nothing once a division by zero was asked for. -/
structure Checked where
  value? : Option ℚ
deriving DecidableEq

namespace Checked

/-- A number that was had without a division by zero. -/
def of (q : ℚ) : Checked :=
  ⟨some q⟩

/-- An operation on two numbers, which may have no result itself. -/
def lift (f : ℚ → ℚ → Option ℚ) (a b : Checked) : Checked :=
  ⟨do f (← a.value?) (← b.value?)⟩

instance : Add Checked := ⟨lift fun p q => some (p + q)⟩
instance : Sub Checked := ⟨lift fun p q => some (p - q)⟩
instance : Mul Checked := ⟨lift fun p q => some (p * q)⟩
instance : Div Checked := ⟨lift fun p q => if q = 0 then none else some (p / q)⟩
instance (n : Nat) : OfNat Checked n := ⟨of n⟩

variable (p q : ℚ)

theorem of_sub : of p - of q = of (p - q) := rfl

theorem of_div {q : ℚ} (nonzero : q ≠ 0) : of p / of q = of (p / q) :=
  congrArg mk (if_neg nonzero)

theorem of_div_zero : of p / of 0 = ⟨none⟩ := rfl

end Checked

/-! ### Landing -/

/-- The place that two numerals denote. -/
def readPlace? (visibility maturity : Text) : Option (Spread ℚ) := do
  return { visibility := ← readRational? visibility, maturity := ← readRational? maturity }

/-- What is read again of a place that was written with a fixed number of places. -/
def Spread.readBack? (places : Nat) (p : Spread ℚ) : Option (Spread ℚ) :=
  readPlace? (fixedRational places p.visibility) (fixedRational places p.maturity)

/-- What is written between the brackets of a declaration denotes what is written of the exact
coordinates. -/
theorem readPlace?_of_pairText {precision : Int} {p : Position} {q : Spread ℚ} {pair : Text}
    (coordinates : p.spread.toRat? = some q) (written : pairText precision p = .ok pair) :
    ∃ visibility maturity, pair = visibility ++ ", ".toList ++ maturity ∧
      readPlace? visibility maturity = q.readBack? precision.toNat := by
  simp only [Spread.toRat?, Option.bind_eq_bind, Option.bind_eq_some_iff, Option.pure_def,
    Option.some.injEq] at coordinates
  obtain ⟨visibility, hvisibility, maturity, hmaturity, rfl⟩ := coordinates
  obtain ⟨first, second, hfirst, hsecond, rfl⟩ := pairText_eq_ok.1 written
  obtain ⟨rfl, -⟩ := fixedText_eq_ok hfirst
  obtain ⟨rfl, -⟩ := fixedText_eq_ok hsecond
  refine ⟨_, _, rfl, ?_⟩
  have readFirst : readRational? (p.visibility.fixed precision.toNat) =
      readRational? (fixedRational precision.toNat visibility) :=
    Double.readRational?_fixed _ hvisibility
  have readSecond : readRational? (p.maturity.fixed precision.toNat) =
      readRational? (fixedRational precision.toNat maturity) :=
    Double.readRational?_fixed _ hmaturity
  rw [readPlace?, readFirst, readSecond, Spread.readBack?, readPlace?]

/-- What is read again of a place is off by at most half a unit of the last place. -/
theorem Spread.exists_readBack? (places : Nat) (p : Spread ℚ) :
    ∃ q, p.readBack? places = some q ∧ |q.visibility - p.visibility| ≤ 1 / 10 ^ places / 2 ∧
      |q.maturity - p.maturity| ≤ 1 / 10 ^ places / 2 := by
  obtain ⟨visibility, read, near⟩ := exists_readRational?_fixedRational places p.visibility
  obtain ⟨maturity, read', near'⟩ := exists_readRational?_fixedRational places p.maturity
  refine ⟨{ visibility, maturity }, ?_, near, near'⟩
  rw [readBack?, readPlace?, read, read']
  rfl

namespace Surface

/-- Where a drop lands: at the pixel of what is read again of its place. -/
def landing? (s : Surface ℚ) (places : Nat) (drop : Pixel ℚ) : Option (Pixel ℚ) :=
  ((s.toNormalized drop).readBack? places).map s.toSurface

/-- Drops land where they were dropped. -/
structure DropsLand (s : Surface ℚ) : Prop where
  /-- A place that is not rounded is drawn at the pixel of the drop. -/
  returns (drop : Pixel ℚ) : s.toSurface (s.toNormalized drop) = drop
  /-- A rounded one is drawn at most half a unit of its last place away, as the surface shows it. -/
  lands (places : Nat) (drop : Pixel ℚ) : ∃ landing, s.landing? places drop = some landing ∧
    |landing.x - drop.x| ≤ (s.width - 2 * s.padding) / 10 ^ places / 2 ∧
    |landing.y - drop.y| ≤ (s.height - 2 * s.padding) / 10 ^ places / 2
  /-- The place of a drop is had without a division by zero. -/
  normalizes (drop : Pixel ℚ) :
    (s.map Checked.of).toNormalized (drop.map Checked.of) = (s.toNormalized drop).map Checked.of
  /-- The pixel of a place is had without a division by zero. -/
  draws (place : Spread ℚ) :
    (s.map Checked.of).toSurface (place.map Checked.of) = (s.toSurface place).map Checked.of

variable {s : Surface ℚ}

/-- Columns are as far apart as the span stretches their maturities. -/
theorem maturityToX_sub (s : Surface ℚ) (m n : ℚ) :
    s.maturityToX m - s.maturityToX n = (m - n) * s.spanX := by
  unfold maturityToX
  ring

/-- Rows are as far apart as the span stretches their visibilities, upside down. -/
theorem visibilityToY_sub (s : Surface ℚ) (v w : ℚ) :
    s.visibilityToY v - s.visibilityToY w = (w - v) * s.spanY := by
  unfold visibilityToY
  ring

/-- On a surface of some width a column comes back from its maturity. -/
theorem maturityToX_xToMaturity (wide : s.spanX ≠ 0) (x : ℚ) :
    s.maturityToX (s.xToMaturity x) = x := by
  rw [maturityToX, xToMaturity, div_mul_cancel₀ _ wide, add_sub_cancel]

/-- On a surface of some height a row comes back from its visibility. -/
theorem visibilityToY_yToVisibility (high : s.spanY ≠ 0) (y : ℚ) :
    s.visibilityToY (s.yToVisibility y) = y := by
  rw [visibilityToY, yToVisibility, sub_sub_cancel, div_mul_cancel₀ _ high, add_sub_cancel]

theorem toSurface_toNormalized (wide : s.spanX ≠ 0) (high : s.spanY ≠ 0) (drop : Pixel ℚ) :
    s.toSurface (s.toNormalized drop) = drop := by
  rw [toSurface, toNormalized, maturityToX_xToMaturity wide, visibilityToY_yToVisibility high]

/-- The calculation of a maturity divides by the width inside the padding only. -/
theorem xToMaturity_map_of_iff {x : ℚ} :
    (s.map Checked.of).xToMaturity (Checked.of x) = Checked.of (s.xToMaturity x) ↔ s.spanX ≠ 0 := by
  have checked : (s.map Checked.of).xToMaturity (Checked.of x) =
      Checked.of (x - s.padding) / Checked.of s.spanX := rfl
  rw [checked]
  constructor
  · intro had narrow
    rw [narrow, Checked.of_div_zero] at had
    cases had
  · exact Checked.of_div _

/-- The calculation of a visibility divides by the height inside the padding only. -/
theorem yToVisibility_map_of_iff {y : ℚ} :
    (s.map Checked.of).yToVisibility (Checked.of y) = Checked.of (s.yToVisibility y) ↔
      s.spanY ≠ 0 := by
  have checked : (s.map Checked.of).yToVisibility (Checked.of y) =
      Checked.of 1 - Checked.of (y - s.padding) / Checked.of s.spanY := rfl
  rw [checked]
  constructor
  · intro had flat
    rw [flat, Checked.of_div_zero] at had
    cases had
  · intro high
    rw [Checked.of_div _ high, Checked.of_sub, yToVisibility]

/-- A coordinate that is off by half a unit of its last place moves by as much of a span. -/
theorem abs_mul_span_le {d span : ℚ} {places : Nat} (pos : 0 ≤ span)
    (near : |d| ≤ 1 / 10 ^ places / 2) : |d * span| ≤ span / 10 ^ places / 2 := by
  calc |d * span| = |d| * span := by rw [abs_mul, abs_of_nonneg pos]
    _ ≤ 1 / 10 ^ places / 2 * span := mul_le_mul_of_nonneg_right near pos
    _ = span / 10 ^ places / 2 := by ring

/-- On a surface with room a drop lands near its pixel. -/
theorem Fits.exists_landing? (fits : s.Fits) (places : Nat) (drop : Pixel ℚ) :
    ∃ landing, s.landing? places drop = some landing ∧
      |landing.x - drop.x| ≤ s.spanX / 10 ^ places / 2 ∧
      |landing.y - drop.y| ≤ s.spanY / 10 ^ places / 2 := by
  obtain ⟨back, read, visibility, maturity⟩ := (s.toNormalized drop).exists_readBack? places
  refine ⟨s.toSurface back, by rw [landing?, read, Option.map_some], ?_, ?_⟩
  · have moved : (s.toSurface back).x - drop.x =
        (back.maturity - (s.toNormalized drop).maturity) * s.spanX := by
      rw [← maturityToX_sub]
      exact congrArg _ (maturityToX_xToMaturity fits.spanX_pos.ne' drop.x).symm
    rw [moved]
    exact abs_mul_span_le fits.spanX_pos.le maturity
  · have moved : (s.toSurface back).y - drop.y =
        ((s.toNormalized drop).visibility - back.visibility) * s.spanY := by
      rw [← visibilityToY_sub]
      exact congrArg _ (visibilityToY_yToVisibility fits.spanY_pos.ne' drop.y).symm
    rw [moved]
    exact abs_mul_span_le fits.spanY_pos.le (by rwa [abs_sub_comm])

theorem Fits.dropsLand (fits : s.Fits) : s.DropsLand where
  returns := toSurface_toNormalized fits.spanX_pos.ne' fits.spanY_pos.ne'
  lands := fits.exists_landing?
  normalizes drop := by
    have visibility := (yToVisibility_map_of_iff (y := drop.y)).2 fits.spanY_pos.ne'
    have maturity := (xToMaturity_map_of_iff (x := drop.x)).2 fits.spanX_pos.ne'
    exact congrArg₂ Spread.mk visibility maturity
  draws _ := rfl

/-- A span that is a bound of distances is not negative, and one that is divided by is not zero. -/
theorem DropsLand.fits (lands : s.DropsLand) : s.Fits := by
  obtain ⟨landing, -, across, down⟩ := lands.lands 0 ⟨0, 0⟩
  have divided := lands.normalizes ⟨0, 0⟩
  have wide : s.spanX ≠ 0 := xToMaturity_map_of_iff.1 (congrArg Spread.maturity divided)
  have high : s.spanY ≠ 0 := yToVisibility_map_of_iff.1 (congrArg Spread.visibility divided)
  have least : 0 ≤ s.spanX / 10 ^ 0 / 2 := (abs_nonneg _).trans across
  have least' : 0 ≤ s.spanY / 10 ^ 0 / 2 := (abs_nonneg _).trans down
  rw [pow_zero, div_one] at least least'
  exact ⟨wide.symm.lt_of_le (by linarith), high.symm.lt_of_le (by linarith)⟩

/-- Drops land where they were dropped exactly on the surfaces that can be made; and what an edit
writes of a binary position is read as what is written of its exact coordinates. -/
theorem dropsLand_iff (s : Surface ℚ) :
    (s.DropsLand ↔ s.Fits) ∧
      (∀ t : Surface Double, t.toRat? = some s → (make t = .ok t ↔ s.DropsLand)) ∧
        ∀ (precision : Int) (position : Position) (place : Spread ℚ) (pair : Text),
          position.spread.toRat? = some place → pairText precision position = .ok pair →
            ∃ visibility maturity, pair = visibility ++ ", ".toList ++ maturity ∧
              readPlace? visibility maturity = place.readBack? precision.toNat := by
  have fits_iff : s.DropsLand ↔ s.Fits := ⟨DropsLand.fits, Fits.dropsLand⟩
  refine ⟨fits_iff, fun t measures => ?_, fun _ _ _ _ => readPlace?_of_pairText⟩
  exact (make_eq_ok_iff measures).trans fits_iff.symm

/-- On the surface of the standard size a drop that is a pixel off the middle lands in the middle.
-/
theorem dropsLand_standard :
    make { width := 500, height := 600, padding := 20 } =
        .ok { width := 500, height := 600, padding := 20 } ∧
      DropsLand { width := 500, height := 600, padding := 20 } ∧
      landing? { width := 500, height := 600, padding := 20 } 2 { x := 251, y := 299 } =
        some { x := 250, y := 300 } ∧
      ∃ visibility maturity, "0.50, 0.25".toList = visibility ++ ", ".toList ++ maturity ∧
        readPlace? visibility maturity =
          Spread.readBack? 2 { visibility := 1 / 2, maturity := 1 / 4 } := by
  have measures : toRat? { width := 500, height := 600, padding := 20 } =
      some { width := 500, height := 600, padding := 20 } := by
    decide +kernel
  obtain ⟨fits_iff, made_iff, written⟩ :=
    dropsLand_iff { width := 500, height := 600, padding := 20 }
  have lands := fits_iff.2 ⟨by norm_num [spanX], by norm_num [spanY]⟩
  refine ⟨(made_iff _ measures).2 lands, lands, by decide +kernel, ?_⟩
  exact written 2 { visibility := 0.5, maturity := 0.25 } _ _ (by decide +kernel)
    (by decide +kernel)

end Surface

end WardleyMaps
