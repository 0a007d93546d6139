import ConnectorControl.Decimal.Shortest

/-!
# Decimals found in 64 bits

`Binary.quick` gives a decimal that reads back as a float, found with significands of 64 bits.  The
float and the half-way points around it are scaled by one power of ten, the half-way points drawn in
by a unit for what rounding may have lost.  The digits of the upper one are cut as soon as what is
left of them fits between the two; then the last digit is lowered as long as this comes closer to
the float.

Since the products are rounded, the decimal is sometimes longer than the shortest one, or not the
nearest of its length.
-/

namespace ConnectorControl

/-- `f * 2^e`, where `f` has 64 bits -/
structure Scaled where
  f : Nat
  e : Int

namespace Scaled

/-- shifts a significand until it has 64 bits -/
def normalize (f : Nat) (e : Int) : Scaled :=
  let shift := 63 - Nat.log2 f
  ⟨f * Nat.pow 2 shift, e - shift⟩

/-- the product, rounded to 64 bits -/
def mul (a b : Scaled) : Scaled := ⟨(a.f * b.f + Nat.pow 2 63) / Nat.pow 2 64, a.e + b.e + 64⟩

/-- `n / d`, a half rounded up -/
def roundedQuotient (n d : Nat) : Nat := (2 * n + d) / (2 * d)

/-- a power of ten, rounded to 64 bits -/
def tenPower (k : Int) : Scaled :=
  let p := Nat.pow 10 k.natAbs
  let bits := Nat.log2 p + 1
  if 0 ≤ k then
    if bits ≤ 64 then normalize p 0 else ⟨roundedQuotient p (Nat.pow 2 (bits - 64)), bits - 64⟩
  else ⟨roundedQuotient (Nat.pow 2 (63 + bits)) p, -(63 + bits)⟩

/-- The power of ten that scales a number with binary exponent `e`; every eighth power is at hand.
The product has an exponent between -60 and -32. -/
def scaleOf (e : Int) : Int :=
  let least := -((61 + e) * 30102999566398114 / Int.pow 10 17) + 347
  8 * (least / 8 + 1) - 348

end Scaled

namespace Decimal

/-- lowers the last digit, worth `unit`, as long as what is cut off comes closer to `goal` -/
def lower (digits width goal unit cut : Nat) : Nat :=
  if _h : 0 < unit ∧ cut < goal ∧ unit ≤ width - cut ∧
      (cut + unit < goal ∨ cut + unit - goal < goal - cut) then
    lower (digits - 1) width goal unit (cut + unit)
  else digits
termination_by goal - cut
decreasing_by omega

/-- Cuts digits behind the point, `2^bits` being one.  Behind nine of them the distance to the float
is not known and counts as none. -/
def fractionDigits (bits goal digits rest width places : Nat) : Decimal :=
  let next := 10 * rest
  let digits := 10 * digits + next / Nat.pow 2 bits
  let cut := next % Nat.pow 2 bits
  let places := places + 1
  let width := 10 * width
  if _h : 0 < width ∧ width ≤ cut then fractionDigits bits goal digits cut width places
  else
    let goal := if places < 9 then goal * Nat.pow 10 places % Nat.pow 2 64 else 0
    ⟨lower digits width goal (Nat.pow 2 bits) cut, -places⟩
termination_by Nat.pow 2 bits - width
decreasing_by
  have : next % Nat.pow 2 bits < Nat.pow 2 bits := Nat.mod_lt _ (Nat.two_pow_pos bits)
  omega

/-- cuts digits before the point, of which some are left, then digits behind it -/
def wholeDigits (bits goal width fraction : Nat) : (left digits whole : Nat) → Decimal
  | 0, digits, _ => fractionDigits bits goal digits fraction width 0
  | left + 1, digits, whole =>
    let digits := 10 * digits + whole / Nat.pow 10 left
    let whole := whole % Nat.pow 10 left
    let cut := whole * Nat.pow 2 bits + fraction
    if cut ≤ width then ⟨lower digits width goal (Nat.pow 10 left * Nat.pow 2 bits) cut, left⟩
    else wholeDigits bits goal width fraction left digits whole

end Decimal

namespace Binary

/-- a decimal of the magnitude that reads back, found in 64 bits -/
def quick (b : Binary) : Decimal :=
  if b.m = 0 then ⟨0, 0⟩
  else
    let above := Scaled.normalize (2 * b.m + 1) (b.q - 1)
    let (f, e) := if b.m = Nat.pow 2 52 then (4 * b.m - 1, b.q - 2) else (2 * b.m - 1, b.q - 1)
    let below : Scaled := ⟨f * Nat.pow 2 (e - above.e).toNat, above.e⟩
    let k := Scaled.scaleOf above.e
    let scale := Scaled.tenPower k
    let value := (Scaled.normalize b.m b.q).mul scale
    let high := (above.mul scale).f - 1
    let low := (below.mul scale).f + 1
    let bits := (-(above.mul scale).e).toNat
    let whole := high / Nat.pow 2 bits
    let d := Decimal.wholeDigits bits (high - value.f) (high - low) (high % Nat.pow 2 bits)
      (toString whole).length 0 whole
    ⟨d.digits, d.exponent - k⟩

end Binary

end ConnectorControl
