/-!
# The shortest decimal of a binary float

`shortest` gives the decimal with the fewest digits that reads back as a float, and of those the
nearest.  The value is `m * 2^q`; every real between its two half-way points reads back as it, the
half-way points themselves when `m` is even.  For one digit, two, and so on, the neighbours of the
value on the decimal grid of that many digits are tried in exact arithmetic; seventeen digits
always suffice.
-/

namespace ConnectorControl

/-- `digits * 10^exponent` -/
structure Decimal where
  digits : Nat
  exponent : Int
deriving DecidableEq

namespace Decimal

/-- moves the trailing zeros of the digits into the exponent -/
def normalize (digits : Nat) (exponent : Int) : Decimal :=
  if h : digits ≠ 0 ∧ digits % 10 = 0 then normalize (digits / 10) (exponent + 1)
  else ⟨digits, exponent⟩
termination_by digits
decreasing_by omega

/-- A positive float `value / unit` with the ends `low / unit` and `high / unit` of the reals that
read back as it. -/
structure Interval where
  low : Nat
  value : Nat
  high : Nat
  unit : Nat
  closed : Bool

/-- the interval of `m * 2^q`; below a power of two the floats lie twice as dense -/
def Interval.ofFloat (m : Nat) (q : Int) (dense : Bool) : Interval :=
  let up := Nat.pow 2 (q - 2).toNat
  { low := (4 * m - if dense then 1 else 2) * up
    value := 4 * m * up
    high := (4 * m + 2) * up
    unit := Nat.pow 2 (2 - q).toNat
    closed := m % 2 = 0 }

/-- whether `c * den / num` lies in the interval, where `num` and `den` scale a decimal grid -/
def Interval.holds (i : Interval) (num den c : Nat) : Bool :=
  if i.closed then i.low * num ≤ c * den && c * den ≤ i.high * num
  else i.low * num < c * den && c * den < i.high * num

/-- the point of the grid `10^e` nearest to the value, of those that read back as it -/
def Interval.onGrid (i : Interval) (e : Int) : Option Nat :=
  let num := Nat.pow 10 (-e).toNat
  let den := i.unit * Nat.pow 10 e.toNat
  let below := i.value * num / den
  let above := below + 1
  match i.holds num den below, i.holds num den above with
  | true, true =>
    let toBelow := i.value * num - below * den
    let toAbove := above * den - i.value * num
    if toBelow < toAbove || (toBelow = toAbove && below % 2 = 0) then some below else some above
  | true, false => some below
  | false, true => some above
  | false, false => none

/-- the exponent of the leading decimal digit -/
def Interval.magnitude (i : Interval) : Int :=
  let e : Int := (Nat.toDigits 10 i.value).length - (Nat.toDigits 10 i.unit).length
  if i.unit * Nat.pow 10 e.toNat ≤ i.value * Nat.pow 10 (-e).toNat then e else e - 1

def Interval.shortest (i : Interval) : Decimal :=
  let lead := i.magnitude
  let found := (List.range 17).findSome? fun (n : Nat) =>
    (i.onGrid (lead - n)).map fun c => normalize c (lead - n)
  found.getD ⟨0, 0⟩

end Decimal

/-! ## floats -/

/-- a finite float, `m * 2^q` without its sign; below the least of a power the floats lie dense -/
structure Binary where
  negative : Bool
  m : Nat
  q : Int
  dense : Bool

namespace Binary

/-- takes a finite float apart -/
def ofFloat (x : Float) : Binary :=
  let bits := x.toBits.toNat
  let e := bits / Nat.pow 2 52 % Nat.pow 2 11
  let f := bits % Nat.pow 2 52
  { negative := bits / Nat.pow 2 63 = 1
    m := if e = 0 then f else f + Nat.pow 2 52
    q := (if e = 0 then 1 else e : Nat) - 1075
    dense := f = 0 && 1 < e }

/-- the shortest decimal of the magnitude -/
def shortest (b : Binary) : Decimal :=
  if b.m = 0 then ⟨0, 0⟩ else (Decimal.Interval.ofFloat b.m b.q b.dense).shortest

end Binary

end ConnectorControl
