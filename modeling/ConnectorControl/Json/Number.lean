import ConnectorControl.Json.Basic
import ConnectorControl.Text.Integer

/-!
# JSON numbers, read

A number is an optional minus sign, an integer part without superfluous zeros, and optionally a
fraction and a power of ten.  Without those two it is an integer if it fits 64 bits, signed or
unsigned.  Any other number is a float: as many leading digits as fit 64 bits, scaled by one power
of ten.  A float too large has no value.
-/

namespace ConnectorControl
namespace Json
namespace Number

/-- the parts of a number as written -/
structure Parts where
  negative : Bool
  whole : List Char
  fraction : Option (List Char)
  power : Option Int

def isDigit (c : Char) : Bool := (Text.digit? c).isSome

/-- the digits of a power of ten, behind its letter -/
def power? : List Char → Option Int
  | '-' :: cs => (Text.nat? cs).map fun n => -(n : Int)
  | '+' :: cs => (Text.nat? cs).map Int.ofNat
  | cs => (Text.nat? cs).map Int.ofNat

/-- what may follow the integer part -/
def tail? (negative : Bool) (whole : List Char) : List Char → Option Parts
  | [] => some ⟨negative, whole, none, none⟩
  | '.' :: cs =>
    let fraction := cs.takeWhile isDigit
    if fraction.isEmpty then none
    else
      match cs.dropWhile isDigit with
      | [] => some ⟨negative, whole, some fraction, none⟩
      | c :: rest =>
        if c = 'e' ∨ c = 'E' then
          (power? rest).map fun p => ⟨negative, whole, some fraction, some p⟩
        else none
  | c :: rest =>
    if c = 'e' ∨ c = 'E' then (power? rest).map fun p => ⟨negative, whole, none, some p⟩
    else none

def magnitude? (negative : Bool) (cs : List Char) : Option Parts :=
  match cs.takeWhile isDigit with
  | [] => none
  | '0' :: _ :: _ => none
  | whole => tail? negative whole (cs.dropWhile isDigit)

/-- cuts a number into its parts -/
def parts? : List Char → Option Parts
  | '-' :: cs => magnitude? true cs
  | cs => magnitude? false cs

/-- reads digits on from a number as long as 64 bits hold it, and leaves the others -/
def significand : Nat → List Char → Nat × List Char
  | n, [] => (n, [])
  | n, c :: cs =>
    match Text.digit? c with
    | some d => if 10 * n + d < Nat.pow 2 64 then significand (10 * n + d) cs else (n, c :: cs)
    | none => (n, c :: cs)

/-- a float times a power of ten, unless the product is too large -/
def scale (x : Float) (e : Int) : Option Float :=
  if 0 ≤ e then
    if e ≤ 308 then
      let y := x * Float.ofScientific 1 false e.toNat
      if y.isInf then none else some y
    else if x == 0 then some x else none
  else if -308 ≤ e then some (x / Float.ofScientific 1 false (-e).toNat)
  else if -616 ≤ e then
    some (x / Float.ofScientific 1 false 308 / Float.ofScientific 1 false (-e - 308).toNat)
  else some 0

/-- the value of a number, unless it is too large -/
def Parts.value (p : Parts) : Option Json :=
  let (n, left) := significand 0 p.whole
  match p.fraction, p.power, left with
  | none, none, [] =>
    if !p.negative then some (.int n)
    else if 0 < n ∧ n ≤ Nat.pow 2 63 then some (.int (-(n : Int)))
    else some (.real (-(Float.ofScientific n false 0)))
  | _, _, _ =>
    let fraction := p.fraction.getD []
    let (m, ignored) := significand n fraction
    let used := fraction.length - ignored.length
    let e : Int := left.length - used + p.power.getD 0
    (scale (Float.ofScientific m false 0) e).map fun x => .real (if p.negative then -x else x)

end Number
end Json
end ConnectorControl
