/-!
# Integers as text

An integer is written in decimal, and read back from an optional sign and at least one ASCII
digit.  Leading zeros are read; blanks are not.
-/

namespace ConnectorControl
namespace Text

def digit? (c : Char) : Option Nat :=
  if '0' ≤ c ∧ c ≤ '9' then some (c.toNat - '0'.toNat) else none

/-- the number of a run of digits, read on from a number before it -/
def natOfDigits : Nat → List Char → Option Nat
  | n, [] => some n
  | n, c :: cs =>
    match digit? c with
    | some d => natOfDigits (10 * n + d) cs
    | none => none

/-- the number of at least one digit -/
def nat? : List Char → Option Nat
  | [] => none
  | cs => natOfDigits 0 cs

def int? (s : String) : Option Int :=
  match s.toList with
  | '-' :: cs => (nat? cs).map fun n => -(n : Int)
  | '+' :: cs => (nat? cs).map Int.ofNat
  | cs => (nat? cs).map Int.ofNat

/-- reads an integer that fits 32 bits -/
def int32? (s : String) : Option Int32 :=
  match int? s with
  | some n =>
    if Int32.minValue.toInt ≤ n ∧ n ≤ Int32.maxValue.toInt then some (.ofInt n) else none
  | none => none

end Text
end ConnectorControl
