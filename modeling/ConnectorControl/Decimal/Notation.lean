import ConnectorControl.Decimal.Shortest

/-!
# Decimals as text

A notation says for which places of the decimal point the digits are written around it; elsewhere
they are written with a power of ten.  There is at least one digit behind the point of a positional
number.
-/

namespace ConnectorControl

/-- The decimal point may stand behind digit `least` at the left and behind `most` at the right.  A
power of ten that is not negative may have a plus sign. -/
structure DecimalNotation where
  least : Int
  most : Int
  plus : Bool

namespace Decimal

def zeros (n : Nat) : String := .ofList (List.replicate n '0')

/-- a power of ten behind its digits -/
def powerText (n : DecimalNotation) (e : Int) : String :=
  "e" ++ (if n.plus && 0 ≤ e then "+" else "") ++ toString e

/-- the text of a decimal -/
def text (n : DecimalNotation) (d : Decimal) : String :=
  let digits := toString d.digits
  let point : Int := digits.length + d.exponent
  if 0 ≤ d.exponent ∧ point ≤ n.most then digits ++ zeros d.exponent.toNat ++ ".0"
  else if 0 < point ∧ point ≤ n.most then
    let cs := digits.toList
    .ofList (cs.take point.toNat ++ '.' :: cs.drop point.toNat)
  else if n.least ≤ point ∧ point ≤ 0 then "0." ++ zeros (-point).toNat ++ digits
  else
    let power := powerText n (point - 1)
    match digits.toList with
    | [] => power
    | [c] => .ofList [c] ++ power
    | c :: cs => .ofList (c :: '.' :: cs) ++ power

end Decimal

/-- the text of a float whose magnitude is written as a decimal -/
def Binary.text (n : DecimalNotation) (b : Binary) (d : Decimal) : String :=
  (if b.negative then "-" else "") ++ d.text n

end ConnectorControl
