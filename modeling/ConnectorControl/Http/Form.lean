import ConnectorControl.Text.Split
import ConnectorControl.Text.Utf8

/-!
# Forms

A form is a list of names with values, written as the query of a request.  Letters, digits and a few
marks stand for themselves, a plus stands for a blank, and every other byte is written as a percent
sign with two digits.  A percent sign without digits is read as it is.
-/

namespace ConnectorControl
namespace Http
namespace Form

/-! ## writing -/

def isPlain (c : Char) : Bool := c.isAlphanum || "*-._".toList.contains c

def hexDigit (n : Nat) : Char :=
  if n < 10 then Char.ofNat ('0'.toNat + n) else Char.ofNat ('A'.toNat + (n - 10))

def encodeByte (b : UInt8) : List Char :=
  let c := Char.ofNat b.toNat
  if isPlain c then [c]
  else if c = ' ' then ['+']
  else ['%', hexDigit (b.toNat / 16), hexDigit (b.toNat % 16)]

def encode (s : String) : String := .ofList ((Text.bytes s).flatMap encodeByte)

/-- a form as it is appended to a query -/
def text (form : List (String × String)) : String :=
  String.join (form.map fun p => "&" ++ encode p.1 ++ "=" ++ encode p.2)

/-! ## reading -/

def hexValue? (b : UInt8) : Option UInt8 :=
  if 0x30 ≤ b ∧ b ≤ 0x39 then some (b - 0x30)
  else if 0x41 ≤ b ∧ b ≤ 0x46 then some (b - 0x41 + 10)
  else if 0x61 ≤ b ∧ b ≤ 0x66 then some (b - 0x61 + 10)
  else none

/-- the byte that two digits behind a percent sign stand for -/
def escaped? (b high low : UInt8) : Option UInt8 := do
  if b = 0x25 then return 16 * (← hexValue? high) + (← hexValue? low)
  else none

/-- a byte that is no escape -/
def plainByte (b : UInt8) : UInt8 := if b = 0x2b then 0x20 else b

def decodeBytes : List UInt8 → List UInt8
  | b :: high :: low :: rest =>
    match escaped? b high low with
    | some e => e :: decodeBytes rest
    | none => plainByte b :: decodeBytes (high :: low :: rest)
  | [b, c] => [plainByte b, plainByte c]
  | [b] => [plainByte b]
  | [] => []

def decode (s : String) : String := Text.ofBytes (decodeBytes (Text.bytes s))

/-- a name with its value, which is empty when there is none -/
def pair (s : String) : String × String :=
  match Text.cut? '=' s with
  | some (name, value) => (decode name, decode value)
  | none => (decode s, "")

/-- the form that a query holds; a pair without name and value says nothing -/
def ofQuery (query : String) : List (String × String) :=
  ((Text.split '&' query).map pair).filter (· ≠ ("", ""))

end Form
end Http
end ConnectorControl
