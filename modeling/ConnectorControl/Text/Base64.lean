/-!
# Base 64

Four letters of the alphabet stand for three bytes.  A final group of two or three letters is
padded to four with `=`, and the bits that it leaves over are zero.
-/

namespace ConnectorControl
namespace Base64

/-- the six bits of a letter of the alphabet -/
def letter? (c : Char) : Option Nat :=
  if 'A' ≤ c ∧ c ≤ 'Z' then some (c.toNat - 'A'.toNat)
  else if 'a' ≤ c ∧ c ≤ 'z' then some (c.toNat - 'a'.toNat + 26)
  else if '0' ≤ c ∧ c ≤ '9' then some (c.toNat - '0'.toNat + 52)
  else if c = '+' then some 62
  else if c = '/' then some 63
  else none

/-- reads groups of four letters, padding only in the last one -/
def decodeChars : List Char → Option (List UInt8)
  | [] => some []
  | [a, b, '=', '='] => do
    let n := 64 * (← letter? a) + (← letter? b)
    if n % 16 = 0 then return [.ofNat (n / 16)] else none
  | [a, b, c, '='] => do
    let n := 4096 * (← letter? a) + 64 * (← letter? b) + (← letter? c)
    if n % 4 = 0 then return [.ofNat (n / 1024), .ofNat (n / 4)] else none
  | a :: b :: c :: d :: rest => do
    let n := 262144 * (← letter? a) + 4096 * (← letter? b) + 64 * (← letter? c) + (← letter? d)
    let bytes ← decodeChars rest
    return .ofNat (n / 65536) :: .ofNat (n / 256) :: .ofNat n :: bytes
  | _ => none

def decode (s : String) : Option (List UInt8) := decodeChars s.toList

end Base64
end ConnectorControl
