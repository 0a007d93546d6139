/-!
# Bytes as text

Bytes are read as UTF-8.  Where they are not, each longest part that begins a character, and else
each byte, becomes one replacement character.
-/

namespace ConnectorControl
namespace Text

/-- a character begun: the bytes that it still needs, the range of the next one, and its value so
far -/
structure Begun where
  left : Nat
  least : Nat
  most : Nat
  value : Nat

/-- stands for bytes that are no character -/
def replacement : Char := '\ufffd'

/-- a byte where a character begins -/
def beginByte (b : Nat) : List Char × Option Begun :=
  if b < 0x80 then ([Char.ofNat b], none)
  else if 0xc2 ≤ b ∧ b ≤ 0xdf then ([], some ⟨1, 0x80, 0xbf, b - 0xc0⟩)
  else if 0xe0 ≤ b ∧ b ≤ 0xef then
    ([], some ⟨2, if b = 0xe0 then 0xa0 else 0x80, if b = 0xed then 0x9f else 0xbf, b - 0xe0⟩)
  else if 0xf0 ≤ b ∧ b ≤ 0xf4 then
    ([], some ⟨3, if b = 0xf0 then 0x90 else 0x80, if b = 0xf4 then 0x8f else 0xbf, b - 0xf0⟩)
  else ([replacement], none)

/-- a byte after the one that began a character, or after none -/
def nextByte (b : Nat) : Option Begun → List Char × Option Begun
  | none => beginByte b
  | some p =>
    if p.least ≤ b ∧ b ≤ p.most then
      let value := 64 * p.value + (b - 0x80)
      if p.left ≤ 1 then ([Char.ofNat value], none)
      else ([], some ⟨p.left - 1, 0x80, 0xbf, value⟩)
    else
      let (cs, begun) := beginByte b
      (replacement :: cs, begun)

/-- the characters of bytes that follow those of a character begun -/
def decodeAfter (begun : Option Begun) : List UInt8 → List Char
  | [] => if begun.isSome then [replacement] else []
  | b :: bs =>
    let (cs, begun) := nextByte b.toNat begun
    cs ++ decodeAfter begun bs

/-- the text of bytes -/
def ofBytes (bs : List UInt8) : String := .ofList (decodeAfter none bs)

/-- the bytes of a text -/
def bytes (s : String) : List UInt8 := s.toUTF8.data.toList

end Text
end ConnectorControl
