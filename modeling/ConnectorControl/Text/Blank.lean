/-!
# Blank text

Blank characters are those of the Unicode property `White_Space`; a text is blank when it holds no
other character.
-/

namespace ConnectorControl
namespace Text

/-- first and last character of each range of blanks -/
def blankRanges : List (Nat × Nat) := [
  (0x9, 0xd), (0x20, 0x20), (0x85, 0x85), (0xa0, 0xa0), (0x1680, 0x1680), (0x2000, 0x200a),
  (0x2028, 0x2029), (0x202f, 0x202f), (0x205f, 0x205f), (0x3000, 0x3000)]

def isBlankChar (c : Char) : Bool :=
  blankRanges.any fun r => r.1 ≤ c.toNat && c.toNat ≤ r.2

/-- drops the blanks in front of the first and behind the last other character -/
def trimChars (cs : List Char) : List Char :=
  ((cs.dropWhile isBlankChar).reverse.dropWhile isBlankChar).reverse

def trim (s : String) : String := .ofList (trimChars s.toList)

def isBlank (s : String) : Bool := s.toList.all isBlankChar

end Text
end ConnectorControl
