import ConnectorControl.Decimal.Notation
import ConnectorControl.Json.Basic

/-!
# JSON text, written

A value is written without blanks, its members in their order.  Strings escape quotes, backslashes
and controls; a float is written with the fewest digits that read back.
-/

namespace ConnectorControl
namespace Json

/-- Floats are positional from `0.00001` to below `10^16`. -/
def realNotation : DecimalNotation := ⟨-4, 16, true⟩

def realText (x : Float) : String :=
  let b := Binary.ofFloat x
  b.text realNotation b.shortest

def hexDigits (width n : Nat) : List Char :=
  let ds := Nat.toDigits 16 n
  List.replicate (width - ds.length) '0' ++ ds

def escapedChar (c : Char) : List Char :=
  match c with
  | '"' => ['\\', '"']
  | '\\' => ['\\', '\\']
  | '\x08' => ['\\', 'b']
  | '\t' => ['\\', 't']
  | '\n' => ['\\', 'n']
  | '\x0c' => ['\\', 'f']
  | '\r' => ['\\', 'r']
  | c => if c.toNat < 0x20 then '\\' :: 'u' :: hexDigits 4 c.toNat else [c]

def stringText (s : String) : String :=
  .ofList ('"' :: s.toList.flatMap escapedChar ++ ['"'])

mutual

/-- the text of a value -/
def text : Json → String
  | .null => "null"
  | .bool true => "true"
  | .bool false => "false"
  | .int n => toString n
  | .real x => realText x
  | .str s => stringText s
  | .arr items => "[" ++ ",".intercalate (itemTexts items) ++ "]"
  | .obj members => "\x7b" ++ ",".intercalate (memberTexts members) ++ "\x7d"

def itemTexts : List Json → List String
  | [] => []
  | v :: rest => v.text :: itemTexts rest

def memberTexts : List (String × Json) → List String
  | [] => []
  | (k, v) :: rest => (stringText k ++ ":" ++ v.text) :: memberTexts rest

end

end Json
end ConnectorControl
