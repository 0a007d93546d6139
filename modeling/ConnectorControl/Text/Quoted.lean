import ConnectorControl.Text.Printable

/-!
# Quoted text

Names and values inside messages are quoted: quotes and backslashes are escaped, a few controls
have letters, and every other character that is not printable is written by its code in
hexadecimal.
-/

namespace ConnectorControl
namespace Text

/-- the code of a character in lower-case hexadecimal, between braces -/
def codeEscape (c : Char) : List Char :=
  '\\' :: 'u' :: '\x7b' :: Nat.toDigits 16 c.toNat ++ ['\x7d']

def quotedChar (c : Char) : List Char :=
  match c with
  | '"' => ['\\', '"']
  | '\\' => ['\\', '\\']
  | '\n' => ['\\', 'n']
  | '\r' => ['\\', 'r']
  | '\t' => ['\\', 't']
  | '\x00' => ['\\', '0']
  | c => if isPrintable c then [c] else codeEscape c

def quoted (s : String) : String :=
  .ofList ('"' :: s.toList.flatMap quotedChar ++ ['"'])

/-- quoted items between brackets -/
def quotedList (items : List String) : String :=
  "[" ++ ", ".intercalate (items.map quoted) ++ "]"

end Text
end ConnectorControl
