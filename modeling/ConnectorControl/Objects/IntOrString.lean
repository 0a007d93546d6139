import ConnectorControl.Json.Decode
import ConnectorControl.Text.Blank
import ConnectorControl.Text.Integer

/-!
# Integers or text

Some members of objects hold an integer or a text.  Either can be taken as text, and as an integer
if the text writes one.
-/

namespace ConnectorControl

inductive IntOrString where
  | int (n : Int32)
  | str (s : String)
deriving DecidableEq

namespace IntOrString

def decode : Decoder IntOrString
  | .str s => .ok (.str s)
  | v => .int <$> Decode.int32 v

def toJson : IntOrString → Json
  | .int n => .int n.toInt
  | .str s => .str s

/-- the value as text, an integer in decimal -/
def render : IntOrString → String
  | .int n => toString n.toInt
  | .str s => s

/-- the value as an integer, which a text may hold between blanks -/
def int? : IntOrString → Option Int32
  | .int n => some n
  | .str s => Text.int32? (Text.trim s)

end IntOrString

end ConnectorControl
