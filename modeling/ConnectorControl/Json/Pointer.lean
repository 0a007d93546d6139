import ConnectorControl.Json.Basic
import ConnectorControl.Text.Integer
import ConnectorControl.Text.Split

/-!
# JSON pointers

A pointer leads to a part of a value by the names of members and the positions of items on the way,
each behind a slash.  In a name `~1` stands for a slash and `~0` for a tilde (RFC 6901).
-/

namespace ConnectorControl
namespace Json
namespace Pointer

def unescape : List Char → List Char
  | '~' :: '1' :: cs => '/' :: unescape cs
  | '~' :: '0' :: cs => '~' :: unescape cs
  | c :: cs => c :: unescape cs
  | [] => []

/-- a position, without superfluous zeros -/
def position? (s : String) : Option Nat :=
  match s.toList with
  | '0' :: _ :: _ => none
  | cs => Text.nat? cs

def step (v : Json) (name : String) : Option Json :=
  match v with
  | .obj ms => Entries.find? name ms
  | .arr items => (position? name).bind fun i => items[i]?
  | _ => none

end Pointer

/-- the part of a value that a pointer leads to -/
def pointer? (v : Json) (pointer : String) : Option Json :=
  match Text.split '/' pointer with
  | [""] => some v
  | "" :: names => names.foldlM (fun v n => Pointer.step v (.ofList (Pointer.unescape n.toList))) v
  | _ => none

end Json
end ConnectorControl
