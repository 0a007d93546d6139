import ConnectorControl.Objects.IntOrString

/-!
# Records by their shape

Most of what an object holds is passed on as it is.  Such a part is known by its shape alone, which
says what its values are (`Shape.Value`), how they are read and how they are written.

A member of a record is required or optional, and either may be absent or `null`.  A required one is
then empty or zero, and is always written; an optional one is not set, and is written when it is.
-/

namespace ConnectorControl

inductive Shape where
  | text
  | flag
  | int32
  | int64
  | intOrText
  /-- texts by name -/
  | texts
  | list (item : Shape)
  /-- a record that goes by a name, with its members in key order and whether each is required -/
  | record (name : String) (members : List (String × Bool × Shape))

namespace Shape

def required (name : String) (s : Shape) : String × Bool × Shape := (name, true, s)

def optional (name : String) (s : Shape) : String × Bool × Shape := (name, false, s)

mutual

/-- the values of a shape -/
def Value : Shape → Type
  | .text => String
  | .flag => Bool
  | .int32 => Int32
  | .int64 => Int64
  | .intOrText => IntOrString
  | .texts => Table String String
  | .list item => List item.Value
  | .record _ ms => Values ms

def Values : List (String × Bool × Shape) → Type
  | [] => Unit
  | (_, true, s) :: ms => s.Value × Values ms
  | (_, false, s) :: ms => Option s.Value × Values ms

end

mutual

/-- what a required member is when it is absent -/
def empty : (s : Shape) → s.Value
  | .text => ""
  | .flag => false
  | .int32 => (0 : Int32)
  | .int64 => (0 : Int64)
  | .intOrText => IntOrString.int 0
  | .texts => (∅ : Table String String)
  | .list _ => []
  | .record _ ms => emptyMembers ms

def emptyMembers : (ms : List (String × Bool × Shape)) → Values ms
  | [] => ()
  | (_, true, s) :: ms => (s.empty, emptyMembers ms)
  | (_, false, _) :: ms => (none, emptyMembers ms)

end

mutual

def decode : (s : Shape) → Decoder s.Value
  | .text => Decode.string
  | .flag => Decode.bool
  | .int32 => Decode.int32
  | .int64 => Decode.int64
  | .intOrText => IntOrString.decode
  | .texts => Decode.table Decode.string
  | .list item => Decode.list item.decode
  | .record name ms => fun v => Decode.membersOf name v >>= decodeMembers ms

def decodeMembers : (ms : List (String × Bool × Shape)) → List (String × Json) →
    Decoded (Values ms)
  | [], _ => return ()
  | (name, true, s) :: ms, given => do
    let x ← Decode.optional given name s.decode
    return (x.getD s.empty, ← decodeMembers ms given)
  | (name, false, s) :: ms, given => do
    let x ← Decode.optional given name s.decode
    return (x, ← decodeMembers ms given)

end

mutual

def toJson : (s : Shape) → s.Value → Json
  | .text, x => .str x
  | .flag, x => .bool x
  | .int32, x => .int (Int32.toInt x)
  | .int64, x => .int (Int64.toInt x)
  | .intOrText, x => IntOrString.toJson x
  | .texts, x => .ofStringTable x
  | .list item, xs => .arr (List.map item.toJson xs)
  | .record _ ms, x => .objectOfSet (written ms x)

/-- the members of a record as they are written -/
def written : (ms : List (String × Bool × Shape)) → Values ms → List (String × Option Json)
  | [], _ => []
  | (name, true, s) :: ms, x => (name, some (s.toJson x.1)) :: written ms x.2
  | (name, false, s) :: ms, x => (name, Option.map s.toJson x.1) :: written ms x.2

end

mutual

def decEq : (s : Shape) → DecidableEq s.Value
  | .text => inferInstanceAs (DecidableEq String)
  | .flag => inferInstanceAs (DecidableEq Bool)
  | .int32 => inferInstanceAs (DecidableEq Int32)
  | .int64 => inferInstanceAs (DecidableEq Int64)
  | .intOrText => inferInstanceAs (DecidableEq IntOrString)
  | .texts => inferInstanceAs (DecidableEq (Table String String))
  | .list item =>
    let _ := item.decEq
    inferInstanceAs (DecidableEq (List item.Value))
  | .record _ ms => decEqMembers ms

def decEqMembers : (ms : List (String × Bool × Shape)) → DecidableEq (Values ms)
  | [] => inferInstanceAs (DecidableEq Unit)
  | (_, true, s) :: ms =>
    let _ := s.decEq
    let _ := decEqMembers ms
    inferInstanceAs (DecidableEq (s.Value × Values ms))
  | (_, false, s) :: ms =>
    let _ := s.decEq
    let _ := decEqMembers ms
    inferInstanceAs (DecidableEq (Option s.Value × Values ms))

end

instance (s : Shape) : DecidableEq s.Value := s.decEq

end Shape
end ConnectorControl
