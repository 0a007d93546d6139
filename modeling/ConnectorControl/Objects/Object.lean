import ConnectorControl.Json.Nulls
import ConnectorControl.Objects.Metadata

/-!
# Objects

An object is read without knowing its kind: its type and its metadata are understood, every other
member is kept as it is, nulls included.  `Object.toJson` writes all of it back.
-/

namespace ConnectorControl

structure TypeMeta where
  apiVersion : String
  kind : String
deriving DecidableEq

structure Object where
  types : Option TypeMeta
  metadata : Metadata
  body : Table String Json
deriving DecidableEq

namespace Object

/-- The type of an object, and its other members.  Both parts of the type belong to it, whether or
not they make one; a part that is no text or is repeated ends the search, and those behind it are
members like others.  The parts found so far come first. -/
def takeTypes (version kind : Option String) : List (String × Json) →
    Option TypeMeta × List (String × Json)
  | [] =>
    match version, kind with
    | some version, some kind => (some ⟨version, kind⟩, [])
    | _, _ => (none, [])
  | (name, v) :: rest =>
    if name = "apiVersion" then
      match version, v with
      | none, .str s => takeTypes (some s) kind rest
      | _, _ => (none, rest)
    else if name = "kind" then
      match kind, v with
      | none, .str s => takeTypes version (some s) rest
      | _, _ => (none, rest)
    else
      let (types, others) := takeTypes version kind rest
      (types, (name, v) :: others)

open Decode in
def decode : Decoder Object := fun v => do
  let ms ← membersOf "struct DynamicObject" v
  let metadata ← single? ms "metadata" Metadata.decode
  let (types, others) := takeTypes none none (ms.filter fun m => m.1 ≠ "metadata")
  return ⟨types, metadata.getD default, .ofList others⟩

/-- what is looked at of an object: all of it, except for what its metadata does not have -/
def outline : Json.Outline := .record [("metadata", Metadata.outline)] true

def typeMembers : Option TypeMeta → List (String × Json)
  | some t => [("apiVersion", .str t.apiVersion), ("kind", .str t.kind)]
  | none => []

def toJson (o : Object) : Json :=
  .object (typeMembers o.types ++ ("metadata", o.metadata.toJson) :: o.body.entries)

/-- reads an object, of any kind, as a typed value -/
def decodeAs {α : Type} (o : Object) (decoder : Decoder α) : Decoded α := decoder o.toJson

/-- the object without null members, those inside its metadata aside, which has none -/
def stripNulls (o : Object) : Object :=
  { o with body := .ofList (Json.stripMembers o.body.entries) }

end Object
end ConnectorControl
