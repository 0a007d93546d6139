import ConnectorControl.Json.Basic

/-!
# Schemas

A schema describes a JSON value the way a resource definition does: a type, with the restrictions
and the notes that come with it.  Notes are put around a type.
-/

namespace ConnectorControl

inductive Schema where
  | string
  | integer (bits : Nat)
  | intOrString
  | choice (values : List Json)
  | array (items : Schema)
  /-- an object of any members -/
  | anyObject
  /-- an object of members with any names -/
  | table (values : Schema)
  /-- an object of known members, some of which have to be there -/
  | object (properties : List (String × Schema)) (required : List String)
  /-- exactly one of these members has to be there -/
  | exactlyOne (names : List String) (s : Schema)
  | described (text : String) (s : Schema)
  | titled (text : String) (s : Schema)
  | nullable (s : Schema)
  | withDefault (value : Json) (s : Schema)

namespace Schema

def names (ns : List String) : Schema := choice (ns.map .str)

/-- a name that may be left out -/
def namesOrNull (ns : List String) : Schema := nullable (choice (ns.map .str ++ [.null]))

def typeMember (name : String) : String × Json := ("type", .str name)

def requiredMember (ns : List String) : String × Json := ("required", .ofStrings ns)

mutual

/-- the members of a schema's object -/
def members : Schema → List (String × Json)
  | string => [typeMember "string"]
  | integer bits => [typeMember "integer", ("format", .str ("int" ++ toString bits))]
  | intOrString => [("x-kubernetes-int-or-string", .bool true)]
  | choice values => [typeMember "string", ("enum", .arr values)]
  | array items => [typeMember "array", ("items", .object items.members)]
  | anyObject => [typeMember "object", ("x-kubernetes-preserve-unknown-fields", .bool true)]
  | table values => [typeMember "object", ("additionalProperties", .object values.members)]
  | object properties required =>
    typeMember "object" :: ("properties", .object (propertyMembers properties)) ::
      if required.isEmpty then [] else [requiredMember required]
  | exactlyOne ns s =>
    ("oneOf", .arr (ns.map fun n => .object [requiredMember [n]])) :: s.members
  | described text s => ("description", .str text) :: s.members
  | titled text s => ("title", .str text) :: s.members
  | nullable s => ("nullable", .bool true) :: s.members
  | withDefault value s => ("default", value) :: s.members

def propertyMembers : List (String × Schema) → List (String × Json)
  | [] => []
  | (name, s) :: rest => (name, .object s.members) :: propertyMembers rest

end

def toJson (s : Schema) : Json := .object s.members

end Schema
end ConnectorControl
