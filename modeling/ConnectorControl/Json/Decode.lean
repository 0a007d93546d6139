import ConnectorControl.Json.Writer
import ConnectorControl.Text.Quoted

/-!
# Reading JSON values as typed values

A decoder gives a typed value or the first cause that stopped it, with the value it stopped at.  A
record is read in the key order of its members, and a member that is required but absent is noticed
last.  An optional member may be absent or `null`; a member with a default may only be absent.  A
name may stand for several members: all of them are read, and the last counts, unless the record
insists on one.

Some records may also be given as a list of their values, in an order of their own (`record`).  Such
a list may leave out values at its end, but none that has no default.
-/

namespace ConnectorControl

/-- why a JSON value is not read as a typed one -/
inductive DecodeError where
  | mismatch (expected : String) (found : Json)
  /-- a value of the type, but none that there may be, such as an integer that is too large -/
  | invalid (expected : String) (found : Json)
  /-- a list that is too short or too long -/
  | length (n : Nat) (expected : String)
  /-- a name that is none of those there are -/
  | unknownName (name : String) (names : List String)
  | missing (member : String)
  | repeated (member : String)
  /-- a text that does not write a value of its type -/
  | unreadable (why : String)
  /-- members that do not go together -/
  | refused (text : String)
deriving DecidableEq

namespace DecodeError

/-- a value as it is called in a message: by its type, a plain one with its text -/
def called : Json → String
  | .null => "null"
  | .bool b => "boolean `" ++ (Json.bool b).text ++ "`"
  | .int n => "integer `" ++ toString n ++ "`"
  | .real x => "floating point `" ++ Json.realText x ++ "`"
  | .str s => "string " ++ Text.quoted s
  | .arr _ => "sequence"
  | .obj _ => "map"

def nameText (name : String) : String := "`" ++ name ++ "`"

/-- names to choose from, in a message -/
def choiceText : List String → String
  | [name] => nameText name
  | [name, other] => nameText name ++ " or " ++ nameText other
  | names => "one of " ++ ", ".intercalate (names.map nameText)

def message : DecodeError → String
  | .mismatch expected found => "invalid type: " ++ called found ++ ", expected " ++ expected
  | .invalid expected found => "invalid value: " ++ called found ++ ", expected " ++ expected
  | .length n expected => "invalid length " ++ toString n ++ ", expected " ++ expected
  | .unknownName name names =>
    "unknown variant " ++ nameText name ++ ", expected " ++ choiceText names
  | .missing member => "missing field " ++ nameText member
  | .repeated member => "duplicate field " ++ nameText member
  | .unreadable why => why
  | .refused text => text

end DecodeError

abbrev Decoded (α : Type) := Except DecodeError α

abbrev Decoder (α : Type) := Json → Decoded α

namespace Decode

variable {α : Type}

/-! ## plain values -/

def json : Decoder Json := .ok

def string : Decoder String
  | .str s => .ok s
  | v => .error (.mismatch "a string" v)

def bool : Decoder Bool
  | .bool b => .ok b
  | v => .error (.mismatch "a boolean" v)

/-- an integer between two bounds -/
def intWithin (what : String) (least most : Int) : Decoder Int
  | .int n => if least ≤ n ∧ n ≤ most then .ok n else .error (.invalid what (.int n))
  | v => .error (.mismatch what v)

def int32 : Decoder Int32 := fun v =>
  .ofInt <$> intWithin "i32" Int32.minValue.toInt Int32.maxValue.toInt v

def int64 : Decoder Int64 := fun v =>
  .ofInt <$> intWithin "i64" Int64.minValue.toInt Int64.maxValue.toInt v

/-- an integer of so many bits without sign -/
def uint (bits : Nat) : Decoder Nat := fun v =>
  Int.toNat <$> intWithin ("u" ++ toString bits) 0 (Nat.pow 2 bits - 1) v

def list (item : Decoder α) : Decoder (List α)
  | .arr items => items.mapM item
  | v => .error (.mismatch "a sequence" v)

/-- the members of a record that goes by some name -/
def membersOf (what : String) : Decoder (List (String × Json))
  | .obj ms => .ok ms
  | v => .error (.mismatch what v)

def members : Decoder (List (String × Json)) := membersOf "a map"

/-- Reads a record that may also be given as a list, whose values are those of its members in their
order.  Of a member that has to be there it is told what to say when it is not. -/
def record (name : String) (order : List String)
    (read : List (String × Json) → (String → DecodeError) → Decoded α) : Decoder α
  | .obj ms => read ms .missing
  | .arr items => do
    let what := "struct " ++ name ++ " with " ++ toString order.length ++ " elements"
    let a ← read (order.zip items) fun member => .length (order.idxOf member) what
    if items.length ≤ order.length then return a
    else throw (.length items.length "fewer elements in array")
  | v => .error (.mismatch ("struct " ++ name) v)

/-- reads every member of an object -/
def table (value : Decoder α) : Decoder (Table String α) := fun v => do
  return .ofList (← (← members v).mapM fun m => return (m.1, ← value m.2))

/-- reads one of a few names, given as a text or as the only member, `null`, of an object -/
def choice (names : List (String × α)) : Decoder α
  | .str s => named s
  | .obj [(s, v)] => do
    let a ← named s
    match v with
    | .null => return a
    | v => throw (.mismatch "unit" v)
  | .obj ms => .error (.invalid "map with a single key" (.obj ms))
  | v => .error (.mismatch "string or map" v)
where
  named (s : String) : Decoded α :=
    match Entries.find? s names with
    | some a => .ok a
    | none => .error (.unknownName s (names.map (·.1)))

/-- reads `null` as no value -/
def option (value : Decoder α) : Decoder (Option α)
  | .null => .ok none
  | v => some <$> value v

/-! ## members of an object -/

/-- the members of one name -/
def named (ms : List (String × Json)) (name : String) : List Json :=
  (ms.filter fun m => m.1 = name).map (·.2)

/-- reads a member, if there is one -/
def member? (ms : List (String × Json)) (name : String) (value : Decoder α) :
    Decoded (Option α) :=
  return (← (named ms name).mapM value).getLast?

/-- reads a member that must not be repeated, if there is one -/
def single? (ms : List (String × Json)) (name : String) (value : Decoder α) :
    Decoded (Option α) :=
  match named ms name with
  | [] => .ok none
  | [v] => some <$> value v
  | _ => .error (.repeated name)

/-- reads a member that may be absent or `null` -/
def optional (ms : List (String × Json)) (name : String) (value : Decoder α) :
    Decoded (Option α) :=
  return (← member? ms name (option value)).join

/-- reads a member that has a value when it is absent -/
def withDefault (ms : List (String × Json)) (name : String) (value : Decoder α) (default : α) :
    Decoded α :=
  return (← member? ms name value).getD default

/-- insists on a member read before -/
def require (absent : DecodeError) : Option α → Decoded α
  | some a => .ok a
  | none => .error absent

end Decode

end ConnectorControl
