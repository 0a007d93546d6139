import ConnectorControl.Json.Reader

/-!
# Outlines

Who reads a text for some of its members does not look at the others, so a part without a value
does no harm there.  An outline says what is looked at, and `Outline.read` gives that much of a
text; what it does not look at is left out.
-/

namespace ConnectorControl
namespace Json

inductive Outline where
  /-- the value as it is written -/
  | written
  /-- the value, in which the last of several members of one name counts -/
  | whole
  /-- Members by name, as they are written.  Others are left out or, if they are kept, whole.  Where
  others are left out, the members may also stand in a list, in their order. -/
  | record (known : List (String × Outline)) (keepsOthers : Bool)
  | items (each : Outline)

mutual

/-- the part of a text that an outline looks at, unless it has no value -/
def Outline.read : Written → Outline → Option Json
  | w, .written => w.value?
  | w, .whole => w.value?.map canonical
  | .obj members, .record known keepsOthers =>
    (Outline.readMembers members known keepsOthers).map .obj
  | .arr parts, .record known false => (Outline.readFields parts known).map .arr
  | .arr parts, .items each => (Outline.readItems parts each).map .arr
  | w, _ => w.value?

def Outline.readMembers : List (Option String × Written) → List (String × Outline) → Bool →
    Option (List (String × Json))
  | [], _, _ => some []
  | (none, _) :: _, _, _ => none
  | (some name, w) :: rest, known, keepsOthers =>
    let others := Outline.readMembers rest known keepsOthers
    match Entries.find? name known with
    | some o =>
      match Outline.read w o, others with
      | some v, some others => some ((name, v) :: others)
      | _, _ => none
    | none =>
      if keepsOthers then
        match Outline.read w .whole, others with
        | some v, some others => some ((name, v) :: others)
        | _, _ => none
      else others

def Outline.readFields : List Written → List (String × Outline) → Option (List Json)
  | [], _ => some []
  | w :: rest, [] =>
    match w.value?, Outline.readFields rest [] with
    | some v, some others => some (v :: others)
    | _, _ => none
  | w :: rest, (_, o) :: known =>
    match Outline.read w o, Outline.readFields rest known with
    | some v, some others => some (v :: others)
    | _, _ => none

def Outline.readItems : List Written → Outline → Option (List Json)
  | [], _ => some []
  | w :: rest, each =>
    match Outline.read w each, Outline.readItems rest each with
    | some v, some others => some (v :: others)
    | _, _ => none

end

namespace Outline

/-- members that are taken as they are written -/
def plain (names : List String) : List (String × Outline) := names.map fun n => (n, .written)

/-- a record of plain members -/
def ofNames (names : List String) : Outline := .record (plain names) false

/-- the part of a text that is looked at, if the text is well-formed -/
def ofText? (o : Outline) (s : String) : Option Json := (Written.ofText? s).bind fun w => o.read w

end Outline

end Json
end ConnectorControl
