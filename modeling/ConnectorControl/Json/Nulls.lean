import ConnectorControl.Json.Basic

/-!
# Dropping nulls

`stripNulls` drops the members that are `null` from every object of a value, those inside arrays
included.  An array keeps its length: a `null` item stays.
-/

namespace ConnectorControl
namespace Json

mutual

/-- drops the null members of every object in the value -/
def stripNulls : Json → Json
  | .null => .null
  | .bool b => .bool b
  | .int n => .int n
  | .real x => .real x
  | .str s => .str s
  | .arr items => .arr (stripItems items)
  | .obj members => .obj (stripMembers members)

def stripItems : List Json → List Json
  | [] => []
  | v :: rest => v.stripNulls :: stripItems rest

def stripMembers : List (String × Json) → List (String × Json)
  | [] => []
  | (k, v) :: rest =>
    if v.isNull then stripMembers rest else (k, v.stripNulls) :: stripMembers rest

end

theorem stripItems_eq_map (items : List Json) : stripItems items = items.map stripNulls := by
  induction items with
  | nil => rfl
  | cons v rest ih => simp [stripItems, ih]

@[simp] theorem isNull_stripNulls (v : Json) : v.stripNulls.isNull = v.isNull := by
  cases v <;> simp [stripNulls, isNull]

end Json
end ConnectorControl
