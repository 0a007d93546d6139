import ConnectorControl.Table

/-!
# JSON values

A number written without fraction and exponent is an integer and never equals one written with
them.  The members of an object are kept in key order; `Json.Canonical` says so at every depth,
and every value the library reads or builds is canonical.
-/

namespace ConnectorControl

inductive Json where
  | null
  | bool (b : Bool)
  | int (n : Int)
  | real (x : Float)
  | str (s : String)
  | arr (items : List Json)
  | obj (members : List (String × Json))
deriving Inhabited

namespace Json

/-! ## building -/

/-- an object of the given members, put in key order -/
def object (members : List (String × Json)) : Json := .obj (Entries.ofList members)

/-- an object of those members that are set -/
def objectOfSet (members : List (String × Option Json)) : Json :=
  object (members.filterMap fun m => m.2.map (m.1, ·))

/-- an integer member that may be unset -/
def ofInt32? (n : Option Int32) : Option Json := n.map fun n => .int n.toInt

def ofStrings (ss : List String) : Json := .arr (ss.map .str)

/-- an object of string members -/
def ofStringTable (t : Table String String) : Json := .obj (Entries.mapValues .str t.entries)

/-! ## looking in -/

def isNull : Json → Bool
  | .null => true
  | _ => false

def isObject : Json → Bool
  | .obj _ => true
  | _ => false

/-- the members of an object, none for any other value -/
def members : Json → List (String × Json)
  | .obj ms => ms
  | _ => []

/-- the member of an object under a name, `null` when there is none -/
def get (v : Json) (name : String) : Json := (Entries.find? name v.members).getD .null

def string? : Json → Option String
  | .str s => some s
  | _ => none

/-! ## key order -/

mutual

/-- every object in the value has its members in key order -/
def Canonical : Json → Prop
  | .arr items => ItemsCanonical items
  | .obj members => Entries.Ordered members ∧ MembersCanonical members
  | _ => True

def ItemsCanonical : List Json → Prop
  | [] => True
  | v :: rest => v.Canonical ∧ ItemsCanonical rest

def MembersCanonical : List (String × Json) → Prop
  | [] => True
  | (_, v) :: rest => v.Canonical ∧ MembersCanonical rest

end

theorem itemsCanonical_iff {items : List Json} :
    ItemsCanonical items ↔ ∀ v ∈ items, v.Canonical := by
  induction items with
  | nil => simp [ItemsCanonical]
  | cons v rest ih => simp [ItemsCanonical, ih]

theorem membersCanonical_iff {ms : List (String × Json)} :
    MembersCanonical ms ↔ ∀ m ∈ ms, m.2.Canonical := by
  induction ms with
  | nil => simp [MembersCanonical]
  | cons m rest ih => simp [MembersCanonical, ih]

theorem canonical_object {ms : List (String × Json)} (h : ∀ m ∈ ms, m.2.Canonical) :
    (object ms).Canonical := by
  refine ⟨Entries.ordered_ofList ms, membersCanonical_iff.2 ?_⟩
  suffices ∀ t : List (String × Json), (∀ m ∈ t, m.2.Canonical) →
      ∀ m ∈ ms.foldl (fun t e => Entries.insert e.1 e.2 t) t, m.2.Canonical from
    this [] (by simp)
  induction ms with
  | nil => exact fun t ht => ht
  | cons e ms ih =>
    intro t ht
    refine ih (fun m hm => h m (List.mem_cons_of_mem _ hm)) _ fun m hm => ?_
    rcases Entries.mem_insert hm with rfl | hm
    · exact h e List.mem_cons_self
    · exact ht m hm

/-! ## equality -/

mutual

def decEq : (a b : Json) → Decidable (a = b)
  | .null, b => match b with
    | .null => .isTrue rfl
    | .bool _ | .int _ | .real _ | .str _ | .arr _ | .obj _ => .isFalse nofun
  | .bool x, b => match b with
    | .bool y => decidable_of_iff (x = y) (by simp)
    | .null | .int _ | .real _ | .str _ | .arr _ | .obj _ => .isFalse nofun
  | .int x, b => match b with
    | .int y => decidable_of_iff (x = y) (by simp)
    | .null | .bool _ | .real _ | .str _ | .arr _ | .obj _ => .isFalse nofun
  | .real x, b => match b with
    | .real y => decidable_of_iff (x = y) (by simp)
    | .null | .bool _ | .int _ | .str _ | .arr _ | .obj _ => .isFalse nofun
  | .str x, b => match b with
    | .str y => decidable_of_iff (x = y) (by simp)
    | .null | .bool _ | .int _ | .real _ | .arr _ | .obj _ => .isFalse nofun
  | .arr x, b => match b with
    | .arr y => have := decEqItems x y; decidable_of_iff (x = y) (by simp)
    | .null | .bool _ | .int _ | .real _ | .str _ | .obj _ => .isFalse nofun
  | .obj x, b => match b with
    | .obj y => have := decEqMembers x y; decidable_of_iff (x = y) (by simp)
    | .null | .bool _ | .int _ | .real _ | .str _ | .arr _ => .isFalse nofun

def decEqItems : (a b : List Json) → Decidable (a = b)
  | [], [] => .isTrue rfl
  | [], _ :: _ => .isFalse nofun
  | _ :: _, [] => .isFalse nofun
  | v :: a, w :: b =>
    have := decEq v w
    have := decEqItems a b
    decidable_of_iff (v = w ∧ a = b) (by simp)

def decEqMembers : (a b : List (String × Json)) → Decidable (a = b)
  | [], [] => .isTrue rfl
  | [], _ :: _ => .isFalse nofun
  | _ :: _, [] => .isFalse nofun
  | (j, v) :: a, (k, w) :: b =>
    have := decEq v w
    have := decEqMembers a b
    decidable_of_iff (j = k ∧ v = w ∧ a = b) (by simp [and_assoc])

end

instance : DecidableEq Json := decEq

mutual

/-- whether two values are the same when floats count as numbers, so that zero has no sign -/
def same : Json → Json → Bool
  | .real x, .real y => x == y
  | .arr items, .arr others => sameItems items others
  | .obj members, .obj others => sameMembers members others
  | v, w => decide (v = w)

def sameItems : List Json → List Json → Bool
  | [], [] => true
  | v :: items, w :: others => same v w && sameItems items others
  | _, _ => false

def sameMembers : List (String × Json) → List (String × Json) → Bool
  | [], [] => true
  | (j, v) :: members, (k, w) :: others => j = k && same v w && sameMembers members others
  | _, _ => false

end

end Json

end ConnectorControl
