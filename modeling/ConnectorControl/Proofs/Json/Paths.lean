import ConnectorControl.Proofs.Json.Stripped

/-!
# Paths into objects

A path of member names leads through nested objects (`Json.at?`).  A merge patch is known by what it
does along each path:

* `at?_merge`           where it says nothing, the value stays as it was;
* `at?_merge_of_leaf`   where it has a value that is no object, that value is put.
-/

namespace ConnectorControl
namespace Json

def at? (v : Json) : List String → Option Json
  | [] => some v
  | k :: path => (v.find? k).bind fun x => x.at? path

/-- The path is not mentioned by the patch, which has nothing but objects on the way to it. -/
structure LeavesAlone (patch : Json) (path : List String) : Prop where
  unmentioned : patch.at? path = none
  through : ∀ start, start <+: path → ∀ x, patch.at? start = some x → x.isObject = true

section
variable {patch v x : Json} {path : List String} {k : String}

theorem at?_cons : v.at? (k :: path) = (v.find? k).bind fun x => x.at? path := rfl

theorem at?_cons_of_find? (h : v.find? k = some x) : v.at? (k :: path) = x.at? path := by
  rw [at?_cons, h]
  rfl

theorem at?_null (h : path ≠ []) : at? .null path = none := by
  cases path with
  | nil => exact absurd rfl h
  | cons k path => rfl

/-- the member of what a path leads to is at the end of a longer path -/
theorem get_at? (v : Json) (path : List String) (k : String) :
    ((v.at? path).getD .null).get k = (v.at? (path ++ [k])).getD .null := by
  induction path generalizing v with
  | nil =>
    show v.get k = (v.at? [k]).getD .null
    rw [get_eq, at?_cons]
    cases v.find? k <;> rfl
  | cons k' path ih =>
    rw [List.cons_append, at?_cons, at?_cons]
    cases v.find? k' with
    | none => rfl
    | some x => exact ih x

theorem get_get (v : Json) (a b : String) : (v.get a).get b = (v.at? [a, b]).getD .null := by
  have ha : v.get a = (v.at? [a]).getD .null := get_at? v [] a
  rw [ha]
  exact get_at? v [a] b

theorem get_get_get (v : Json) (a b c : String) :
    ((v.get a).get b).get c = (v.at? [a, b, c]).getD .null := by
  rw [get_get v a b]
  exact get_at? v [a, b] c

theorem isTable_of_isObject (h : v.isObject = true) (hv : v.Canonical) : v.IsTable :=
  ⟨h, ordered_members hv⟩

/-! ## one step along a path -/

theorem LeavesAlone.ne_nil (h : patch.LeavesAlone path) : path ≠ [] := by
  rintro rfl
  cases h.unmentioned

theorem LeavesAlone.isObject (h : patch.LeavesAlone path) : patch.isObject = true :=
  h.through [] List.nil_prefix patch rfl

theorem LeavesAlone.step (h : patch.LeavesAlone (k :: path)) (hx : patch.find? k = some x) :
    x.LeavesAlone path := by
  have hat : ∀ start, patch.at? (k :: start) = x.at? start := fun start => at?_cons_of_find? hx
  refine ⟨?_, fun start hstart y hy => ?_⟩
  · rw [← hat]
    exact h.unmentioned
  · refine h.through (k :: start) ?_ y ?_
    · rwa [List.prefix_cons_inj]
    · rwa [hat]

theorem leavesAlone_of_find?_eq_none (ho : patch.isObject = true) (hk : patch.find? k = none) :
    patch.LeavesAlone (k :: path) := by
  refine ⟨by rw [at?_cons, hk]; rfl, fun start hstart x hx => ?_⟩
  cases start with
  | nil =>
    obtain rfl := Option.some.inj hx
    exact ho
  | cons k' start =>
    obtain ⟨rfl, _⟩ := List.cons_prefix_cons.1 hstart
    rw [at?_cons, hk] at hx
    cases hx

theorem leavesAlone_cons (ho : patch.isObject = true) (hk : patch.find? k = some x)
    (h : x.LeavesAlone path) : patch.LeavesAlone (k :: path) := by
  refine ⟨by rw [at?_cons_of_find? hk]; exact h.unmentioned, fun start hstart y hy => ?_⟩
  cases start with
  | nil =>
    obtain rfl := Option.some.inj hy
    exact ho
  | cons k' start =>
    obtain ⟨rfl, hrest⟩ := List.cons_prefix_cons.1 hstart
    rw [at?_cons_of_find? hk] at hy
    exact h.through start hrest y hy

/-! ## merging -/

theorem not_isNull_of_isObject (h : x.isObject = true) : x.isNull = false := by
  cases x with
  | obj ms => rfl
  | _ => cases h

theorem at?_merge (hp : patch.Canonical) (h : patch.LeavesAlone path) (v : Json) :
    (v.merge patch).at? path = v.at? path := by
  induction path generalizing patch v with
  | nil => exact absurd rfl h.ne_nil
  | cons k path ih =>
    rw [at?_cons, at?_cons, find?_merge v (isTable_of_isObject h.isObject hp)]
    cases hx : patch.find? k with
    | none => rfl
    | some x =>
      have hx' := h.step hx
      have hmember : mergedMember (v.find? k) (some x) =
          some (((v.find? k).getD .null).merge x) := by
        rw [mergedMember, not_isNull_of_isObject hx'.isObject]
        rfl
      rw [hmember]
      show (((v.find? k).getD .null).merge x).at? path = _
      rw [ih (canonical_of_find? hp hx) hx']
      cases v.find? k with
      | none => exact at?_null hx'.ne_nil
      | some y => rfl

theorem at?_merge_of_leaf (hp : patch.Canonical) (h : patch.at? path = some x)
    (ho : x.isObject = false) (hn : x.isNull = false) (v : Json) :
    (v.merge patch).at? path = some x := by
  induction path generalizing patch v with
  | nil =>
    obtain rfl := Option.some.inj h
    rw [merge_of_not_object ho]
    rfl
  | cons k path ih =>
    rw [at?_cons] at h
    obtain ⟨y, hy, hx⟩ := Option.bind_eq_some_iff.1 h
    have hobject : patch.isObject = true := by
      cases patch with
      | obj ms => rfl
      | _ => cases hy
    have hnull : y.isNull = false := by
      cases path with
      | nil =>
        obtain rfl := Option.some.inj hx
        exact hn
      | cons k' path =>
        cases y with
        | null => cases hx
        | _ => rfl
    rw [at?_cons, find?_merge v (isTable_of_isObject hobject hp), hy, mergedMember, hnull]
    exact ih (canonical_of_find? hp hy) hx _

end

end Json
end ConnectorControl
