import Mathlib.Data.List.Forall2
import ConnectorControl.Proofs.Json.Stripped

/-!
# Patches that say everything

A patch covers a value when it names every member that the value has, at every depth.  Such a
patch leaves nothing of the value it is merged into: what comes out is the patch without its nulls
(`merge_of_covers`), as if the object had been created from it.

* `covers_object`       two objects that are written out under the same names;
* `Covers.stripNulls`   a value without its nulls is covered by what covers the value.
-/

namespace ConnectorControl
namespace Json

/-- the patch (the first value) names every member of the value -/
inductive Covers : Json → Json → Prop
  | leaf {p v : Json} (ho : p.isObject = false) (hs : p.Stripped) : Covers p v
  | table {p v : Json} (hp : p.IsTable) (hv : Entries.Ordered v.members)
    (names : ∀ k, p.find? k = none → v.find? k = none)
    (members : ∀ k x, p.find? k = some x → Covers x ((v.find? k).getD .null)) : Covers p v

theorem merge_of_covers {p v : Json} (h : Covers p v) : v.merge p = p.stripNulls := by
  induction h with
  | leaf ho hs => rw [merge_of_not_object ho, stripNulls_of_stripped hs]
  | @table p v hp hv names members ih =>
    refine merge_eq_of_forall hv hp (isTable_stripNulls hp) fun k => ?_
    rw [find?_stripNulls hp.ordered]
    cases hk : p.find? k with
    | none =>
      show v.find? k = none
      exact names k hk
    | some x =>
      rw [mergedMember, strippedMember, ih k x hk]

theorem Covers.stripNulls {p v : Json} (h : Covers p v) : Covers p v.stripNulls := by
  induction h with
  | leaf ho hs => exact .leaf ho hs
  | @table p v hp hv names members ih =>
    have hs : Entries.Ordered v.stripNulls.members := by
      cases v with
      | obj ms => exact ordered_stripMembers hv
      | _ => exact Entries.ordered_nil
    refine .table hp hs (fun k hk => ?_) fun k x hk => ?_
    · rw [find?_stripNulls hv, names k hk]
      rfl
    · have hx := ih k x hk
      have hx' := members k x hk
      rw [find?_stripNulls hv]
      cases hv' : v.find? k with
      | none =>
        rw [hv'] at hx'
        exact hx'
      | some y =>
        rw [hv', Option.getD_some] at hx hx'
        by_cases hn : y.isNull = true
        · have : y = .null := by
            cases y with
            | null => rfl
            | _ => cases hn
          subst this
          exact hx'
        · rw [strippedMember, if_neg hn]
          exact hx

theorem covers_of_plain {p v : Json} (h : p.isPlain = true) : Covers p v := by
  cases p with
  | arr items => cases h
  | obj ms => cases h
  | _ => exact .leaf rfl trivial

theorem find?_of_forall₂ {ms ns : List (String × Json)}
    (h : List.Forall₂ (fun m n => m.1 = n.1 ∧ Covers m.2 n.2) ms ns) (k : String) :
    (Entries.find? k ms = none ∧ Entries.find? k ns = none) ∨
      ∃ x y, Entries.find? k ms = some x ∧ Entries.find? k ns = some y ∧ Covers x y := by
  induction h with
  | nil => exact .inl ⟨rfl, rfl⟩
  | @cons m n ms ns hmn _ ih =>
    obtain ⟨a, x⟩ := m
    obtain ⟨b, y⟩ := n
    obtain ⟨rfl, hxy⟩ : a = b ∧ Covers x y := hmn
    rw [Entries.find?_cons, Entries.find?_cons]
    by_cases hk : k = a
    · rw [if_pos hk, if_pos hk]
      exact .inr ⟨x, y, rfl, rfl, hxy⟩
    · rw [if_neg hk, if_neg hk]
      exact ih

/-- an object is covered by one that is written out under the same names -/
theorem covers_object {ms ns : List (String × Json)} (hm : (ms.map (·.1)).Nodup)
    (h : List.Forall₂ (fun m n => m.1 = n.1 ∧ Covers m.2 n.2) ms ns) :
    Covers (object ms) (object ns) := by
  have hn : (ns.map (·.1)).Nodup := by
    have : ns.map (·.1) = ms.map (·.1) := by
      induction h with
      | nil => rfl
      | cons hmn _ ih => rw [List.map_cons, List.map_cons, hmn.1, ih (List.nodup_cons.1 hm).2]
    rw [this]
    exact hm
  refine .table (isTable_object ms) (Entries.ordered_ofList ns) (fun k hk => ?_) fun k x hk => ?_
  · rw [find?_object hm] at hk
    rw [find?_object hn]
    rcases find?_of_forall₂ h k with ⟨_, hy⟩ | ⟨x, _, hx, _⟩
    · exact hy
    · rw [hk] at hx
      cases hx
  · rw [find?_object hm] at hk
    rw [find?_object hn]
    rcases find?_of_forall₂ h k with ⟨hx, _⟩ | ⟨x', y, hx, hy, hxy⟩
    · rw [hk] at hx
      cases hx
    · rw [hk] at hx
      rw [hy, Option.some.inj hx]
      exact hxy

theorem covers_ofStringTable (t : Table String String) :
    Covers (ofStringTable t) (ofStringTable t) := by
  have ho := isTable_ofStringTable t
  refine .table ho ho.ordered (fun k hk => hk) fun k x hk => ?_
  rw [find?_ofStringTable] at hk
  obtain ⟨s, _, rfl⟩ := Option.map_eq_some_iff.1 hk
  exact covers_of_plain rfl

end Json
end ConnectorControl
