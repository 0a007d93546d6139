import ConnectorControl.Proofs.Json.Lookup

/-!
# Values without some of their members

Two values may be the same but for a member somewhere inside, which is dropped to compare them:
`without` drops a member, `mapMember` goes on in a member and `mapItems` in the items of a list.
`find?_without` and `find?_mapMember` say what remains under each name.
-/

namespace ConnectorControl
namespace Json

def without (k : String) : Json → Json
  | .obj ms => .obj (Entries.erase k ms)
  | v => v

def mapMember (k : String) (f : Json → Json) : Json → Json
  | .obj ms => .obj (ms.map fun m => (m.1, if m.1 = k then f m.2 else m.2))
  | v => v

def mapItems (f : Json → Json) : Json → Json
  | .arr items => .arr (items.map f)
  | v => v

variable {v w : Json} {f g : Json → Json} {k : String}

theorem find?_without (v : Json) (k k' : String) :
    (v.without k).find? k' = if k' = k then none else v.find? k' := by
  cases v with
  | obj ms => exact Entries.find?_erase k' k ms
  | _ =>
    show none = ite _ _ none
    rw [ite_self]

theorem isTable_without (h : v.IsTable) : (v.without k).IsTable := by
  cases v with
  | obj ms => exact ⟨rfl, h.ordered.erase k⟩
  | _ => cases h.isObject

theorem find?_mapMember (v : Json) (k : String) (f : Json → Json) (k' : String) :
    (v.mapMember k f).find? k' = if k' = k then (v.find? k').map f else v.find? k' := by
  cases v with
  | obj ms =>
    show Entries.find? k' (ms.map _) = _
    show _ = if k' = k then (Entries.find? k' ms).map f else Entries.find? k' ms
    induction ms with
    | nil => simp
    | cons m ms ih =>
      obtain ⟨name, x⟩ := m
      rw [List.map_cons, Entries.find?_cons, Entries.find?_cons, ih]
      by_cases hname : k' = name
      · subst hname
        rw [if_pos rfl, if_pos rfl]
        split <;> rfl
      · rw [if_neg hname, if_neg hname]
  | _ =>
    show none = ite _ none none
    rw [ite_self]

theorem isTable_mapMember (h : v.IsTable) : (v.mapMember k f).IsTable := by
  cases v with
  | obj ms =>
    refine ⟨rfl, List.pairwise_map.2 ?_⟩
    exact h.ordered
  | _ => cases h.isObject

/-- objects that differ in one member at most, and there agree once it is changed -/
theorem mapMember_congr (hv : v.IsTable) (hw : w.IsTable)
    (h : (v.find? k).map f = (w.find? k).map f) (hrest : ∀ k', k' ≠ k → v.find? k' = w.find? k') :
    v.mapMember k f = w.mapMember k f := by
  refine (isTable_mapMember hv).ext (isTable_mapMember hw) fun k' => ?_
  rw [find?_mapMember, find?_mapMember]
  by_cases hk : k' = k
  · rw [if_pos hk, if_pos hk, hk]
    exact h
  · rw [if_neg hk, if_neg hk]
    exact hrest k' hk

theorem without_congr (hv : v.IsTable) (hw : w.IsTable)
    (hrest : ∀ k', k' ≠ k → v.find? k' = w.find? k') : v.without k = w.without k := by
  refine (isTable_without hv).ext (isTable_without hw) fun k' => ?_
  rw [find?_without, find?_without]
  by_cases hk : k' = k
  · rw [if_pos hk, if_pos hk]
  · rw [if_neg hk, if_neg hk]
    exact hrest k' hk

end Json
end ConnectorControl
