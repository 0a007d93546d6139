import ConnectorControl.Json.Merge
import ConnectorControl.Json.Nulls

/-!
# Objects by their look-ups

An object with its members in key order is known by what it has under each name
(`IsTable.ext`).  So to say what a merge, the dropping of nulls or a change of one member makes of
an object is to say it for one name at a time:

* `find?_merge`        the member after a merge patch (`mergedMember`);
* `find?_stripNulls`   the member after nulls are dropped;
* `find?_object`, `find?_objectOfSet`   the members of an object that is written out.
-/

namespace ConnectorControl

universe u v

namespace Entries

variable {κ : Type u} {β : Type v} [DecidableEq κ]

theorem find?_filter_ne (es : List (κ × β)) {k k' : κ} (h : k ≠ k') :
    find? k (es.filter fun e => e.1 ≠ k') = find? k es := by
  show find? k (erase k' es) = _
  rw [find?_erase, if_neg h]

theorem find?_of_not_mem {es : List (κ × β)} {k : κ} (h : k ∉ es.map (·.1)) :
    find? k es = none := by
  refine find?_eq_none.2 fun e he hek => h ?_
  rw [← hek]
  exact List.mem_map_of_mem he

theorem find?_of_mem_of_nodup {k : κ} {v : β} {es : List (κ × β)} (h : (es.map (·.1)).Nodup)
    (hm : (k, v) ∈ es) : find? k es = some v := by
  induction es with
  | nil => cases hm
  | cons e es ih =>
    obtain ⟨k', v'⟩ := e
    obtain ⟨hk', hes⟩ := List.nodup_cons.1 h
    rw [find?_cons]
    rcases List.mem_cons.1 hm with he | hm'
    · obtain ⟨rfl, rfl⟩ := Prod.mk.inj he
      exact if_pos rfl
    · have hk : k ≠ k' := by
        rintro rfl
        exact hk' (List.mem_map.2 ⟨_, hm', rfl⟩)
      rw [if_neg hk, ih hes hm']

theorem find?_join_filterMap {γ : Type v} (es : List (κ × Option γ)) (k : κ)
    (h : (es.map (·.1)).Nodup) :
    find? k (es.filterMap fun e => e.2.map (e.1, ·)) = (find? k es).join := by
  induction es with
  | nil => rfl
  | cons e es ih =>
    obtain ⟨k', o⟩ := e
    rw [List.map_cons, List.nodup_cons] at h
    obtain ⟨hk', hes⟩ := h
    cases o with
    | none =>
      rw [List.filterMap_cons_none rfl, ih hes, find?_cons]
      by_cases hk : k = k'
      · subst hk
        rw [if_pos rfl, find?_of_not_mem hk']
        rfl
      · rw [if_neg hk]
    | some o =>
      have hcons : ((k', some o) :: es).filterMap (fun e => e.2.map (e.1, ·)) =
          (k', o) :: es.filterMap fun e => e.2.map (e.1, ·) := rfl
      rw [hcons, find?_cons, find?_cons, ih hes]
      by_cases hk : k = k'
      · rw [if_pos hk, if_pos hk]
        rfl
      · rw [if_neg hk, if_neg hk]

variable [Ord κ] [Std.LawfulEqOrd κ]

theorem find?_foldl_insert (es t : List (κ × β)) (k : κ) :
    find? k (es.foldl (fun t e => insert e.1 e.2 t) t) = (find? k (ofList es)).or (find? k t) := by
  induction es generalizing t with
  | nil => rfl
  | cons e es ih =>
    obtain ⟨k', v⟩ := e
    show find? k (es.foldl (fun t e => insert e.1 e.2 t) (insert k' v t)) =
      (find? k (es.foldl (fun t e => insert e.1 e.2 t) (insert k' v []))).or _
    rw [ih, ih, find?_insert, find?_insert, Option.or_assoc]
    by_cases hk : k = k'
    · rw [if_pos hk, if_pos hk, Option.some_or]
    · rw [if_neg hk, if_neg hk, find?_nil, Option.none_or]

/-- a later entry wins -/
theorem find?_ofList_append (a b : List (κ × β)) (k : κ) :
    find? k (ofList (a ++ b)) = (find? k (ofList b)).or (find? k (ofList a)) := by
  show find? k ((a ++ b).foldl (fun t e => insert e.1 e.2 t) []) = _
  rw [List.foldl_append, find?_foldl_insert]
  rfl

theorem find?_ofList (es : List (κ × β)) (k : κ) (h : (es.map (·.1)).Nodup) :
    find? k (ofList es) = find? k es := by
  induction es with
  | nil => rfl
  | cons e es ih =>
    obtain ⟨k', v⟩ := e
    rw [List.map_cons, List.nodup_cons] at h
    obtain ⟨hk', hes⟩ := h
    show find? k (ofList ([(k', v)] ++ es)) = _
    rw [find?_ofList_append, ih hes, find?_cons]
    show (find? k es).or (if k = k' then some v else none) = _
    by_cases hk : k = k'
    · subst hk
      rw [if_pos rfl, if_pos rfl, find?_of_not_mem hk']
      rfl
    · rw [if_neg hk, if_neg hk, Option.or_none]

theorem find?_ofList_eq_none {es : List (κ × β)} {k : κ} (h : k ∉ es.map (·.1)) :
    find? k (ofList es) = none := by
  induction es with
  | nil => rfl
  | cons e es ih =>
    obtain ⟨k', v⟩ := e
    rw [List.map_cons, List.mem_cons, not_or] at h
    show find? k (ofList ([(k', v)] ++ es)) = none
    rw [find?_ofList_append, ih h.2]
    show (if k = k' then some v else none) = none
    rw [if_neg h.1]

omit [DecidableEq κ] in
theorem Ordered.nodup {es : List (κ × β)} (h : Ordered es) : (es.map (·.1)).Nodup := by
  refine List.pairwise_map.2 (h.imp fun {a b} hab heq => ?_)
  simp [heq] at hab

theorem Ordered.find?_of_mem {k : κ} {v : β} {es : List (κ × β)} (h : Ordered es)
    (hm : (k, v) ∈ es) : find? k es = some v :=
  find?_of_mem_of_nodup h.nodup hm

end Entries

namespace Json

/-! ## induction -/

def isPlain : Json → Bool
  | .arr _ => false
  | .obj _ => false
  | _ => true

/-- to show something of every value it is enough to get it from the items and members -/
theorem induct {motive : Json → Prop} (plain : ∀ v : Json, v.isPlain = true → motive v)
    (arr : ∀ items, (∀ v ∈ items, motive v) → motive (.arr items))
    (obj : ∀ ms : List (String × Json), (∀ m ∈ ms, motive m.2) → motive (.obj ms)) :
    ∀ v, motive v
  | .null => plain _ rfl
  | .bool _ => plain _ rfl
  | .int _ => plain _ rfl
  | .real _ => plain _ rfl
  | .str _ => plain _ rfl
  | .arr items => arr items fun v _ => induct plain arr obj v
  | .obj ms => obj ms fun m _ => induct plain arr obj m.2
termination_by v => sizeOf v
decreasing_by
  · have := List.sizeOf_lt_of_mem ‹v ∈ items›
    simp only [Json.arr.sizeOf_spec]
    omega
  · have := List.sizeOf_lt_of_mem ‹m ∈ ms›
    obtain ⟨k, v⟩ := m
    simp only [Json.obj.sizeOf_spec, Prod.mk.sizeOf_spec] at this ⊢
    omega

/-! ## tables -/

def find? (v : Json) (k : String) : Option Json := Entries.find? k v.members

theorem get_eq (v : Json) (k : String) : v.get k = (v.find? k).getD .null := rfl

structure IsTable (v : Json) : Prop where
  isObject : v.isObject = true
  ordered : Entries.Ordered v.members

theorem IsTable.ext {v w : Json} (hv : v.IsTable) (hw : w.IsTable)
    (h : ∀ k, v.find? k = w.find? k) : v = w := by
  cases v with
  | obj ms =>
    cases w with
    | obj ns => exact congrArg Json.obj (hv.ordered.ext hw.ordered h)
    | _ => cases hw.isObject
  | _ => cases hv.isObject

theorem isTable_object (ms : List (String × Json)) : (object ms).IsTable :=
  ⟨rfl, Entries.ordered_ofList ms⟩

theorem isTable_objectOfSet (ms : List (String × Option Json)) : (objectOfSet ms).IsTable :=
  isTable_object _

theorem isTable_ofStringTable (t : Table String String) : (ofStringTable t).IsTable :=
  ⟨rfl, t.ordered.mapValues Json.str⟩

theorem ordered_members {v : Json} (h : v.Canonical) : Entries.Ordered v.members := by
  cases v with
  | obj ms => exact h.1
  | _ => exact Entries.ordered_nil

theorem find?_object {ms : List (String × Json)} (h : (ms.map (·.1)).Nodup) (k : String) :
    (object ms).find? k = Entries.find? k ms :=
  Entries.find?_ofList ms k h

theorem find?_objectOfSet {ms : List (String × Option Json)} (h : (ms.map (·.1)).Nodup)
    (k : String) : (objectOfSet ms).find? k = (Entries.find? k ms).join := by
  have hn : ((ms.filterMap fun m => m.2.map (m.1, ·)).map (·.1)).Nodup := by
    refine h.sublist ?_
    have hm : (ms.filterMap fun m => m.2.map (m.1, ·)).map (·.1) =
        (ms.filter fun m => m.2.isSome).map (·.1) := by
      induction ms with
      | nil => rfl
      | cons m ms ih =>
        obtain ⟨k, o⟩ := m
        have ih := ih (List.nodup_cons.1 h).2
        cases o <;> simpa using ih
    rw [hm]
    exact List.filter_sublist.map _
  show (object _).find? k = _
  rw [find?_object hn, Entries.find?_join_filterMap ms k h]

theorem get_object {ms : List (String × Json)} (h : (ms.map (·.1)).Nodup) (k : String) :
    (object ms).get k = (Entries.find? k ms).getD .null := by
  rw [get_eq, find?_object h]

theorem get_objectOfSet {ms : List (String × Option Json)} (h : (ms.map (·.1)).Nodup)
    (k : String) : (objectOfSet ms).get k = (Entries.find? k ms).join.getD .null := by
  rw [get_eq, find?_objectOfSet h]

theorem find?_ofStringTable (t : Table String String) (k : String) :
    (ofStringTable t).find? k = (t.find? k).map .str :=
  Entries.find?_mapValues Json.str k t.entries

/-! ## merge patches -/

theorem members_merge_obj (v : Json) (patch : List (String × Json)) :
    (v.merge (.obj patch)).members = mergeMembers v.members patch := by
  rw [merge_obj]
  rfl

theorem find?_merge (v : Json) {p : Json} (hp : p.IsTable) (k : String) :
    (v.merge p).find? k = mergedMember (v.find? k) (p.find? k) := by
  cases p with
  | obj patch =>
    show Entries.find? k (v.merge (.obj patch)).members = _
    rw [members_merge_obj]
    exact find?_mergeMembers v.members hp.ordered k
  | _ => cases hp.isObject

theorem isTable_merge {v p : Json} (hv : Entries.Ordered v.members) (hp : p.IsTable) :
    (v.merge p).IsTable := by
  cases p with
  | obj patch =>
    refine ⟨by rw [merge_obj]; rfl, ?_⟩
    rw [members_merge_obj]
    exact ordered_mergeMembers hv patch
  | _ => cases hp.isObject

/-! ## dropping nulls -/

theorem mem_of_mem_stripMembers {ms : List (String × Json)} {m : String × Json}
    (h : m ∈ stripMembers ms) : ∃ v, (m.1, v) ∈ ms ∧ v.isNull = false ∧ m.2 = v.stripNulls := by
  induction ms with
  | nil => cases h
  | cons e ms ih =>
    obtain ⟨k, v⟩ := e
    rw [stripMembers] at h
    split at h
    · obtain ⟨w, hw, hn⟩ := ih h
      exact ⟨w, List.mem_cons_of_mem _ hw, hn⟩
    next hn =>
      rcases List.mem_cons.1 h with rfl | h
      · exact ⟨v, List.mem_cons_self, by simpa using hn, rfl⟩
      · obtain ⟨w, hw, hn⟩ := ih h
        exact ⟨w, List.mem_cons_of_mem _ hw, hn⟩

theorem ordered_stripMembers {ms : List (String × Json)} (h : Entries.Ordered ms) :
    Entries.Ordered (stripMembers ms) := by
  induction ms with
  | nil => exact Entries.ordered_nil
  | cons e ms ih =>
    obtain ⟨k, v⟩ := e
    obtain ⟨h₁, h₂⟩ := Entries.ordered_cons.1 h
    rw [stripMembers]
    split
    · exact ih h₂
    · refine Entries.ordered_cons.2 ⟨fun e he => ?_, ih h₂⟩
      obtain ⟨w, hw, _⟩ := mem_of_mem_stripMembers he
      exact h₁ (e.1, w) hw

def strippedMember : Option Json → Option Json
  | none => none
  | some v => if v.isNull then none else some v.stripNulls

theorem getD_strippedMember (v : Json) : (strippedMember (some v)).getD .null = v.stripNulls := by
  cases v <;> rfl

theorem find?_stripMembers {ms : List (String × Json)} (h : Entries.Ordered ms) (k : String) :
    Entries.find? k (stripMembers ms) = strippedMember (Entries.find? k ms) := by
  induction ms with
  | nil => rfl
  | cons e ms ih =>
    obtain ⟨k', v⟩ := e
    have ih := ih (Entries.ordered_cons.1 h).2
    rw [stripMembers, Entries.find?_cons]
    by_cases hk : k = k'
    · subst hk
      rw [if_pos rfl]
      split
      next hn =>
        rw [ih, h.find?_head]
        simp [strippedMember, hn]
      next hn =>
        rw [Entries.find?_cons, if_pos rfl]
        simp [strippedMember, hn]
    · rw [if_neg hk, ← ih]
      split
      · rfl
      · rw [Entries.find?_cons, if_neg hk]

theorem find?_stripNulls {v : Json} (h : Entries.Ordered v.members) (k : String) :
    v.stripNulls.find? k = strippedMember (v.find? k) := by
  cases v with
  | obj ms => exact find?_stripMembers h k
  | _ => rfl

theorem isTable_stripNulls {v : Json} (h : v.IsTable) : v.stripNulls.IsTable := by
  cases v with
  | obj ms => exact ⟨rfl, ordered_stripMembers h.ordered⟩
  | _ => cases h.isObject

end Json
end ConnectorControl
