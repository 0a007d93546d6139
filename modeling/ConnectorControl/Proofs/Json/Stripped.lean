import ConnectorControl.Proofs.Json.Lookup

/-!
# Values without nulls, and patches made twice

A value is stripped when no object in it, inside its lists too, has a `null` member; dropping nulls
leaves such a value alone (`stripNulls_of_stripped`).

* `merge_merge`     a patch made twice is a patch made once;
* `merge_self`      a stripped value is its own patch;
* `merge_eq_of_forall`   a merge, member by member.
-/

namespace ConnectorControl
namespace Json

/-! ## stripped values -/

mutual

/-- no object in the value has a null member -/
def Stripped : Json → Prop
  | .arr items => ItemsStripped items
  | .obj members => MembersStripped members
  | _ => True

def ItemsStripped : List Json → Prop
  | [] => True
  | v :: rest => v.Stripped ∧ ItemsStripped rest

def MembersStripped : List (String × Json) → Prop
  | [] => True
  | (_, v) :: rest => v.isNull = false ∧ v.Stripped ∧ MembersStripped rest

end

theorem itemsStripped_iff {items : List Json} : ItemsStripped items ↔ ∀ v ∈ items, v.Stripped := by
  induction items with
  | nil => simp [ItemsStripped]
  | cons v rest ih => simp [ItemsStripped, ih]

theorem membersStripped_iff {ms : List (String × Json)} :
    MembersStripped ms ↔ ∀ m ∈ ms, m.2.isNull = false ∧ m.2.Stripped := by
  induction ms with
  | nil => simp [MembersStripped]
  | cons m rest ih =>
    obtain ⟨k, v⟩ := m
    simp [MembersStripped, ih, and_assoc]

theorem stripMembers_eq_self {ms : List (String × Json)}
    (h : ∀ m ∈ ms, m.2.isNull = false ∧ m.2.stripNulls = m.2) : stripMembers ms = ms := by
  induction ms with
  | nil => rfl
  | cons m ms ih =>
    obtain ⟨hn, hs⟩ := h m List.mem_cons_self
    rw [stripMembers, if_neg (by rw [hn]; exact Bool.false_ne_true), hs,
      ih fun m hm => h m (List.mem_cons_of_mem _ hm)]

theorem stripNulls_of_stripped {v : Json} (h : v.Stripped) : v.stripNulls = v := by
  induction v using induct with
  | plain v hv =>
    cases v with
    | arr items => cases hv
    | obj ms => cases hv
    | _ => rfl
  | arr items ih =>
    have h := itemsStripped_iff.1 h
    rw [stripNulls, stripItems_eq_map]
    congr 1
    conv => rhs; rw [← List.map_id items]
    exact List.map_congr_left fun v hv => ih v hv (h v hv)
  | obj ms ih =>
    have h := membersStripped_iff.1 h
    rw [stripNulls, stripMembers_eq_self fun m hm => ⟨(h m hm).1, ih m hm (h m hm).2⟩]

theorem stripped_object {ms : List (String × Json)}
    (h : ∀ m ∈ ms, m.2.isNull = false ∧ m.2.Stripped) : (object ms).Stripped := by
  refine membersStripped_iff.2 ?_
  suffices ∀ t : List (String × Json), (∀ m ∈ t, m.2.isNull = false ∧ m.2.Stripped) →
      ∀ m ∈ ms.foldl (fun t e => Entries.insert e.1 e.2 t) t, m.2.isNull = false ∧ m.2.Stripped from
    this [] (by simp)
  induction ms with
  | nil => exact fun t ht => ht
  | cons e ms ih =>
    intro t ht
    refine ih (fun m hm => h m (List.mem_cons_of_mem _ hm)) _ fun m hm => ?_
    rcases Entries.mem_insert hm with rfl | hm
    · exact h e List.mem_cons_self
    · exact ht m hm

theorem stripped_ofStringTable (t : Table String String) : (ofStringTable t).Stripped := by
  refine membersStripped_iff.2 fun m hm => ?_
  obtain ⟨e, _, rfl⟩ := List.mem_map.1 hm
  exact ⟨rfl, trivial⟩

/-! ## canonical values -/

theorem canonical_of_find? {v w : Json} {k : String} (hv : v.Canonical) (h : v.find? k = some w) :
    w.Canonical := by
  cases v with
  | obj ms => exact membersCanonical_iff.1 hv.2 _ (Entries.mem_of_find? h)
  | _ => cases h

theorem canonical_getD {v : Json} (hv : v.Canonical) (k : String) :
    ((v.find? k).getD .null).Canonical := by
  cases h : v.find? k with
  | none => trivial
  | some w => exact canonical_of_find? hv h

/-! ## merge patches -/

/-- a merge into a value whose members are in order, member by member -/
theorem merge_eq_of_forall {v p w : Json} (hv : Entries.Ordered v.members) (hp : p.IsTable)
    (hw : w.IsTable) (h : ∀ k, mergedMember (v.find? k) (p.find? k) = w.find? k) :
    v.merge p = w :=
  (isTable_merge hv hp).ext hw fun k => by rw [find?_merge v hp, h k]

theorem canonical_merge {v p : Json} (hv : v.Canonical) (hp : p.Canonical) :
    (v.merge p).Canonical := by
  induction p using induct generalizing v with
  | plain p h =>
    have ho : p.isObject = false := by cases p <;> first | rfl | cases h
    rw [merge_of_not_object ho]
    exact hp
  | arr items ih =>
    rw [merge_of_not_object rfl]
    exact hp
  | obj patch ih =>
    have hpt : (obj patch).IsTable := ⟨rfl, hp.1⟩
    have ht := isTable_merge (ordered_members hv) hpt
    rw [merge_obj] at ht ⊢
    have ho : Entries.Ordered (mergeMembers v.members patch) := ht.ordered
    refine ⟨ho, membersCanonical_iff.2 fun m hm => ?_⟩
    have hk := find?_mergeMembers v.members hp.1 m.1
    rw [ho.find?_of_mem hm] at hk
    cases hx : Entries.find? m.1 patch with
    | none =>
      rw [hx] at hk
      exact canonical_of_find? hv hk.symm
    | some x =>
      rw [hx] at hk
      have hmem := Entries.mem_of_find? hx
      by_cases hn : x.isNull = true
      · simp [mergedMember, hn] at hk
      · have hm : m.2 = Json.merge ((Entries.find? m.1 v.members).getD .null) x := by
          simpa [mergedMember, hn] using hk
        rw [hm]
        exact ih _ hmem (canonical_getD hv _) (membersCanonical_iff.1 hp.2 _ hmem)

theorem canonical_stripNulls {v : Json} (hv : v.Canonical) : v.stripNulls.Canonical := by
  induction v using induct with
  | plain v h => cases v <;> trivial
  | arr items ih =>
    show ItemsCanonical (stripItems items)
    rw [stripItems_eq_map]
    refine itemsCanonical_iff.2 fun w hw => ?_
    obtain ⟨x, hx, rfl⟩ := List.mem_map.1 hw
    exact ih x hx (itemsCanonical_iff.1 hv x hx)
  | obj ms ih =>
    refine ⟨ordered_stripMembers hv.1, membersCanonical_iff.2 fun m hm => ?_⟩
    obtain ⟨x, hx, _, hmx⟩ := mem_of_mem_stripMembers hm
    rw [hmx]
    exact ih _ hx (membersCanonical_iff.1 hv.2 _ hx)

/-- a patch made twice is a patch made once -/
theorem merge_merge {v p : Json} (hv : v.Canonical) (hp : p.Canonical) :
    (v.merge p).merge p = v.merge p := by
  induction p using induct generalizing v with
  | plain p h =>
    have ho : p.isObject = false := by cases p <;> first | rfl | cases h
    rw [merge_of_not_object ho, merge_of_not_object ho]
  | arr items ih =>
    rw [merge_of_not_object rfl, merge_of_not_object rfl]
  | obj patch ih =>
    have hpt : (obj patch).IsTable := ⟨rfl, hp.1⟩
    have ht := isTable_merge (ordered_members hv) hpt
    refine merge_eq_of_forall ht.ordered hpt ht fun k => ?_
    rw [find?_merge v hpt k]
    cases hk : (obj patch).find? k with
    | none => rfl
    | some x =>
      by_cases hx : x.isNull
      · simp [mergedMember, hx]
      · have hm : (k, x) ∈ patch := Entries.mem_of_find? hk
        have := ih (k, x) hm (canonical_getD hv k) (membersCanonical_iff.1 hp.2 _ hm)
        simp only [mergedMember, hx, Bool.false_eq_true, if_false, Option.getD_some]
        rw [this]

/-- a stripped value is its own patch -/
theorem merge_self {v : Json} (hc : v.Canonical) (hs : v.Stripped) : v.merge v = v := by
  induction v using induct with
  | plain v h =>
    have ho : v.isObject = false := by cases v <;> first | rfl | cases h
    exact merge_of_not_object ho v
  | arr items ih => exact merge_of_not_object rfl _
  | obj ms ih =>
    have ht : (obj ms).IsTable := ⟨rfl, hc.1⟩
    refine merge_eq_of_forall ht.ordered ht ht fun k => ?_
    cases hk : (obj ms).find? k with
    | none => rfl
    | some x =>
      have hm : (k, x) ∈ ms := Entries.mem_of_find? hk
      obtain ⟨hn, hx⟩ := membersStripped_iff.1 hs _ hm
      have := ih (k, x) hm (membersCanonical_iff.1 hc.2 _ hm) hx
      simp only [mergedMember, hn, Bool.false_eq_true, if_false, Option.getD_some]
      rw [this]

/-! ## clean values -/

/-- a value as the writers of typed values make it: in key order and without nulls -/
structure Clean (v : Json) : Prop where
  canonical : v.Canonical
  stripped : v.Stripped
  isNull : v.isNull = false

theorem clean_str (s : String) : (str s).Clean := ⟨trivial, trivial, rfl⟩

theorem clean_int (n : Int) : (int n).Clean := ⟨trivial, trivial, rfl⟩

theorem clean_bool (b : Bool) : (bool b).Clean := ⟨trivial, trivial, rfl⟩

theorem clean_arr {items : List Json} (h : ∀ v ∈ items, v.Clean) : (arr items).Clean :=
  ⟨itemsCanonical_iff.2 fun v hv => (h v hv).canonical,
    itemsStripped_iff.2 fun v hv => (h v hv).stripped, rfl⟩

theorem clean_list {α : Type} {f : α → Json} (h : ∀ a, (f a).Clean) (as : List α) :
    (arr (as.map f)).Clean := by
  refine clean_arr fun v hv => ?_
  obtain ⟨a, _, rfl⟩ := List.mem_map.1 hv
  exact h a

theorem clean_ofStrings (ss : List String) : (ofStrings ss).Clean := clean_list clean_str ss

theorem clean_object {ms : List (String × Json)} (h : ∀ m ∈ ms, m.2.Clean) : (object ms).Clean :=
  ⟨canonical_object fun m hm => (h m hm).canonical,
    stripped_object fun m hm => ⟨(h m hm).isNull, (h m hm).stripped⟩, rfl⟩

theorem clean_objectOfSet {ms : List (String × Option Json)}
    (h : ∀ m ∈ ms, ∀ v, m.2 = some v → v.Clean) : (objectOfSet ms).Clean := by
  refine clean_object fun m hm => ?_
  obtain ⟨e, he, hem⟩ := List.mem_filterMap.1 hm
  obtain ⟨v, hv, rfl⟩ := Option.map_eq_some_iff.1 hem
  exact h e he v hv

theorem clean_of_map {α : Type} {f : α → Json} (h : ∀ a, (f a).Clean) (x : Option α) :
    ∀ v, x.map f = some v → v.Clean := by
  intro v hv
  obtain ⟨a, _, rfl⟩ := Option.map_eq_some_iff.1 hv
  exact h a

theorem clean_of_some {w : Json} (h : w.Clean) : ∀ v, some w = some v → v.Clean := by
  intro v hv
  rw [← Option.some.inj hv]
  exact h

theorem clean_ofStringTable (t : Table String String) : (ofStringTable t).Clean := by
  refine ⟨⟨t.ordered.mapValues Json.str, membersCanonical_iff.2 fun m hm => ?_⟩,
    stripped_ofStringTable t, rfl⟩
  obtain ⟨e, _, rfl⟩ := List.mem_map.1 hm
  trivial

end Json
end ConnectorControl
