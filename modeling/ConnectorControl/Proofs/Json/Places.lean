import ConnectorControl.Proofs.Json.Covering

/-!
# Places in values

A place is reached by member names and by positions in lists (`Json.part?`).  Dropping nulls is
known by what it leaves at each place: nothing of a member that is `null`, and of every other part
the part without its own nulls (`part?_stripNulls`).  So all other leaves keep their places, and
every list its items in their order.

A merge patch goes into objects only and puts lists as they are.  So it makes of nothing what
dropping nulls does if and only if no list in it has a null member inside
(`listsStripped_iff_merge_empty`), and then it leaves alone what it made
(`listsStripped_iff_merge_stripNulls`).
-/

namespace ConnectorControl
namespace Json

/-! ## places -/

/-- one step into a value -/
inductive Step where
  | member (name : String)
  | item (index : Nat)
deriving DecidableEq

def step? : Json → Step → Option Json
  | v, .member name => v.find? name
  | .arr items, .item index => items[index]?
  | _, .item _ => none

def part? (v : Json) : List Step → Option Json
  | [] => some v
  | s :: place => (v.step? s).bind fun x => x.part? place

def IsLeaf (v : Json) : Prop := ∀ s, v.step? s = none

/-- a member that is `null`, as opposed to an item of a list -/
def IsNullMember (place : List Step) (x : Json) : Prop :=
  x = .null ∧ ∃ start name, place = start ++ [.member name]

variable {v w x p : Json} {s : Step} {place : List Step} {items : List Json}

theorem part?_cons : v.part? (s :: place) = (v.step? s).bind fun x => x.part? place := rfl

theorem part?_cons_of_step? (h : v.step? s = some x) : v.part? (s :: place) = x.part? place := by
  rw [part?_cons, h]
  rfl

theorem isLeaf_of_plain (h : v.isPlain = true) : v.IsLeaf := by
  intro s
  cases v with
  | arr items => cases h
  | obj ms => cases h
  | _ => cases s <;> rfl

theorem canonical_of_step? (hv : v.Canonical) (h : v.step? s = some x) : x.Canonical := by
  cases s with
  | member name => exact canonical_of_find? hv h
  | item index =>
    cases v with
    | arr items => exact itemsCanonical_iff.1 hv x (List.mem_of_getElem? h)
    | _ => cases h

theorem stripped_of_step? (hv : v.Stripped) (h : v.step? s = some x) : x.Stripped := by
  cases s with
  | member name =>
    cases v with
    | obj ms => exact (membersStripped_iff.1 hv _ (Entries.mem_of_find? h)).2
    | _ => cases h
  | item index =>
    cases v with
    | arr items => exact itemsStripped_iff.1 hv x (List.mem_of_getElem? h)
    | _ => cases h

/-! ## what dropping nulls leaves -/

theorem stripped_stripNulls (v : Json) : v.stripNulls.Stripped := by
  induction v using induct with
  | plain v hv =>
    cases v with
    | arr items => cases hv
    | obj ms => cases hv
    | _ => trivial
  | arr items ih =>
    show ItemsStripped (stripItems items)
    rw [stripItems_eq_map]
    refine itemsStripped_iff.2 fun x hx => ?_
    obtain ⟨y, hy, rfl⟩ := List.mem_map.1 hx
    exact ih y hy
  | obj ms ih =>
    refine membersStripped_iff.2 fun m hm => ?_
    obtain ⟨y, hy, hnull, hmy⟩ := mem_of_mem_stripMembers hm
    rw [hmy, isNull_stripNulls]
    exact ⟨hnull, ih _ hy⟩

theorem stripNulls_stripNulls (v : Json) : v.stripNulls.stripNulls = v.stripNulls :=
  stripNulls_of_stripped v.stripped_stripNulls

def Step.left : Step → Json → Option Json
  | .member _, x => if x.isNull then none else some x.stripNulls
  | .item _, x => some x.stripNulls

theorem step?_stripNulls (hv : v.Canonical) (s : Step) :
    v.stripNulls.step? s = (v.step? s).bind s.left := by
  cases s with
  | member name =>
    show v.stripNulls.find? name = _
    rw [find?_stripNulls (ordered_members hv)]
    show _ = (v.find? name).bind _
    cases v.find? name <;> rfl
  | item index =>
    cases v with
    | arr items =>
      show (stripItems items)[index]? = (items[index]?).bind fun x => some x.stripNulls
      rw [stripItems_eq_map, List.getElem?_map]
      cases items[index]? <;> rfl
    | _ => rfl

def leftAt : List Step → Json → Option Json
  | [], x => some x.stripNulls
  | [s], x => s.left x
  | _ :: place, x => leftAt place x

theorem leftAt_cons (hplace : place ≠ []) (s : Step) (x : Json) :
    leftAt (s :: place) x = leftAt place x := by
  cases place with
  | nil => exact absurd rfl hplace
  | cons t place => rfl

/-- a step leaves nothing of a null member only, which leads to nothing else -/
theorem left_eq (s : Step) (x : Json) :
    s.left x = some x.stripNulls ∨ s.left x = none ∧ x = .null := by
  cases s with
  | item index => exact .inl rfl
  | member name =>
    cases x with
    | null => exact .inr ⟨rfl, rfl⟩
    | _ => exact .inl rfl

/-- dropping nulls, place by place -/
theorem part?_stripNulls (hv : v.Canonical) (place : List Step) :
    v.stripNulls.part? place = (v.part? place).bind (leftAt place) := by
  induction place generalizing v with
  | nil => rfl
  | cons s place ih =>
    rw [part?_cons, part?_cons, step?_stripNulls hv]
    cases hx : v.step? s with
    | none => rfl
    | some x =>
      have hx' := canonical_of_step? hv hx
      show (s.left x).bind _ = (x.part? place).bind _
      by_cases hplace : place = []
      · subst hplace
        show (s.left x).bind some = s.left x
        cases s.left x <;> rfl
      · have hleft : leftAt (s :: place) = leftAt place := funext (leftAt_cons hplace s)
        rw [hleft]
        rcases left_eq s x with hkept | ⟨hdropped, rfl⟩
        · rw [hkept]
          exact ih hx'
        · -- nothing is found in what is dropped
          rw [hdropped]
          cases place with
          | nil => exact absurd rfl hplace
          | cons t place =>
            rw [part?_cons, isLeaf_of_plain rfl t]
            rfl

theorem leftAt_of_not_null (h : ¬IsNullMember place x) : leftAt place x = some x.stripNulls := by
  induction place with
  | nil => rfl
  | cons s place ih =>
    by_cases hplace : place = []
    · subst hplace
      show s.left x = _
      cases s with
      | item index => rfl
      | member name =>
        have hx : x ≠ .null := fun hx => h ⟨hx, [], name, rfl⟩
        cases x with
        | null => exact absurd rfl hx
        | _ => rfl
    · rw [leftAt_cons hplace]
      refine ih fun ⟨hx, start, name, hstart⟩ => h ⟨hx, s :: start, name, ?_⟩
      rw [hstart, List.cons_append]

/-- whatever is no null member stays at its place, without its own nulls -/
theorem part?_stripNulls_of_some (hv : v.Canonical) (h : v.part? place = some x)
    (hx : ¬IsNullMember place x) : v.stripNulls.part? place = some x.stripNulls := by
  rw [part?_stripNulls hv, h]
  exact leftAt_of_not_null hx

theorem eq_of_leftAt (h : leftAt place x = some w) : w = x.stripNulls := by
  induction place with
  | nil => exact (Option.some.inj h).symm
  | cons s place ih =>
    by_cases hplace : place = []
    · subst hplace
      have h : s.left x = some w := h
      rcases left_eq s x with hkept | ⟨hdropped, _⟩
      · exact Option.some.inj (h.symm.trans hkept)
      · rw [hdropped] at h
        cases h
    · rw [leftAt_cons hplace] at h
      exact ih h

theorem part?_of_part?_stripNulls (hv : v.Canonical) (h : v.stripNulls.part? place = some w) :
    ∃ x, v.part? place = some x ∧ w = x.stripNulls := by
  rw [part?_stripNulls hv] at h
  obtain ⟨x, hx, hleft⟩ := Option.bind_eq_some_iff.1 h
  exact ⟨x, hx, eq_of_leftAt hleft⟩

theorem stripNulls_of_leaf (h : x.IsLeaf) : x.stripNulls = x := by
  cases x with
  | arr items =>
    cases items with
    | nil => rfl
    | cons y items => cases h (.item 0)
  | obj ms =>
    cases ms with
    | nil => rfl
    | cons m ms =>
      obtain ⟨name, y⟩ := m
      have hname : Entries.find? name ((name, y) :: ms) = none := h (.member name)
      rw [Entries.find?_cons, if_pos rfl] at hname
      cases hname
  | _ => rfl

theorem leaf_stripNulls (hv : v.Canonical) (h : v.part? place = some x) (hleaf : x.IsLeaf)
    (hx : ¬IsNullMember place x) : v.stripNulls.part? place = some x := by
  rw [part?_stripNulls_of_some hv h hx, stripNulls_of_leaf hleaf]

theorem list_stripNulls (hv : v.Canonical) (h : v.part? place = some (.arr items)) :
    v.stripNulls.part? place = some (.arr (items.map stripNulls)) := by
  have hx : ¬IsNullMember place (arr items) := by
    rintro ⟨hnull, _⟩
    cases hnull
  rw [part?_stripNulls_of_some hv h hx]
  show some (arr (stripItems items)) = _
  rw [stripItems_eq_map]

/-! ## lists without nulls -/

/-- no object inside a list has a null member -/
def ListsStripped (v : Json) : Prop :=
  ∀ place items, v.part? place = some (.arr items) → (arr items).Stripped

theorem ListsStripped.step (h : v.ListsStripped) (hx : v.step? s = some x) : x.ListsStripped := by
  intro place items hitems
  refine h (s :: place) items ?_
  rw [part?_cons_of_step? hx]
  exact hitems

theorem listsStripped_of_step (hv : ∀ items, v = .arr items → v.Stripped)
    (h : ∀ s x, v.step? s = some x → x.ListsStripped) : v.ListsStripped := by
  intro place items hitems
  cases place with
  | nil =>
    obtain rfl := Option.some.inj hitems
    exact hv items rfl
  | cons s place =>
    obtain ⟨x, hx, hitems⟩ := Option.bind_eq_some_iff.1 hitems
    exact h s x hx place items hitems

theorem listsStripped_of_stripped (h : v.Stripped) : v.ListsStripped := by
  intro place items hitems
  induction place generalizing v with
  | nil =>
    obtain rfl := Option.some.inj hitems
    exact h
  | cons s place ih =>
    obtain ⟨x, hx, hitems⟩ := Option.bind_eq_some_iff.1 hitems
    exact ih (stripped_of_step? h hx) hitems

theorem listsStripped_obj {ms : List (String × Json)} (h : ∀ m ∈ ms, m.2.ListsStripped) :
    (obj ms).ListsStripped := by
  refine listsStripped_of_step (fun _ he => by cases he) fun s x hx => ?_
  cases s with
  | member name => exact h _ (Entries.mem_of_find? hx)
  | item index => cases hx

theorem listsStripped_of_covers (h : Covers p v) : p.ListsStripped := by
  induction h with
  | leaf ho hs => exact listsStripped_of_stripped hs
  | @table p v hp hv names members ih =>
    cases p with
    | obj ms =>
      refine listsStripped_of_step (fun _ he => by cases he) fun s x hx => ?_
      cases s with
      | member name => exact ih name x hx
      | item index => cases hx
    | _ => cases hp.isObject

/-- a patch whose lists have no nulls covers itself, and whatever has no members -/
theorem covers_of_listsStripped (hc : p.Canonical) (h : p.ListsStripped)
    (hw : w = p ∨ w.members = []) : Covers p w := by
  induction p using induct generalizing w with
  | plain p hp => exact covers_of_plain hp
  | arr items ih => exact .leaf rfl (h [] items rfl)
  | obj ms ih =>
    have ho : Entries.Ordered w.members := by
      rcases hw with rfl | hw
      · exact hc.1
      · rw [hw]
        exact Entries.ordered_nil
    refine .table ⟨rfl, hc.1⟩ ho (fun name hname => ?_) fun name x hx => ?_
    · rcases hw with rfl | hw
      · exact hname
      · unfold find?
        rw [hw]
        rfl
    · have hm : (name, x) ∈ ms := Entries.mem_of_find? hx
      refine ih _ hm (membersCanonical_iff.1 hc.2 _ hm) (h.step (s := .member name) hx) ?_
      rcases hw with rfl | hw
      · rw [hx]
        exact .inl rfl
      · unfold find?
        rw [hw]
        exact .inr rfl

/-! ## merging -/

/-- a patch that merely drops nulls, from whatever it is merged into, has no nulls in its lists -/
theorem listsStripped_of_merge (hc : p.Canonical) (h : w.merge p = p.stripNulls) :
    p.ListsStripped := by
  induction p using induct generalizing w with
  | plain p hp =>
    refine listsStripped_of_step (fun items he => ?_) fun s x hx => ?_
    · rw [he] at hp
      cases hp
    · rw [isLeaf_of_plain hp s] at hx
      cases hx
  | arr items ih =>
    -- a list is put as it is
    rw [merge_of_not_object rfl] at h
    rw [h]
    exact listsStripped_of_stripped (stripped_stripNulls _)
  | obj ms ih =>
    have ht : (obj ms).IsTable := ⟨rfl, hc.1⟩
    refine listsStripped_of_step (fun _ he => by cases he) fun s x hx => ?_
    cases s with
    | item index => cases hx
    | member name =>
      have hx : (obj ms).find? name = some x := hx
      have hm : (name, x) ∈ ms := Entries.mem_of_find? hx
      have hmember : (w.merge (obj ms)).find? name = (obj ms).stripNulls.find? name := by rw [h]
      rw [find?_merge w ht, find?_stripNulls ht.ordered, hx, mergedMember, strippedMember]
        at hmember
      cases hnull : x.isNull with
      | true =>
        refine listsStripped_of_stripped ?_
        cases x with
        | null => trivial
        | _ => cases hnull
      | false =>
        rw [hnull] at hmember
        exact ih _ hm (membersCanonical_iff.1 hc.2 _ hm) (Option.some.inj hmember)

theorem listsStripped_iff_merge_empty (hc : p.Canonical) :
    p.ListsStripped ↔ (obj []).merge p = p.stripNulls :=
  ⟨fun h => merge_of_covers (covers_of_listsStripped hc h (.inr rfl)), listsStripped_of_merge hc⟩

theorem listsStripped_iff_merge_stripNulls (hc : p.Canonical) :
    p.ListsStripped ↔ p.stripNulls.merge p = p.stripNulls :=
  ⟨fun h => merge_of_covers (covers_of_listsStripped hc h (.inl rfl)).stripNulls,
    listsStripped_of_merge hc⟩

end Json
end ConnectorControl
