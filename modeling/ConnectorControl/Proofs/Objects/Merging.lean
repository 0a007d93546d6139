import Mathlib.Tactic.MkIffOfInductiveProp
import ConnectorControl.Proofs.Json.Stripped
import ConnectorControl.Proofs.Objects.Reading

/-!
# Objects merged over objects

Whatever object is merged over whatever object, if both can be read, so can what comes of it
(`Object.succeeds_merge`).  Of the members that are looked at, a merge takes each from one of the
two, but for tables of texts, which it joins.
-/

namespace ConnectorControl

open Decode

/-! ## tables of texts -/

def Json.Texts (v : Json) : Prop := ∀ k x, v.find? k = some x → ∃ s, x = .str s

theorem Decode.succeeds_string {v : Json} : Succeeds (string v) ↔ ∃ s, v = .str s := by
  cases v with
  | str s => exact iff_of_true ⟨s, rfl⟩ ⟨s, rfl⟩
  | _ => exact iff_of_false nofun nofun

theorem Decode.succeeds_table {v : Json} (h : v.IsTable) : Succeeds (table string v) ↔ v.Texts := by
  cases v with
  | obj ms =>
    show Succeeds (Table.ofList <$> ms.mapM fun m => (m.1, ·) <$> string m.2) ↔ _
    rw [succeeds_map, succeeds_mapM]
    simp only [succeeds_map, succeeds_string]
    constructor
    · intro hms k x hx
      exact hms (k, x) (Entries.mem_of_find? hx)
    · intro htexts m hm
      exact htexts m.1 m.2 (h.ordered.find?_of_mem hm)
  | _ => cases h.isObject

/-- what may be a table of texts has nothing but texts as its members -/
theorem Decode.texts_of_option {v : Json} (hv : v.Canonical)
    (h : Succeeds (option (table string) v)) : v.Texts := by
  cases v with
  | obj ms =>
    have htable : (Json.obj ms).IsTable := ⟨rfl, Json.ordered_members hv⟩
    exact (succeeds_table htable).1 (succeeds_map.1 h)
  | _ => nofun

theorem Json.Texts.merge {v p : Json} (h : v.Texts) (hp : p.IsTable) (h' : p.Texts) :
    (v.merge p).Texts := by
  intro k x hx
  rw [find?_merge v hp] at hx
  cases hk : p.find? k with
  | none =>
    rw [hk] at hx
    exact h k x hx
  | some y =>
    obtain ⟨s, rfl⟩ := h' k y hk
    rw [hk] at hx
    exact ⟨s, (Option.some.inj hx).symm⟩

/-! ## members -/

namespace Decode

variable {α : Type} {value : Decoder α} {v p : Json} {k : String}

/-- what reads, merged over what reads, reads again, where `null` is nothing to read -/
def Merges (value : Decoder α) : Prop :=
  ∀ v p : Json, v.Canonical → p.Canonical → Succeeds (option value v) →
    Succeeds (option value p) → Succeeds (option value (v.merge p))

theorem merges_of_plain (h : ∀ v, Succeeds (value v) → v.isObject = false) : Merges value := by
  intro v p _ _ _ hp
  have hplain : p.isObject = false := by
    cases p with
    | obj ms => exact h _ (succeeds_map.1 hp)
    | _ => rfl
  rw [Json.merge_of_not_object hplain]
  exact hp

theorem merges_table : Merges (table string) := by
  intro v p hv hp h h'
  cases p with
  | obj ms =>
    have htable : (Json.obj ms).IsTable := ⟨rfl, Json.ordered_members hp⟩
    have htexts := (texts_of_option hv h).merge htable (texts_of_option hp h')
    have hread := (succeeds_table (Json.isTable_merge (Json.ordered_members hv) htable)).2 htexts
    rw [Json.merge_obj] at hread ⊢
    exact succeeds_map.2 hread
  | _ => exact h'

theorem merges_string : Merges string := merges_of_plain fun v h => by
  obtain ⟨s, rfl⟩ := succeeds_string.1 h
  rfl

theorem merges_int64 : Merges int64 := merges_of_plain fun v h => by
  cases v with
  | obj ms => exact absurd h nofun
  | _ => rfl

theorem merges_instant : Merges instant := merges_of_plain fun v h => by
  cases v with
  | obj ms => exact absurd h nofun
  | _ => rfl

theorem merges_list {item : Decoder α} : Merges (list item) := merges_of_plain fun v h => by
  cases v with
  | obj ms => exact absurd h nofun
  | _ => rfl

theorem Merges.optional (hm : Merges value) (hv : v.Canonical) (hp : p.Canonical)
    (hobject : p.isObject = true) (h : Succeeds (optional v.members k value))
    (h' : Succeeds (optional p.members k value)) :
    Succeeds (optional (v.merge p).members k value) := by
  have hpt : p.IsTable := ⟨hobject, Json.ordered_members hp⟩
  have hvo := Json.ordered_members hv
  rw [succeeds_optional hvo] at h
  rw [succeeds_optional hpt.ordered] at h'
  refine (succeeds_optional (Json.isTable_merge hvo hpt).ordered).2 fun x hx => ?_
  have hx : Json.mergedMember (v.find? k) (p.find? k) = some x := (Json.find?_merge v hpt k) ▸ hx
  cases hk : p.find? k with
  | none =>
    rw [hk] at hx
    exact h x hx
  | some y =>
    rw [hk] at hx
    change (if y.isNull then none else some (Json.merge _ y)) = some x at hx
    split at hx
    · cases hx
    · obtain rfl := Option.some.inj hx
      refine hm _ y (Json.canonical_getD hv k) (Json.canonical_of_find? hp hk) ?_ (h' y hk)
      cases hold : v.find? k with
      | none => exact ⟨none, rfl⟩
      | some z => exact h z hold

end Decode

/-! ## metadata -/

namespace Metadata

variable {ms : List (String × Json)} {v p : Json}

@[mk_iff]
structure MembersRead (ms : List (String × Json)) : Prop where
  annotations : Succeeds (optional ms "annotations" (table string))
  creationTimestamp : Succeeds (optional ms "creationTimestamp" instant)
  deletionGracePeriodSeconds : Succeeds (optional ms "deletionGracePeriodSeconds" int64)
  deletionTimestamp : Succeeds (optional ms "deletionTimestamp" instant)
  finalizers : Succeeds (optional ms "finalizers" (list string))
  generateName : Succeeds (optional ms "generateName" string)
  generation : Succeeds (optional ms "generation" int64)
  labels : Succeeds (optional ms "labels" (table string))
  managedFields : Succeeds (optional ms "managedFields" (list ManagedMembers.decode))
  name : Succeeds (optional ms "name" string)
  ns : Succeeds (optional ms "namespace" string)
  ownerReferences : Succeeds (optional ms "ownerReferences" (list OwnerReference.decode))
  resourceVersion : Succeeds (optional ms "resourceVersion" string)
  selfLink : Succeeds (optional ms "selfLink" string)
  uid : Succeeds (optional ms "uid" string)

theorem succeeds_decode : Succeeds (decode (.obj ms)) ↔ MembersRead ms := by
  rw [membersRead_iff]
  refine succeeds_bind fun _ => succeeds_bind fun _ => succeeds_bind fun _ => ?_
  refine succeeds_bind fun _ => succeeds_bind fun _ => succeeds_bind fun _ => ?_
  refine succeeds_bind fun _ => succeeds_bind fun _ => succeeds_bind fun _ => ?_
  refine succeeds_bind fun _ => succeeds_bind fun _ => succeeds_bind fun _ => ?_
  exact succeeds_bind fun _ => succeeds_bind fun _ => succeeds_bind_pure

theorem exists_of_succeeds_decode (h : Succeeds (decode v)) : ∃ ms, v = .obj ms := by
  obtain ⟨m, hm⟩ := h
  obtain ⟨ms, hms, _⟩ := bind_eq_ok hm
  cases v with
  | obj ms => exact ⟨ms, rfl⟩
  | _ => cases hms

theorem membersRead_nil : MembersRead [] := succeeds_decode.1 ⟨default, rfl⟩

theorem MembersRead.merge (hv : v.Canonical) (hp : p.Canonical) (hobject : p.isObject = true)
    (h : MembersRead v.members) (h' : MembersRead p.members) :
    MembersRead (v.merge p).members where
  annotations := merges_table.optional hv hp hobject h.annotations h'.annotations
  creationTimestamp :=
    merges_instant.optional hv hp hobject h.creationTimestamp h'.creationTimestamp
  deletionGracePeriodSeconds := merges_int64.optional hv hp hobject h.deletionGracePeriodSeconds
    h'.deletionGracePeriodSeconds
  deletionTimestamp :=
    merges_instant.optional hv hp hobject h.deletionTimestamp h'.deletionTimestamp
  finalizers := merges_list.optional hv hp hobject h.finalizers h'.finalizers
  generateName := merges_string.optional hv hp hobject h.generateName h'.generateName
  generation := merges_int64.optional hv hp hobject h.generation h'.generation
  labels := merges_table.optional hv hp hobject h.labels h'.labels
  managedFields := merges_list.optional hv hp hobject h.managedFields h'.managedFields
  name := merges_string.optional hv hp hobject h.name h'.name
  ns := merges_string.optional hv hp hobject h.ns h'.ns
  ownerReferences := merges_list.optional hv hp hobject h.ownerReferences h'.ownerReferences
  resourceVersion := merges_string.optional hv hp hobject h.resourceVersion h'.resourceVersion
  selfLink := merges_string.optional hv hp hobject h.selfLink h'.selfLink
  uid := merges_string.optional hv hp hobject h.uid h'.uid

theorem succeeds_merge (hv : v.Canonical) (hp : p.Canonical) (h : MembersRead v.members)
    (h' : Succeeds (decode p)) : Succeeds (decode (v.merge p)) := by
  obtain ⟨ms, rfl⟩ := exists_of_succeeds_decode h'
  have hmerged := MembersRead.merge hv hp rfl h (succeeds_decode.1 h')
  rw [Json.merge_obj] at hmerged ⊢
  exact succeeds_decode.2 hmerged

end Metadata

/-! ## objects -/

namespace Object

variable {v p : Json}

theorem succeeds_decode {ms : List (String × Json)} (h : Entries.Ordered ms) :
    Succeeds (decode (.obj ms)) ↔
      ∀ v, Entries.find? "metadata" ms = some v → Succeeds (Metadata.decode v) := by
  have hread : Succeeds (decode (.obj ms)) ↔ Succeeds (single? ms "metadata" Metadata.decode) :=
    succeeds_bind_pure
  rw [hread, single?_eq h]
  cases Entries.find? "metadata" ms with
  | none => exact iff_of_true ⟨none, rfl⟩ nofun
  | some v => simp [ofMember, succeeds_map]

/-- an object that reads is a table with metadata that reads, if it has metadata -/
theorem metadata_of_succeeds (hv : v.Canonical) (h : Succeeds (decode v)) :
    v.IsTable ∧ ∀ m, v.find? "metadata" = some m → Succeeds (Metadata.decode m) := by
  obtain ⟨o, ho⟩ := h
  obtain ⟨ms, _, rfl, _⟩ := decode_eq_ok ho
  exact ⟨⟨rfl, hv.1⟩, (succeeds_decode hv.1).1 ⟨o, ho⟩⟩

theorem succeeds_of_metadata (hv : v.IsTable)
    (h : ∀ m, v.find? "metadata" = some m → Succeeds (Metadata.decode m)) :
    Succeeds (decode v) := by
  cases v with
  | obj ms => exact (succeeds_decode hv.ordered).2 h
  | _ => cases hv.isObject

theorem succeeds_merge (hv : v.Canonical) (hp : p.Canonical) (h : Succeeds (decode v))
    (h' : Succeeds (decode p)) : Succeeds (decode (v.merge p)) := by
  obtain ⟨hvt, hold⟩ := metadata_of_succeeds hv h
  obtain ⟨hpt, hnew⟩ := metadata_of_succeeds hp h'
  refine succeeds_of_metadata (Json.isTable_merge hvt.ordered hpt) fun x hx => ?_
  rw [Json.find?_merge v hpt] at hx
  cases hk : p.find? "metadata" with
  | none =>
    rw [hk] at hx
    exact hold x hx
  | some y =>
    obtain ⟨ms, rfl⟩ := Metadata.exists_of_succeeds_decode (hnew y hk)
    rw [hk] at hx
    obtain rfl := Option.some.inj hx
    refine Metadata.succeeds_merge (Json.canonical_getD hv "metadata")
      (Json.canonical_of_find? hp hk) ?_ (hnew _ hk)
    cases hm : v.find? "metadata" with
    | none => exact Metadata.membersRead_nil
    | some z =>
      obtain ⟨ms', rfl⟩ := Metadata.exists_of_succeeds_decode (hold z hm)
      exact Metadata.succeeds_decode.1 (hold _ hm)

/-- an object that can be written and read again -/
structure Reads (o : Object) : Prop where
  canonical : o.toJson.Canonical
  /-- metadata is kept apart from the other members -/
  apart : o.body.find? "metadata" = none
  succeeds : Succeeds (decode o.toJson)

end Object
end ConnectorControl
