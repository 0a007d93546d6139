import ConnectorControl.Objects.Object
import ConnectorControl.Proofs.Json.Decoding

/-!
# Objects as they are read

What an object has under a name can be read off its JSON (`find?_toJson`), and reading keeps it:

* `Metadata.decode_toJson`   metadata without times is read back as it was written;
* `takeTypes_find?`          taking the type out of an object leaves its other members alone;
* `Object.decode_eq_ok`      what it takes to read an object, and what is read;
* `Object.metadata_of_merge_status`   a status that is merged in does not show in the metadata.
-/

namespace ConnectorControl

open Decode

/-! ## metadata -/

theorem Decode.textOrEmpty_of_find? {ms : List (String × Json)} (h : Entries.Ordered ms)
    {k s : String} (hk : Entries.find? k ms = some (.str s)) : textOrEmpty ms k = .ok s := by
  unfold textOrEmpty
  rw [optional_string_of_find? h hk]
  rfl

theorem OwnerReference.decode_toJson (o : OwnerReference) : decode o.toJson = .ok o := by
  have hf := fun k => @Json.find?_objectOfSet [
    ("apiVersion", some (.str o.apiVersion)),
    ("kind", some (.str o.kind)),
    ("name", some (.str o.name)),
    ("uid", some (.str o.uid)),
    ("controller", o.controller.map Json.bool),
    ("blockOwnerDeletion", o.blockOwnerDeletion.map Json.bool)] (by simp) k
  have ho : Entries.Ordered o.toJson.members := (Json.isTable_objectOfSet _).ordered
  show (do
    let apiVersion ← textOrEmpty o.toJson.members "apiVersion"
    let blockOwnerDeletion ← optional o.toJson.members "blockOwnerDeletion" bool
    let controller ← optional o.toJson.members "controller" bool
    let kind ← textOrEmpty o.toJson.members "kind"
    let name ← textOrEmpty o.toJson.members "name"
    let uid ← textOrEmpty o.toJson.members "uid"
    return (⟨apiVersion, kind, name, uid, controller, blockOwnerDeletion⟩ : OwnerReference)) = _
  rw [textOrEmpty_of_find? ho (hf "apiVersion"), textOrEmpty_of_find? ho (hf "kind"),
    textOrEmpty_of_find? ho (hf "name"), textOrEmpty_of_find? ho (hf "uid"),
    optional_of_map ho (hf "blockOwnerDeletion") fun _ _ => ⟨rfl, rfl⟩,
    optional_of_map ho (hf "controller") fun _ _ => ⟨rfl, rfl⟩]
  rfl

namespace Metadata

theorem isTable_toJson {m : Metadata} : m.toJson.IsTable := Json.isTable_objectOfSet _

theorem find?_toJson (m : Metadata) (k : String) : m.toJson.find? k = (Entries.find? k [
    ("name", m.name.map Json.str),
    ("generateName", m.generateName.map .str),
    ("namespace", m.ns.map .str),
    ("uid", m.uid.map .str),
    ("resourceVersion", m.resourceVersion.map .str),
    ("generation", m.generation.map fun n => .int n.toInt),
    ("labels", m.labels.map .ofStringTable),
    ("annotations", m.annotations.map .ofStringTable),
    ("finalizers", m.finalizers.map .ofStrings),
    ("creationTimestamp", m.creationTimestamp.map fun t => .str t.text),
    ("deletionTimestamp", m.deletionTimestamp.map fun t => .str t.text),
    ("deletionGracePeriodSeconds", m.deletionGracePeriodSeconds.map fun n => .int n.toInt),
    ("ownerReferences", m.ownerReferences.map fun os => .arr (os.map OwnerReference.toJson)),
    ("managedFields", m.managedFields.map fun ms => .arr (ms.map ManagedMembers.toJson)),
    ("selfLink", m.selfLink.map .str)]).join :=
  Json.find?_objectOfSet (by simp) k

/-- no time is set, nor what managers have set -/
structure Timeless (m : Metadata) : Prop where
  creation : m.creationTimestamp = none
  deletion : m.deletionTimestamp = none
  managed : m.managedFields = none

theorem decode_toJson {m : Metadata} (hm : m.Timeless) : decode m.toJson = .ok m := by
  have ho : Entries.Ordered m.toJson.members := isTable_toJson.ordered
  have hf := find?_toJson m
  have text : ∀ {k : String} {x : Option String},
      Entries.find? k m.toJson.members = x.map Json.str →
        optional m.toJson.members k string = .ok x :=
    fun hk => optional_of_map ho hk fun _ _ => ⟨rfl, rfl⟩
  have number : ∀ {k : String} {x : Option Int64},
      Entries.find? k m.toJson.members = x.map (fun n => Json.int n.toInt) →
        optional m.toJson.members k int64 = .ok x :=
    fun hk => optional_of_map ho hk fun n _ => ⟨int64_toInt n, rfl⟩
  have texts : ∀ {k : String} {x : Option (Table String String)},
      Entries.find? k m.toJson.members = x.map Json.ofStringTable →
        optional m.toJson.members k (table string) = .ok x :=
    fun hk => optional_of_map ho hk fun t _ => ⟨table_ofStringTable t, rfl⟩
  have time : ∀ {k : String} {x : Option Instant}, x = none →
      Entries.find? k m.toJson.members = x.map (fun t => Json.str t.text) →
        optional m.toJson.members k instant = .ok x :=
    fun hx hk => optional_of_map ho hk fun t ht => by rw [hx] at ht; cases ht
  show (do
    let annotations ← optional m.toJson.members "annotations" (table string)
    let creationTimestamp ← optional m.toJson.members "creationTimestamp" instant
    let deletionGracePeriodSeconds ←
      optional m.toJson.members "deletionGracePeriodSeconds" int64
    let deletionTimestamp ← optional m.toJson.members "deletionTimestamp" instant
    let finalizers ← optional m.toJson.members "finalizers" (list string)
    let generateName ← optional m.toJson.members "generateName" string
    let generation ← optional m.toJson.members "generation" int64
    let labels ← optional m.toJson.members "labels" (table string)
    let managedFields ← optional m.toJson.members "managedFields" (list ManagedMembers.decode)
    let name ← optional m.toJson.members "name" string
    let ns ← optional m.toJson.members "namespace" string
    let ownerReferences ← optional m.toJson.members "ownerReferences" (list OwnerReference.decode)
    let resourceVersion ← optional m.toJson.members "resourceVersion" string
    let selfLink ← optional m.toJson.members "selfLink" string
    let uid ← optional m.toJson.members "uid" string
    return (⟨name, generateName, ns, uid, resourceVersion, generation, labels, annotations,
      finalizers, creationTimestamp, deletionTimestamp, deletionGracePeriodSeconds,
      ownerReferences, managedFields, selfLink⟩ : Metadata)) = _
  rw [texts (hf "annotations"), time hm.creation (hf "creationTimestamp"),
    number (hf "deletionGracePeriodSeconds"), time hm.deletion (hf "deletionTimestamp"),
    optional_of_map ho (hf "finalizers") fun ss _ => ⟨list_ofStrings ss, rfl⟩,
    text (hf "generateName"), number (hf "generation"), texts (hf "labels"),
    optional_of_map ho (hf "managedFields") fun ms h => (by rw [hm.managed] at h; cases h),
    text (hf "name"), text (hf "namespace"),
    optional_of_map ho (hf "ownerReferences") fun os _ =>
      ⟨list_map fun o _ => OwnerReference.decode_toJson o, rfl⟩,
    text (hf "resourceVersion"), text (hf "selfLink"), text (hf "uid")]
  rfl

theorem optional_of_decode {v : Json} {m : Metadata} (h : decode v = .ok m) :
    optional v.members "name" string = .ok m.name ∧
      optional v.members "namespace" string = .ok m.ns := by
  obtain ⟨ms, hms, h⟩ := bind_eq_ok h
  obtain rfl : v.members = ms := by
    cases v with
    | obj ms' => exact Except.ok.inj hms
    | _ => cases hms
  obtain ⟨_, _, h⟩ := bind_eq_ok h
  obtain ⟨_, _, h⟩ := bind_eq_ok h
  obtain ⟨_, _, h⟩ := bind_eq_ok h
  obtain ⟨_, _, h⟩ := bind_eq_ok h
  obtain ⟨_, _, h⟩ := bind_eq_ok h
  obtain ⟨_, _, h⟩ := bind_eq_ok h
  obtain ⟨_, _, h⟩ := bind_eq_ok h
  obtain ⟨_, _, h⟩ := bind_eq_ok h
  obtain ⟨_, _, h⟩ := bind_eq_ok h
  obtain ⟨name, hname, h⟩ := bind_eq_ok h
  obtain ⟨ns, hns, h⟩ := bind_eq_ok h
  obtain ⟨_, _, h⟩ := bind_eq_ok h
  obtain ⟨_, _, h⟩ := bind_eq_ok h
  obtain ⟨_, _, h⟩ := bind_eq_ok h
  obtain ⟨_, _, h⟩ := bind_eq_ok h
  obtain rfl := Except.ok.inj h
  exact ⟨hname, hns⟩

/-- metadata that is written and read again has the same name and namespace -/
theorem names_of_decode_toJson {m m' : Metadata} (h : decode m.toJson = .ok m') :
    m'.name = m.name ∧ m'.ns = m.ns := by
  obtain ⟨hname, hns⟩ := optional_of_decode h
  have ho : Entries.Ordered m.toJson.members := isTable_toJson.ordered
  have hfname : Entries.find? "name" m.toJson.members = m.name.map Json.str :=
    find?_toJson m "name"
  have hfns : Entries.find? "namespace" m.toJson.members = m.ns.map Json.str :=
    find?_toJson m "namespace"
  rw [optional_of_map ho hfname fun _ _ => ⟨rfl, rfl⟩] at hname
  rw [optional_of_map ho hfns fun _ _ => ⟨rfl, rfl⟩] at hns
  exact ⟨(Except.ok.inj hname).symm, (Except.ok.inj hns).symm⟩

end Metadata

/-! ## objects -/

namespace Object

theorem takeTypes_cons (version kind : Option String) (name : String) (v : Json)
    (rest : List (String × Json)) :
    takeTypes version kind ((name, v) :: rest) =
      if name = "apiVersion" then
        match version, v with
        | none, .str s => takeTypes (some s) kind rest
        | _, _ => (none, rest)
      else if name = "kind" then
        match kind, v with
        | none, .str s => takeTypes version (some s) rest
        | _, _ => (none, rest)
      else ((takeTypes version kind rest).1, (name, v) :: (takeTypes version kind rest).2) :=
  rfl

/-- taking the type out of an object leaves its other members alone -/
theorem takeTypes_find? (version kind : Option String) (ms : List (String × Json)) {k : String}
    (hv : k ≠ "apiVersion") (hk : k ≠ "kind") :
    Entries.find? k (takeTypes version kind ms).2 = Entries.find? k ms := by
  induction ms generalizing version kind with
  | nil => unfold takeTypes; split <;> rfl
  | cons m ms ih =>
    obtain ⟨name, v⟩ := m
    rw [takeTypes_cons, Entries.find?_cons]
    split
    next hn =>
      rw [if_neg (by rw [hn]; exact hv)]
      split
      · exact ih _ _
      · rfl
    · split
      next hn =>
        rw [if_neg (by rw [hn]; exact hk)]
        split
        · exact ih _ _
        · rfl
      · rw [Entries.find?_cons, ih]

theorem takeTypes_sublist (version kind : Option String) (ms : List (String × Json)) :
    (takeTypes version kind ms).2.Sublist ms := by
  induction ms generalizing version kind with
  | nil => unfold takeTypes; split <;> exact .slnil
  | cons m ms ih =>
    obtain ⟨name, v⟩ := m
    rw [takeTypes_cons]
    split
    · split
      · exact (ih _ _).cons _
      · exact List.sublist_cons_self _ _
    · split
      · split
        · exact (ih _ _).cons _
        · exact List.sublist_cons_self _ _
      · exact (ih version kind).cons_cons (name, v)

theorem decode_eq_ok {v : Json} {o : Object} (h : decode v = .ok o) :
    ∃ ms m, v = .obj ms ∧ single? ms "metadata" Metadata.decode = .ok m ∧
      o = ⟨(takeTypes none none (ms.filter fun m => m.1 ≠ "metadata")).1, m.getD default,
        .ofList (takeTypes none none (ms.filter fun m => m.1 ≠ "metadata")).2⟩ := by
  cases v with
  | obj ms =>
    change (do
      let m ← single? ms "metadata" Metadata.decode
      return (⟨_, m.getD default, _⟩ : Object)) = _ at h
    cases hm : single? ms "metadata" Metadata.decode with
    | error e => rw [hm] at h; cases h
    | ok m =>
      rw [hm] at h
      exact ⟨ms, m, rfl, hm, (Except.ok.inj h).symm⟩
  | _ => cases h

theorem find?_toJson (o : Object) {k : String} (hv : k ≠ "apiVersion") (hk : k ≠ "kind") :
    o.toJson.find? k =
      (o.body.find? k).or (if k = "metadata" then some o.metadata.toJson else none) := by
  have htypes : Entries.find? k (Entries.ofList (typeMembers o.types)) = none := by
    cases o.types with
    | none => rfl
    | some t =>
      show Entries.find? k (Entries.ofList [("apiVersion", _), ("kind", _)]) = none
      rw [Entries.find?_ofList _ _ (by simp), Entries.find?_cons, if_neg hv, Entries.find?_cons,
        if_neg hk]
      rfl
  show Entries.find? k (Entries.ofList (typeMembers o.types ++
    ([("metadata", o.metadata.toJson)] ++ o.body.entries))) = _
  rw [Entries.find?_ofList_append, Entries.find?_ofList_append, htypes, Option.or_none,
    o.body.ordered.ofList_eq]
  rfl

theorem find?_body_metadata {v : Json} {o : Object} (h : decode v = .ok o) :
    o.body.find? "metadata" = none := by
  obtain ⟨ms, m, _, _, rfl⟩ := decode_eq_ok h
  have hnot : "metadata" ∉ (takeTypes none none (ms.filter fun m => m.1 ≠ "metadata")).2.map
      (·.1) := by
    intro hm
    obtain ⟨e, he, hek⟩ := List.mem_map.1 hm
    have := (List.mem_filter.1 ((takeTypes_sublist _ _ _).mem he)).2
    rw [hek] at this
    simp at this
  show Entries.find? "metadata" (Entries.ofList _) = none
  rw [Entries.find?_ofList_eq_none hnot]

theorem decode_obj {ms : List (String × Json)} {m : Option Metadata}
    (hm : single? ms "metadata" Metadata.decode = .ok m) :
    decode (.obj ms) = .ok ⟨(takeTypes none none (ms.filter fun m => m.1 ≠ "metadata")).1,
      m.getD default, .ofList (takeTypes none none (ms.filter fun m => m.1 ≠ "metadata")).2⟩ := by
  show (do
    let m ← single? ms "metadata" Metadata.decode
    return (⟨_, m.getD default, _⟩ : Object)) = _
  rw [hm]
  rfl

/-- a member that is neither of the type nor the metadata is read as it is -/
theorem find?_body {ms : List (String × Json)} {o : Object} (h : decode (.obj ms) = .ok o)
    (ho : Entries.Ordered ms) {k : String} (hv : k ≠ "apiVersion") (hk : k ≠ "kind")
    (hm : k ≠ "metadata") : o.body.find? k = Entries.find? k ms := by
  obtain ⟨ms', m, hms, _, rfl⟩ := decode_eq_ok h
  obtain rfl := Json.obj.inj hms
  have hordered : Entries.Ordered
      (takeTypes none none (ms.filter fun m => m.1 ≠ "metadata")).2 :=
    List.Pairwise.sublist ((takeTypes_sublist _ _ _).trans List.filter_sublist) ho
  show Entries.find? k (Entries.ofList _) = _
  rw [hordered.ofList_eq, takeTypes_find? _ _ _ hv hk, Entries.find?_filter_ne _ hm]

/-! ## a status that is merged in -/

theorem named_merge_status (ms : List (String × Json)) (status : Json) :
    named (Json.mergeMembers ms [("status", status)]) "metadata" = named ms "metadata" := by
  rw [Json.mergeMembers_cons]
  split
  · exact named_erase _ (by decide)
  · exact named_insert _ _ (by decide)

theorem metadata_of_merge_status {v status : Json} {o o' : Object} (h : decode v = .ok o)
    (h' : decode (v.merge (.object [("status", status)])) = .ok o') : o'.metadata = o.metadata := by
  obtain ⟨ms, m, rfl, hm, rfl⟩ := decode_eq_ok h
  obtain ⟨ms', m', hv, hm', rfl⟩ := decode_eq_ok h'
  rw [show Json.object [("status", status)] = .obj [("status", status)] from rfl,
    Json.merge_obj] at hv
  obtain rfl := Json.obj.inj hv
  unfold single? at hm hm'
  rw [named_merge_status] at hm'
  obtain rfl := Except.ok.inj (hm.symm.trans hm')
  rfl

theorem decode_merge_status {v : Json} {o : Object} (h : decode v = .ok o) (status : Json) :
    ∃ o', decode (v.merge (.object [("status", status)])) = .ok o' := by
  obtain ⟨ms, m, rfl, hm, _⟩ := decode_eq_ok h
  rw [show Json.object [("status", status)] = .obj [("status", status)] from rfl, Json.merge_obj]
  refine ⟨_, decode_obj (m := m) ?_⟩
  unfold single? at hm ⊢
  rw [show (Json.obj ms).members = ms from rfl, named_merge_status]
  exact hm

end Object

end ConnectorControl
