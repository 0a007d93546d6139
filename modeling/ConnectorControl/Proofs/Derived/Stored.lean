import ConnectorControl.Derived.Naming
import ConnectorControl.Proofs.Json.Covering
import ConnectorControl.Proofs.Objects.Reading
import ConnectorControl.Store.Cluster

/-!
# Derived objects as they are stored

An `Identity` is what makes a Connector the same one through all changes of its spec: its
namespace, its name and its UID.  Whatever the spec, a derived object is stored with the same
metadata, the UID that its creation gave it aside (`Identity.stored`).

* `stored_of_create`   what a create stores;
* `merge_stored`       a patch changes the spec and nothing else;
* `readObject_stored`  a stored object is read back;
* `isSelected_stored`  all of them are selected alike.
-/

namespace ConnectorControl

/-! ## metadata -/

namespace Metadata

def ofOwned (name : String) (ns uid : Option String) (labels : Table String String)
    (owner : OwnerReference) : Metadata :=
  { (default : Metadata) with
    name := some name, ns, uid, labels := some labels, ownerReferences := some [owner] }

variable {name : String} {ns uid : Option String} {labels : Table String String}
  {owner : OwnerReference}

theorem timeless_ofOwned : (ofOwned name ns uid labels owner).Timeless := ⟨rfl, rfl, rfl⟩

theorem toJson_ofOwned : (ofOwned name ns uid labels owner).toJson =
    .objectOfSet [
      ("name", some (.str name)),
      ("namespace", ns.map .str),
      ("uid", uid.map .str),
      ("labels", some (.ofStringTable labels)),
      ("ownerReferences", some (.arr [owner.toJson]))] := by
  cases ns <;> cases uid <;> rfl

theorem find?_ofOwned (k : String) : (ofOwned name ns uid labels owner).toJson.find? k =
    (Entries.find? k [
      ("name", some (Json.str name)),
      ("namespace", ns.map .str),
      ("uid", uid.map .str),
      ("labels", some (.ofStringTable labels)),
      ("ownerReferences", some (.arr [owner.toJson]))]).join := by
  rw [toJson_ofOwned]
  exact Json.find?_objectOfSet (by simp) k

theorem isTable_ofOwned : (ofOwned name ns uid labels owner).toJson.IsTable :=
  Json.isTable_objectOfSet _

theorem clean_ofOwned : (ofOwned name ns uid labels owner).toJson.Clean := by
  have howner : owner.toJson.Clean := by
    refine Json.clean_objectOfSet ?_
    simp only [List.forall_mem_cons]
    exact ⟨Json.clean_of_some (Json.clean_str _), Json.clean_of_some (Json.clean_str _),
      Json.clean_of_some (Json.clean_str _), Json.clean_of_some (Json.clean_str _),
      Json.clean_of_map Json.clean_bool _, Json.clean_of_map Json.clean_bool _,
      List.forall_mem_nil _⟩
  rw [toJson_ofOwned]
  refine Json.clean_objectOfSet ?_
  simp only [List.forall_mem_cons]
  refine ⟨Json.clean_of_some (Json.clean_str _), Json.clean_of_map Json.clean_str _,
    Json.clean_of_map Json.clean_str _, Json.clean_of_some (Json.clean_ofStringTable _),
    Json.clean_of_some (Json.clean_arr ?_), List.forall_mem_nil _⟩
  rw [List.forall_mem_singleton]
  exact howner

theorem canonical_ofOwned : (ofOwned name ns uid labels owner).toJson.Canonical :=
  clean_ofOwned.canonical

/-- metadata without a UID, merged into metadata that is the same but for the UID -/
theorem merge_ofOwned {ns' : Option String} (h : ∀ n ∈ ns', ns = some n) :
    (ofOwned name ns uid labels owner).toJson.merge (ofOwned name ns' none labels owner).toJson =
      (ofOwned name ns uid labels owner).toJson := by
  refine Json.merge_eq_of_forall isTable_ofOwned.ordered isTable_ofOwned isTable_ofOwned fun k => ?_
  rw [find?_ofOwned, find?_ofOwned]
  by_cases h₁ : k = "name"
  · subst h₁
    rfl
  by_cases h₂ : k = "namespace"
  · subst h₂
    cases ns' with
    | none => rfl
    | some n =>
      rw [h n rfl]
      rfl
  by_cases h₃ : k = "labels"
  · subst h₃
    show some (Json.merge (Json.ofStringTable labels) (Json.ofStringTable labels)) = _
    rw [Json.merge_of_covers (Json.covers_ofStringTable labels),
      Json.stripNulls_of_stripped (Json.stripped_ofStringTable labels)]
    rfl
  by_cases h₄ : k = "ownerReferences"
  · subst h₄
    show some (Json.merge _ (Json.arr _)) = _
    rw [Json.merge_of_not_object rfl]
    rfl
  · simp only [Entries.find?_cons, h₁, h₂, h₃, h₄, if_false]
    split <;> rfl

end Metadata

/-! ## objects with a spec -/

namespace Object

/-- an object that has a spec besides its type and its metadata -/
def ofSpec (t : TypeMeta) (m : Metadata) (spec : Json) : Object :=
  ⟨some t, m, .ofList [("spec", spec)]⟩

variable {t : TypeMeta} {m : Metadata} {spec : Json}

theorem toJson_ofSpec : (ofSpec t m spec).toJson =
    .obj [
      ("apiVersion", .str t.apiVersion),
      ("kind", .str t.kind),
      ("metadata", m.toJson),
      ("spec", spec)] := by
  have h : Entries.Ordered [
      ("apiVersion", Json.str t.apiVersion),
      ("kind", .str t.kind),
      ("metadata", m.toJson),
      ("spec", spec)] := by
    simp only [Entries.ordered_cons, List.mem_cons, List.not_mem_nil, or_false, forall_eq_or_imp,
      forall_eq, false_imp_iff, implies_true, true_and]
    decide
  show Json.obj (Entries.ofList _) = _
  rw [← h.ofList_eq]
  rfl

theorem isTable_ofSpec : (ofSpec t m spec).toJson.IsTable := Json.isTable_object _

theorem canonical_ofSpec (hm : m.toJson.Canonical) (hs : spec.Canonical) :
    (ofSpec t m spec).toJson.Canonical := by
  have hms : ∀ e ∈ typeMembers (some t) ++ ("metadata", m.toJson) :: [("spec", spec)],
      e.2.Canonical := by
    simp only [typeMembers, List.cons_append, List.nil_append, List.forall_mem_cons]
    exact ⟨trivial, trivial, hm, hs, List.forall_mem_nil _⟩
  exact Json.canonical_object hms

theorem find?_ofSpec (k : String) : (ofSpec t m spec).toJson.find? k =
    Entries.find? k [
      ("apiVersion", .str t.apiVersion),
      ("kind", .str t.kind),
      ("metadata", m.toJson),
      ("spec", spec)] := by
  rw [toJson_ofSpec]
  rfl

theorem get_spec_ofSpec : (ofSpec t m spec).toJson.get "spec" = spec := by
  rw [Json.get_eq, find?_ofSpec]
  rfl

theorem decode_ofSpec (hm : m.Timeless) :
    decode (ofSpec t m spec).toJson = .ok (ofSpec t m spec) := by
  rw [toJson_ofSpec]
  show (do
    let metadata ← Decode.single? _ "metadata" Metadata.decode
    return (⟨some ⟨t.apiVersion, t.kind⟩, metadata.getD default, _⟩ : Object)) = _
  have h : Decode.single? [
      ("apiVersion", Json.str t.apiVersion),
      ("kind", .str t.kind),
      ("metadata", m.toJson),
      ("spec", spec)] "metadata" Metadata.decode = some <$> Metadata.decode m.toJson := rfl
  rw [h, Metadata.decode_toJson hm]
  rfl

theorem merge_ofSpec {m' : Metadata} {patch : Json} (hm : m.toJson.merge m'.toJson = m.toJson)
    (hp : patch.isNull = false) :
    (ofSpec t m spec).toJson.merge (ofSpec t m' patch).toJson =
      (ofSpec t m (spec.merge patch)).toJson := by
  refine Json.merge_eq_of_forall isTable_ofSpec.ordered isTable_ofSpec isTable_ofSpec fun k => ?_
  rw [find?_ofSpec, find?_ofSpec, find?_ofSpec]
  by_cases h₁ : k = "apiVersion"
  · subst h₁
    rfl
  by_cases h₂ : k = "kind"
  · subst h₂
    rfl
  by_cases h₃ : k = "metadata"
  · subst h₃
    show some (m.toJson.merge m'.toJson) = some m.toJson
    rw [hm]
  by_cases h₄ : k = "spec"
  · subst h₄
    show (if patch.isNull then none else some (spec.merge patch)) = some (spec.merge patch)
    rw [hp]
    rfl
  · simp only [Entries.find?_cons, h₁, h₂, h₃, h₄, if_false]
    rfl

theorem stripNulls_ofSpec (h : spec.isNull = false) :
    (ofSpec t m spec).stripNulls = ofSpec t m spec.stripNulls := by
  have : Json.stripMembers (Entries.ofList [("spec", spec)]) = [("spec", spec.stripNulls)] := by
    show Json.stripMembers [("spec", spec)] = _
    rw [Json.stripMembers, h]
    rfl
  show (⟨_, _, .ofList (Json.stripMembers (Entries.ofList [("spec", spec)]))⟩ : Object) = _
  rw [this]
  rfl

end Object

namespace Derived

theorem object_eq (c : Connector) (kind : DerivedKind) (name : String) (spec : Json) :
    object c kind name spec = .ofSpec ⟨(kind : Kind).apiVersion, (kind : Kind).name⟩
      (.ofOwned name c.metadata.ns none (standardLabels c.name) (owner c)) spec := rfl

theorem canonical_toJson {c : Connector} {kind : DerivedKind} {name : String} {spec : Json}
    (hspec : spec.Canonical) : (object c kind name spec).toJson.Canonical :=
  Object.canonical_ofSpec Metadata.canonical_ofOwned hspec

theorem stamp_object {c : Connector} {kind : DerivedKind} {name : String} {spec : Json}
    (s : Cluster) {ns : String} (hspec : spec.isNull = false) :
    s.stamp ns (object c kind name spec).stripNulls =
      .ofSpec ⟨(kind : Kind).apiVersion, (kind : Kind).name⟩
        (.ofOwned name (some ns) (some ("uid-" ++ toString s.created)) (standardLabels c.name)
          (owner c)) spec.stripNulls := by
  rw [object_eq, Object.stripNulls_ofSpec hspec]
  rfl

end Derived

/-! ## what stays the same about a Connector -/

/-- the Connector that derived objects are derived from -/
structure Identity where
  ns : String
  name : String
  uid : Option String

namespace Identity

variable (i : Identity)

def connectorKey : ObjectKey := ⟨.connector, i.ns, i.name⟩

def key (kind : DerivedKind) (name : String) : ObjectKey := ⟨kind, i.ns, name⟩

theorem key_ne {i : Identity} {kind kind' : DerivedKind} {name name' : String}
    (h : kind = kind' → name ≠ name') : i.key kind name ≠ i.key kind' name' := by
  intro he
  simp only [key, ObjectKey.mk.injEq, Kind.derived.injEq, true_and] at he
  exact h he.1 he.2

/-- a Connector has the name, the UID and, as far as it states one, the namespace -/
structure Describes (c : Connector) : Prop where
  name : c.metadata.name = some i.name
  ns : ∀ ns ∈ c.metadata.ns, ns = i.ns
  uid : c.metadata.uid = i.uid

theorem Describes.connector_name {i : Identity} {c : Connector} (h : i.Describes c) :
    c.name = i.name := by
  unfold Connector.name Metadata.nameAny
  rw [h.name]
  rfl

def owner : OwnerReference where
  apiVersion := Kind.connector.apiVersion
  kind := Kind.connector.name
  name := i.name
  uid := i.uid.getD ""
  controller := some true
  blockOwnerDeletion := some true

def metadata (name uid : String) : Metadata :=
  .ofOwned name (some i.ns) (some uid) (Derived.standardLabels i.name) i.owner

def object (kind : DerivedKind) (name uid : String) (spec : Json) : Object :=
  .ofSpec ⟨(kind : Kind).apiVersion, (kind : Kind).name⟩ (i.metadata name uid) spec

def stored (kind : DerivedKind) (name uid : String) (spec : Json) : Json :=
  (i.object kind name uid spec).toJson

variable {i} {c : Connector} {kind : DerivedKind} {name uid : String} {spec : Json}

theorem Describes.metadata_eq (h : i.Describes c) : Derived.metadata c name =
    .ofOwned name c.metadata.ns none (Derived.standardLabels i.name) i.owner := by
  unfold Derived.metadata Derived.owner
  rw [h.connector_name, h.uid]
  rfl

theorem Describes.object_eq (h : i.Describes c) : Derived.object c kind name spec =
    .ofSpec ⟨(kind : Kind).apiVersion, (kind : Kind).name⟩
      (.ofOwned name c.metadata.ns none (Derived.standardLabels i.name) i.owner) spec := by
  unfold Derived.object
  rw [h.metadata_eq]
  rfl

theorem Describes.stored_of_create (h : i.Describes c) (s : Cluster) (hs : spec.isNull = false) :
    (s.stamp i.ns (Derived.object c kind name spec).stripNulls).toJson =
      i.stored kind name ("uid-" ++ toString s.created) spec.stripNulls := by
  rw [h.object_eq, Object.stripNulls_ofSpec hs]
  rfl

theorem Describes.merge_stored (h : i.Describes c) {patch : Json} (hp : patch.isNull = false) :
    (i.stored kind name uid spec).merge (Derived.object c kind name patch).toJson =
      i.stored kind name uid (spec.merge patch) := by
  rw [h.object_eq]
  exact Object.merge_ofSpec (Metadata.merge_ofOwned fun n hn => by rw [h.ns n hn]) hp

theorem canonical_stored (hs : spec.Canonical) : (i.stored kind name uid spec).Canonical :=
  Object.canonical_ofSpec Metadata.canonical_ofOwned hs

theorem readObject_stored :
    Cluster.readObject (i.stored kind name uid spec) = .ok (i.object kind name uid spec) := by
  unfold Cluster.readObject stored
  rw [show Object.decode (i.object kind name uid spec).toJson = _ from
    Object.decode_ofSpec Metadata.timeless_ofOwned]
  rfl

theorem get_spec_stored : (i.stored kind name uid spec).get "spec" = spec :=
  Object.get_spec_ofSpec

theorem get_metadata_stored :
    (i.stored kind name uid spec).get "metadata" = (i.metadata name uid).toJson := by
  rw [Json.get_eq]
  show ((Object.ofSpec _ _ spec).toJson.find? "metadata").getD .null = _
  rw [Object.find?_ofSpec]
  rfl

theorem get_labels_stored : ((i.stored kind name uid spec).get "metadata").get "labels" =
    .ofStringTable (Derived.standardLabels i.name) := by
  rw [get_metadata_stored, Json.get_eq]
  show ((Metadata.ofOwned _ _ _ _ _).toJson.find? "labels").getD .null = _
  rw [Metadata.find?_ofOwned]
  rfl

/-- a selector that selects one of the stored objects selects all of them -/
theorem isSelected_stored (selector : String) {kind' : DerivedKind} {name' uid' : String}
    {spec' : Json} : Cluster.isSelected selector (i.stored kind name uid spec) =
      Cluster.isSelected selector (i.stored kind' name' uid' spec') := by
  unfold Cluster.isSelected
  rw [get_labels_stored, get_labels_stored]

theorem isControlledBy_metadata {owner : String} (h : i.uid = some owner) :
    (i.metadata name uid).isControlledBy owner = true := by
  show (decide (some true = some true) && decide (i.uid.getD "" = owner) || false) = true
  rw [h]
  simp

end Identity
end ConnectorControl
