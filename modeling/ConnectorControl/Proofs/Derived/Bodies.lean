import ConnectorControl.Proofs.Derived.Bounds
import ConnectorControl.Proofs.Json.Places

/-!
# Bodies of derived objects

An object is generated from a Connector in five ways (`Connector.Generates`).  When it is created
its nulls are dropped, and when it is patched they are merged.  Both come to the same, as no list in
it has a null inside: a patch makes of nothing the body that a create sends.
-/

namespace ConnectorControl

open Json

/-- the objects that are generated from a Connector, a generator to each kind -/
inductive Connector.Generates (c : Connector) : Object → Prop
  | deployment : Generates c (Deployment.ofConnector c).toObject
  | service (port : Int32) (type : ServiceType) :
    Generates c (Service.ofConnector c port type).toObject
  | scaledObject (rule : ScalingRule) (custom : CustomScaling) (triggers : List ScaleTrigger) :
    Generates c ((ScaledObject.ofConnector c rule custom triggers).toObject c)
  | httpScaledObject (rule : ScalingRule) (http : HttpScaling) (port : Int32) :
    Generates c ((HttpScaledObject.ofConnector c rule http port).toObject c)
  | triggerAuthentication (auth : TriggerAuth) : Generates c (auth.toObject c)

structure Json.Generated (spec : Json) : Prop where
  canonical : spec.Canonical
  lists : spec.ListsStripped
  isNull : spec.isNull = false

namespace Derived

variable {c : Connector} {kind : DerivedKind} {name : String} {spec : Json}

theorem clean_metadata (c : Connector) (name : String) : (metadata c name).toJson.Clean := by
  show (Metadata.ofOwned name c.metadata.ns none (standardLabels c.name) (owner c)).toJson.Clean
  exact Metadata.clean_ofOwned

theorem toJson_object : (object c kind name spec).toJson =
    .obj [
      ("apiVersion", .str (kind : Kind).apiVersion),
      ("kind", .str (kind : Kind).name),
      ("metadata", (metadata c name).toJson),
      ("spec", spec)] :=
  Object.toJson_ofSpec

theorem listsStripped_toJson (h : spec.ListsStripped) :
    (object c kind name spec).toJson.ListsStripped := by
  rw [toJson_object]
  refine listsStripped_obj ?_
  simp only [List.forall_mem_cons]
  exact ⟨listsStripped_of_stripped trivial, listsStripped_of_stripped trivial,
    listsStripped_of_stripped (clean_metadata c name).stripped, h, List.forall_mem_nil _⟩

theorem toJson_stripNulls (h : spec.isNull = false) :
    (object c kind name spec).stripNulls.toJson = (object c kind name spec).toJson.stripNulls := by
  have hm := clean_metadata c name
  have hstripped : (object c kind name spec).stripNulls = object c kind name spec.stripNulls :=
    Object.stripNulls_ofSpec h
  rw [hstripped, toJson_object, toJson_object]
  simp only [Json.stripNulls, stripMembers, hm.isNull, h, stripNulls_of_stripped hm.stripped]
  rfl

end Derived

theorem Connector.Generates.exists_object {c : Connector} {o : Object} (h : c.Generates o) :
    ∃ kind name spec, o = Derived.object c kind name spec ∧ spec.Generated := by
  cases h with
  | deployment =>
    have hspec := (Deployment.ofConnector c).clean_spec
    exact ⟨.deployment, _, _, rfl, hspec.canonical, listsStripped_of_stripped hspec.stripped,
      hspec.isNull⟩
  | service port type =>
    exact ⟨.service, _, _, rfl, Service.canonical_spec _,
      listsStripped_of_covers (Service.covers_spec (s := .ofConnector c port type) rfl), rfl⟩
  | scaledObject rule custom triggers =>
    exact ⟨.scaledObject, _, _, rfl, ScaledObject.canonical_spec _,
      listsStripped_of_covers
        (ScaledObject.covers_spec _ (.ofConnector c rule custom triggers)), rfl⟩
  | httpScaledObject rule http port =>
    exact ⟨.httpScaledObject, _, _, rfl, HttpScaledObject.canonical_spec _,
      listsStripped_of_covers
        (HttpScaledObject.covers_spec _ (.ofConnector c rule http port)), rfl⟩
  | triggerAuthentication auth =>
    exact ⟨.triggerAuthentication, _, _, rfl, auth.canonical_spec,
      listsStripped_of_covers (auth.covers_spec auth), rfl⟩

/-- what is generated has no nulls in its lists, and is created without its nulls -/
theorem Connector.Generates.body {c : Connector} {o : Object} (h : c.Generates o) :
    o.toJson.Canonical ∧ o.toJson.ListsStripped ∧ o.stripNulls.toJson = o.toJson.stripNulls := by
  obtain ⟨kind, name, spec, rfl, hspec⟩ := h.exists_object
  exact ⟨Derived.canonical_toJson hspec.canonical, Derived.listsStripped_toJson hspec.lists,
    Derived.toJson_stripNulls hspec.isNull⟩

/-- Dropping nulls leaves no null member anywhere, inside lists either.  It leaves every other leaf
and every list at its place, a list with as many items in the same order, adds nothing, and does
nothing a second time.  A merge patch comes to the same, made of nothing or made once more, if and
only if no list in it has a null member inside.  So it is for whatever is generated from a
Connector, which is created as the same patch would make it. -/
theorem stripNulls_agrees_with_merge :
    (∀ v : Json, v.Canonical →
      v.stripNulls.Stripped ∧
      (∀ place x, v.part? place = some x → x.IsLeaf → ¬IsNullMember place x →
        v.stripNulls.part? place = some x) ∧
      (∀ place items, v.part? place = some (.arr items) →
        v.stripNulls.part? place = some (.arr (items.map Json.stripNulls))) ∧
      (∀ place w, v.stripNulls.part? place = some w →
        ∃ x, v.part? place = some x ∧ w = x.stripNulls) ∧
      v.stripNulls.stripNulls = v.stripNulls ∧
      (v.ListsStripped ↔ (Json.obj []).merge v = v.stripNulls) ∧
      (v.ListsStripped ↔ v.stripNulls.merge v = v.stripNulls)) ∧
    ∀ (c : Connector) (o : Object), c.Generates o →
      o.toJson.ListsStripped ∧
      (Json.obj []).merge o.toJson = o.stripNulls.toJson ∧
      o.stripNulls.toJson.merge o.toJson = o.stripNulls.toJson := by
  refine ⟨fun v hv => ⟨v.stripped_stripNulls, fun place x => leaf_stripNulls hv,
    fun place items => list_stripNulls hv, fun place w => part?_of_part?_stripNulls hv,
    v.stripNulls_stripNulls, listsStripped_iff_merge_empty hv,
    listsStripped_iff_merge_stripNulls hv⟩, ?_⟩
  intro c o h
  obtain ⟨hc, hlists, hcreated⟩ := h.body
  rw [hcreated]
  exact ⟨hlists, (listsStripped_iff_merge_empty hc).1 hlists,
    (listsStripped_iff_merge_stripNulls hc).1 hlists⟩

/-- a spec with nulls: members, an item of a list, and a member inside a list -/
def gappySpec : Json := .object [
  ("cooldownPeriod", .null),
  ("replicas", .object [("max", .null), ("min", .int 0)]),
  ("triggers", .arr [.null, .object [("authenticationRef", .null), ("type", .str "cpu")]])]

theorem canonical_gappySpec : gappySpec.Canonical := by
  refine canonical_object ?_
  simp only [List.forall_mem_cons]
  refine ⟨trivial, canonical_object ?_, itemsCanonical_iff.2 ?_, List.forall_mem_nil _⟩
  · simp only [List.forall_mem_cons]
    exact ⟨trivial, trivial, List.forall_mem_nil _⟩
  · simp only [List.forall_mem_cons]
    refine ⟨trivial, canonical_object ?_, List.forall_mem_nil _⟩
    simp only [List.forall_mem_cons]
    exact ⟨trivial, trivial, List.forall_mem_nil _⟩

/-- the HTTPScaledObject of a Connector that leaves the pending requests open -/
def openPortal : Object :=
  let c := HttpScaledObject.portalConnector none none
  (HttpScaledObject.ofConnector c (HttpScaledObject.portalRule none none)
    HttpScaledObject.portalHttp 80).toObject c

/-- The null in the list stays; the one inside the list's object is dropped, but a patch would put
it.  An HTTPScaledObject is made by a patch as it is created. -/
theorem stripNulls_agrees_with_merge_gappy :
    gappySpec.Canonical ∧
      gappySpec.stripNulls.part? [.member "triggers", .item 0] = some .null ∧
      gappySpec.stripNulls.part? [.member "replicas", .member "min"] = some (.int 0) ∧
      gappySpec.stripNulls = .object [
        ("replicas", .object [("min", .int 0)]),
        ("triggers", .arr [.null, .object [("type", .str "cpu")]])] ∧
      ¬gappySpec.ListsStripped ∧
      (Json.obj []).merge openPortal.toJson = openPortal.stripNulls.toJson ∧
      openPortal.toJson ≠ openPortal.stripNulls.toJson := by
  obtain ⟨hvalues, hbodies⟩ := stripNulls_agrees_with_merge
  obtain ⟨_, hleaf, _, _, _, hmerge, _⟩ := hvalues gappySpec canonical_gappySpec
  refine ⟨canonical_gappySpec, ?_, ?_, by decide +kernel, ?_,
    (hbodies _ _ (.httpScaledObject _ _ 80)).2.1, by decide +kernel⟩
  · refine hleaf _ _ (by decide +kernel) (isLeaf_of_plain rfl) ?_
    rintro ⟨_, start, name, hplace⟩
    have hlast := congrArg List.getLast? hplace
    rw [List.getLast?_append] at hlast
    cases hlast
  · refine hleaf _ _ (by decide +kernel) (isLeaf_of_plain rfl) ?_
    rintro ⟨hnull, _⟩
    cases hnull
  · intro hlists
    exact absurd (hmerge.1 hlists) (by decide +kernel)

end ConnectorControl
