import ConnectorControl.Proofs.Derived.Selection
import ConnectorControl.Proofs.Json.Paths
import ConnectorControl.Proofs.Pass.Planned
import ConnectorControl.Proofs.Pass.Repetition

/-!
# Stores in which every object is where it says

A store is filed (`Cluster.Filed`) when every object is kept under the namespace and the name that
it states itself.  An object that is created or patched states the key that it is written under,
so writing keeps a store filed (`filed_upserted`).

What is listed in such a store goes by the name that it is kept under (`Filed.nameAny`).
-/

namespace ConnectorControl

theorem Object.name_of_decode {v : Json} {o : Object} {name : String} (hv : v.Canonical)
    (ho : decode v = .ok o) (hname : v.at? ["metadata", "name"] = some (.str name)) :
    o.metadata.name = some name := by
  obtain ⟨ms, m, rfl, hm, rfl⟩ := decode_eq_ok ho
  rw [Json.at?_cons] at hname
  obtain ⟨x, hx, hname⟩ := Option.bind_eq_some_iff.1 hname
  obtain ⟨y, hy, hleaf⟩ := Option.bind_eq_some_iff.1 hname
  obtain rfl : y = .str name := Option.some.inj hleaf
  have hx' : Entries.find? "metadata" ms = some x := hx
  rw [Decode.single?_eq hv.1, hx'] at hm
  obtain ⟨md, hmd, rfl⟩ := Decode.map_eq_ok (show some <$> Metadata.decode x = .ok m from hm)
  have hread := (Metadata.optional_of_decode hmd).1
  rw [Decode.optional_string_of_find? (Json.ordered_members (Json.canonical_of_find? hv hx)) hy]
    at hread
  exact (Except.ok.inj hread).symm

theorem ObjectKey.stated?_eq_some {kind : Kind} {v : Json} {k : ObjectKey} :
    stated? kind v = some k ↔ k.kind = kind ∧ v.at? ["metadata", "name"] = some (.str k.name) ∧
      ((v.at? ["metadata", "namespace"]).getD .null).string?.getD "default" = k.ns := by
  unfold stated?
  rw [Json.get_get, Json.get_get]
  constructor
  · intro h
    obtain ⟨name, hname, rfl⟩ := Option.map_eq_some_iff.1 h
    refine ⟨rfl, ?_, rfl⟩
    cases hx : v.at? ["metadata", "name"] with
    | none =>
      rw [hx] at hname
      cases hname
    | some x =>
      rw [hx] at hname
      cases x with
      | str s => exact congrArg (some <| Json.str ·) (Option.some.inj hname)
      | _ => cases hname
  · rintro ⟨rfl, hname, hns⟩
    rw [hname, hns]
    rfl

/-! ## metadata of derived objects along paths -/

namespace Identity

variable {i : Identity} {c : Connector} {kind : DerivedKind} {name uid : String} {spec : Json}

theorem at?_metadata_ofSpec {t : TypeMeta} {m : Metadata} (k : String) :
    (Object.ofSpec t m spec).toJson.at? ["metadata", k] = m.toJson.find? k := by
  have hmeta : (Object.ofSpec t m spec).toJson.find? "metadata" = some m.toJson :=
    Object.find?_ofSpec _
  rw [Json.at?_cons_of_find? hmeta, Json.at?_cons]
  cases m.toJson.find? k <;> rfl

theorem Describes.at?_name (h : i.Describes c) :
    (Derived.object c kind name spec).toJson.at? ["metadata", "name"] = some (.str name) := by
  rw [h.object_eq, at?_metadata_ofSpec, Metadata.find?_ofOwned]
  rfl

theorem Describes.at?_ns (h : i.Describes c) :
    (Derived.object c kind name spec).toJson.at? ["metadata", "namespace"] =
      c.metadata.ns.map .str := by
  rw [h.object_eq, at?_metadata_ofSpec, Metadata.find?_ofOwned]
  rfl

theorem at?_label {v : Json} : i.labels v = true ↔
    v.at? ["metadata", "labels", Derived.connectorLabel] = some (.str i.name) := by
  unfold labels
  rw [Json.get_get_get, decide_eq_true_iff]
  generalize v.at? ["metadata", "labels", Derived.connectorLabel] = x
  constructor
  · intro h
    cases x with
    | none => cases h
    | some y =>
      cases y with
      | str s => exact congrArg (some <| Json.str ·) (Option.some.inj h)
      | _ => cases h
  · rintro rfl
    rfl

theorem at?_label_ofSpec {t : TypeMeta} {ns uid : Option String} :
    (Object.ofSpec t (.ofOwned name ns uid (Derived.standardLabels i.name) i.owner) spec).toJson.at?
      ["metadata", "labels", Derived.connectorLabel] = some (.str i.name) := by
  have hlabels : (Metadata.ofOwned name ns uid (Derived.standardLabels i.name) i.owner).toJson.find?
      "labels" = some (.ofStringTable (Derived.standardLabels i.name)) := Metadata.find?_ofOwned _
  rw [Json.at?_cons_of_find? (Object.find?_ofSpec "metadata"), Json.at?_cons_of_find? hlabels,
    Json.at?_cons, Json.find?_ofStringTable, find?_connectorLabel]
  rfl

theorem Describes.labels_merge (h : i.Describes c) (hs : spec.Canonical) (v : Json) :
    i.labels (v.merge (Derived.object c kind name spec).toJson) = true := by
  rw [at?_label]
  refine Json.at?_merge_of_leaf (Derived.canonical_toJson hs) ?_ rfl rfl v
  rw [h.object_eq]
  exact at?_label_ofSpec

theorem Describes.stated?_merge (h : i.Describes c) (hs : spec.Canonical) {v : Json}
    (hv : ObjectKey.stated? kind v = some (i.key kind name)) :
    ObjectKey.stated? kind (v.merge (Derived.object c kind name spec).toJson) =
      some (i.key kind name) := by
  have hp : (Derived.object c kind name spec).toJson.Canonical := Derived.canonical_toJson hs
  obtain ⟨-, -, hns⟩ := ObjectKey.stated?_eq_some.1 hv
  refine ObjectKey.stated?_eq_some.2 ⟨rfl, Json.at?_merge_of_leaf hp h.at?_name rfl rfl v, ?_⟩
  cases hcns : c.metadata.ns with
  | some ns =>
    have hat : (Derived.object c kind name spec).toJson.at? ["metadata", "namespace"] =
        some (.str ns) := by
      rw [h.at?_ns, hcns]
      rfl
    rw [Json.at?_merge_of_leaf hp hat rfl rfl]
    exact h.ns ns hcns
  | none =>
    -- the patch leaves the namespace open, so the stated one stays
    have hopen : (Derived.object c kind name spec).toJson.LeavesAlone
        ["metadata", "namespace"] := by
      rw [h.object_eq]
      refine Json.leavesAlone_cons rfl (Object.find?_ofSpec "metadata") ?_
      refine Json.leavesAlone_of_find?_eq_none Metadata.isTable_ofOwned.isObject ?_
      rw [Metadata.find?_ofOwned, hcns]
      rfl
    rw [Json.at?_merge hp hopen]
    exact hns

theorem stated?_stored : ObjectKey.stated? kind (i.stored kind name uid spec) =
    some (i.key kind name) := by
  have hat : ∀ k, (i.stored kind name uid spec).at? ["metadata", k] =
      (i.metadata name uid).toJson.find? k := fun k => at?_metadata_ofSpec k
  refine ObjectKey.stated?_eq_some.2 ⟨rfl, ?_, ?_⟩
  · rw [hat]
    exact Metadata.find?_ofOwned _
  · rw [hat, show (i.metadata name uid).toJson.find? "namespace" = _ from Metadata.find?_ofOwned _]
    rfl

end Identity

/-! ## filed stores -/

namespace Cluster

/-- every object is kept by its kind under the namespace and the name that it states, and has its
members in key order -/
structure Filed (s : Cluster) : Prop where
  canonical : s.Canonical
  filed : ∀ k v, s.find? k = some v → ObjectKey.stated? k.kind v = some k

variable {s s' : Cluster} {k : ObjectKey} {v : Json}

theorem Filed.kept (h : s.Filed) : s.Kept := ⟨h.canonical, fun k v _ hv => h.filed k v hv⟩

theorem Filed.set (h : s.Filed) (hv : v.Canonical) (hk : ObjectKey.stated? k.kind v = some k) :
    (s.set k v).Filed := by
  refine ⟨h.canonical.set hv, fun k' v' hv' => ?_⟩
  rw [find?_set] at hv'
  split at hv'
  next he =>
    obtain rfl := Option.some.inj hv'
    rw [he]
    exact hk
  · exact h.filed k' v' hv'

theorem Filed.add (h : s.Filed) (hv : v.Canonical) (hk : ObjectKey.stated? k.kind v = some k) :
    (s.add k v).Filed := by
  have hset := h.set hv hk
  exact ⟨hset.canonical, hset.filed⟩

theorem Filed.remove (h : s.Filed) : (s.remove k).Filed :=
  ⟨h.canonical.remove, fun k' v' hv' => h.filed k' v' (find?_of_find?_remove hv')⟩

theorem Filed.nameAny (h : s.Filed) {o : Object} (hv : s.find? k = some v)
    (ho : readObject v = .ok o) : o.metadata.nameAny = k.name := by
  obtain ⟨-, hname, -⟩ := ObjectKey.stated?_eq_some.1 (h.filed k v hv)
  have hread := Object.name_of_decode (h.canonical k v hv) (decode_of_readObject ho) hname
  unfold Metadata.nameAny
  rw [hread]
  rfl

theorem Filed.describes (h : s.Filed) {ns name : String} {c : Connector}
    (hc : s.Holds .connector ns name Connector.decode c) :
    (Identity.mk ns name c.metadata.uid).Describes c := h.kept.describes hc

end Cluster

/-! ## what a pass keeps filed -/

namespace Pass

variable {i : Identity} {c : Connector} {s s' : Cluster} {x : Draft} {w : Json}

theorem filed_upserted (h : s.Filed) (hi : i.Describes c) (hx : x.Fits i)
    (hu : Upserted x.kind i.ns x.name (x.toObject c) s w s') : s'.Filed := by
  have hcanonical := hx.isSpec.canonical
  cases hu with
  | created hnone =>
    rw [show (s.stamp i.ns (x.toObject c).stripNulls).toJson = _ from
      hi.stored_of_create s hx.isSpec.isNull]
    exact h.add (Identity.canonical_stored (Json.canonical_stripNulls hcanonical))
      Identity.stated?_stored
  | patched v hv hread =>
    refine h.set ?_ ?_
    · exact Json.canonical_merge (h.canonical _ v hv) (Derived.canonical_toJson hcanonical)
    · exact hi.stated?_merge hcanonical (h.filed _ v hv)

end Pass
end ConnectorControl
