import ConnectorControl.Proofs.Json.Erased
import ConnectorControl.Proofs.Pass.Repetition

/-!
# Stores that tell the same

Two stores that have come from one store tell the same (`Cluster.TellsSame`) when they differ only
in what no Connector asks for: in the UIDs that were given to new objects, and in the times of
conditions.

* `withoutUid_stored`       created objects are the same but for their UIDs;
* `withoutTimes_recorded`   statuses are the same but for times when what is recorded says the same.
-/

namespace ConnectorControl

/-! ## what is left out -/

namespace Json

def withoutUid (v : Json) : Json := v.mapMember "metadata" (without "uid")

def withoutTimes (v : Json) : Json :=
  v.mapMember "status" (mapMember "conditions" (mapItems (without "timestamp")))

end Json

theorem Identity.withoutUid_stored {i : Identity} {kind : DerivedKind} {name : String}
    {spec : Json} (uid uid' : String) :
    (i.stored kind name uid spec).withoutUid = (i.stored kind name uid' spec).withoutUid := by
  have hmeta : (i.metadata name uid).toJson.without "uid" =
      (i.metadata name uid').toJson.without "uid" := by
    refine Json.without_congr Metadata.isTable_ofOwned Metadata.isTable_ofOwned fun k hk => ?_
    unfold Identity.metadata
    rw [Metadata.find?_ofOwned, Metadata.find?_ofOwned]
    simp only [Entries.find?_cons, if_neg hk]
  refine Json.mapMember_congr Object.isTable_ofSpec Object.isTable_ofSpec ?_ fun k hk => ?_
  · show ((Object.ofSpec _ _ _).toJson.find? _).map _ = ((Object.ofSpec _ _ _).toJson.find? _).map _
    rw [Object.find?_ofSpec, Object.find?_ofSpec]
    exact congrArg some hmeta
  · show (Object.ofSpec _ _ _).toJson.find? k = (Object.ofSpec _ _ _).toJson.find? k
    rw [Object.find?_ofSpec, Object.find?_ofSpec]
    simp only [Entries.find?_cons, if_neg hk]

/-! ## conditions -/

section
variable {c : Connector} {cond cond' : Condition} {status status' : Status} {v : Json}

theorem Condition.without_timestamp (h : cond.sameObservation cond' = true) :
    cond.toJson.without "timestamp" = cond'.toJson.without "timestamp" := by
  obtain ⟨htype, hstatus, hreason, hmessage⟩ := Condition.sameObservation_iff.1 h
  refine Json.without_congr (Json.isTable_objectOfSet _) (Json.isTable_objectOfSet _)
    fun k hk => ?_
  unfold Condition.toJson
  rw [Json.find?_objectOfSet (by simp), Json.find?_objectOfSet (by simp), htype, hstatus, hreason,
    hmessage]
  simp only [Entries.find?_cons, if_neg hk]

theorem History.map_push {α : Type} {f : Condition → α} (cs : List Condition)
    (h : cond.sameObservation cond' = true) (hf : f cond = f cond') :
    (push cs cond).map f = (push cs cond').map f := by
  unfold push
  rw [repeats_congr h]
  split
  · rfl
  · unfold latest
    rw [List.map_drop, List.map_drop, List.map_append, List.map_append, List.length_append,
      List.length_append, List.map_singleton, List.map_singleton, hf]
    rfl

/-- what is recorded of observations that say the same differs in times only -/
theorem withoutTimes_recorded (hv : v.Canonical) (h : cond.sameObservation cond' = true)
    (hs : c.statusAfter cond = some status) (hs' : c.statusAfter cond' = some status') :
    (Cluster.patchedStatus v status).withoutTimes =
      (Cluster.patchedStatus v status').withoutTimes := by
  obtain rfl := Pass.eq_of_statusAfter hs
  obtain rfl := Pass.eq_of_statusAfter hs'
  have hpatch : ∀ st : Status, (Json.object [("status", st.toJson)]).IsTable := fun _ =>
    Json.isTable_object _
  have hmember : ∀ (st : Status) k, (Json.object [("status", st.toJson)]).find? k =
      Entries.find? k [("status", st.toJson)] := fun st k => Json.find?_object (by simp) k
  have htable : ∀ st : Status, (Cluster.patchedStatus v st).IsTable := fun st =>
    Json.isTable_merge (Json.ordered_members hv) (hpatch st)
  have hfind : ∀ (st : Status) k, (Cluster.patchedStatus v st).find? k =
      Json.mergedMember (v.find? k) (Entries.find? k [("status", st.toJson)]) := fun st k => by
    rw [← hmember]
    exact Json.find?_merge v (hpatch st) k
  refine Json.mapMember_congr (htable _) (htable _) ?_ fun k hk => ?_
  · -- the merged statuses differ in their conditions at most
    rw [hfind, hfind]
    have hold : Entries.Ordered ((v.find? "status").getD .null).members := by
      cases hst : v.find? "status" with
      | none => exact Entries.ordered_nil
      | some w => exact Json.ordered_members (Json.canonical_of_find? hv hst)
    refine congrArg some (Json.mapMember_congr (Json.isTable_merge hold Status.isTable_toJson)
      (Json.isTable_merge hold Status.isTable_toJson) ?_ fun k hk => ?_)
    · rw [Json.find?_merge _ Status.isTable_toJson, Json.find?_merge _ Status.isTable_toJson,
        Status.find?_toJson_conditions History.push_ne_nil,
        Status.find?_toJson_conditions History.push_ne_nil]
      have hmap : ∀ cs : List Condition, Option.map (Json.mapItems (Json.without "timestamp"))
          (Json.mergedMember (Json.find? ((v.find? "status").getD .null) "conditions")
            (some (.arr (cs.map Condition.toJson)))) =
          some (.arr (cs.map fun cond => cond.toJson.without "timestamp")) := by
        intro cs
        show some (Json.mapItems _ (Json.merge _ (.arr _))) = _
        rw [Json.merge_of_not_object rfl]
        show some (Json.arr ((cs.map Condition.toJson).map _)) = _
        rw [List.map_map]
        rfl
      rw [hmap, hmap]
      exact congrArg (fun items => some (Json.arr items))
        (History.map_push _ h (Condition.without_timestamp h))
    · rw [Json.find?_merge _ Status.isTable_toJson, Json.find?_merge _ Status.isTable_toJson]
      unfold Status.toJson
      rw [Json.find?_objectOfSet (by simp), Json.find?_objectOfSet (by simp)]
      simp only [Entries.find?_cons, if_neg hk]
  · rw [hfind, hfind]
    simp only [Entries.find?_cons, if_neg hk]

end

/-! ## stores -/

/-- Two stores that came from a first one differ in the UIDs of new objects and in the times of
conditions at most. -/
structure Cluster.TellsSame (s t t' : Cluster) : Prop where
  created : t.created = t'.created
  kept : ∀ k v, k.kind ≠ .connector → s.find? k = some v → t.find? k = t'.find? k
  added : ∀ k, k.kind ≠ .connector → s.find? k = none →
    (t.find? k).map Json.withoutUid = (t'.find? k).map Json.withoutUid
  connectors : ∀ k, k.kind = .connector →
    (t.find? k).map Json.withoutTimes = (t'.find? k).map Json.withoutTimes

end ConnectorControl
