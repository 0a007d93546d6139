import ConnectorControl.Proofs.History.Pruning
import ConnectorControl.Proofs.Objects.Merging
import ConnectorControl.Proofs.Pass.Repetition

/-!
# Stores whose objects can be read

A store is readable (`Cluster.Readable`) when each of its objects can be read, a Connector and a
Secret as what they are.  Nothing that a pass does takes this away, whatever comes between, and as
long as nothing does, none of its steps can fail for what is stored:

* `ensures_upsert_readable`   creating a derived object, or merging it over any object;
* `ensures_prune_readable`    listing objects and deleting some of them;
* `ensures_tryRecord_readable`   recording a condition, in whatever Connector.
-/

namespace ConnectorControl

open Decode

/-- a stored value is an object that reads, and as a Connector or a Secret where one is kept -/
structure Json.ReadsAs (kind : Kind) (v : Json) : Prop where
  canonical : v.Canonical
  object : ∃ o, Object.decode v = .ok o ∧
    (kind = .connector → Succeeds (o.decodeAs Connector.decode)) ∧
      (kind = .secret → Succeeds (o.decodeAs Secret.decode))

theorem Json.ReadsAs.of_derived {kind : DerivedKind} {v : Json} (hv : v.Canonical)
    (h : Succeeds (Object.decode v)) : v.ReadsAs kind := by
  obtain ⟨o, ho⟩ := h
  exact ⟨hv, o, ho, nofun, nofun⟩

namespace Cluster

def Readable (s : Cluster) : Prop := ∀ k v, s.find? k = some v → v.ReadsAs k.kind

variable {s₀ s s' : Cluster} {k : ObjectKey} {ns name : String} {v : Json}

theorem readable_empty : empty.Readable := nofun

/-- one object is there that was not before, or is another one now -/
theorem Readable.changed (h : s.Readable) (hv : v.ReadsAs k.kind)
    (hs : ∀ k', s'.find? k' = if k' = k then some v else s.find? k') : s'.Readable := by
  intro k' v' hv'
  rw [hs] at hv'
  split at hv'
  next hk =>
    obtain rfl := Option.some.inj hv'
    rw [hk]
    exact hv
  · exact h k' v' hv'

theorem Readable.set (h : s.Readable) (hv : v.ReadsAs k.kind) : (s.set k v).Readable :=
  h.changed hv fun k' => find?_set s k k' v

theorem Readable.remove (h : s.Readable) (k : ObjectKey) : (s.remove k).Readable :=
  fun k' v' hv' => h k' v' (find?_of_find?_remove hv')

theorem readObject_of_decode {o : Object} (h : Object.decode v = .ok o) : readObject v = .ok o := by
  unfold readObject
  rw [h]

theorem Readable.readObject (h : s.Readable) (hv : s.find? k = some v) :
    ∃ o, readObject v = .ok o := by
  obtain ⟨o, ho, _⟩ := (h k v hv).object
  exact ⟨o, readObject_of_decode ho⟩

theorem Readable.holds_connector (h : s.Readable) (hv : s.find? ⟨.connector, ns, name⟩ = some v) :
    ∃ c, s.Holds .connector ns name Connector.decode c := by
  obtain ⟨o, ho, hconnector, _⟩ := (h _ v hv).object
  obtain ⟨c, hc⟩ := hconnector rfl
  exact ⟨c, v, o, hv, readObject_of_decode ho, hc⟩

theorem Readable.holds_secret (h : s.Readable) (hv : s.find? ⟨.secret, ns, name⟩ = some v) :
    ∃ secret, s.Holds .secret ns name Secret.decode secret := by
  obtain ⟨o, ho, _, hsecret⟩ := (h _ v hv).object
  obtain ⟨secret, hread⟩ := hsecret rfl
  exact ⟨secret, v, o, hv, readObject_of_decode ho, hread⟩

/-- a readable store that differs from another one in derived objects at most -/
structure ReadableFrom (s₀ s : Cluster) : Prop where
  readable : s.Readable
  inputs : s₀.SameInputs s

theorem Readable.refl (h : s.Readable) : s.ReadableFrom s := ⟨h, .refl s⟩

end Cluster

/-! ## drafts -/

structure Draft.Proper (x : Draft) : Prop where
  canonical : x.spec.Canonical
  isNull : x.spec.isNull = false

theorem Draft.Proper.reads {x : Draft} (hx : x.Proper) (c : Connector) : (x.toObject c).Reads := by
  have hread : Object.decode (x.toObject c).toJson = .ok (x.toObject c) :=
    Object.decode_ofSpec Metadata.timeless_ofOwned
  exact ⟨Derived.canonical_toJson hx.canonical, Object.find?_body_metadata hread, _, hread⟩

theorem Draft.proper_deployment (c : Connector) : (Draft.deployment c).Proper :=
  ⟨(Deployment.clean_spec _).canonical, rfl⟩

namespace ScalePlan

variable {c : Connector} {rule : ScalingRule} {x : Draft}

theorem proper_none (hx : x ∈ (none c).drafts) : x.Proper := by cases hx

theorem proper_http {http : HttpScaling} {port : Int32}
    (hx : x ∈ (ScalePlan.http c rule http port).drafts) : x.Proper := by
  rcases List.mem_cons.1 hx with rfl | hx
  · exact ⟨Service.canonical_spec _, rfl⟩
  · obtain rfl := List.mem_singleton.1 hx
    exact ⟨HttpScaledObject.canonical_spec _, rfl⟩

theorem proper_custom {custom : CustomScaling} {planned : List PlannedTrigger}
    (hx : x ∈ (ScalePlan.custom c rule custom planned).drafts) : x.Proper := by
  rcases List.mem_append.1 hx with hx | hx
  · obtain ⟨a, _, rfl⟩ := List.mem_map.1 hx
    exact ⟨a.canonical_spec, rfl⟩
  · obtain rfl := List.mem_singleton.1 hx
    exact ⟨ScaledObject.canonical_spec _, rfl⟩

end ScalePlan

/-! ## upserts -/

section
variable {s₀ s s' : Cluster} {ns : String} {c : Connector} {x : Draft} {w : Json}

theorem Pass.Upserted.readsAs (h : s.Readable) (hx : x.Proper)
    (hu : Upserted x.kind ns x.name (x.toObject c) s w s') : w.ReadsAs x.kind := by
  cases hu with
  | created hnone =>
    have hstored : s.stamp ns (x.toObject c).stripNulls = _ := Derived.stamp_object s hx.isNull
    rw [hstored]
    refine .of_derived ?_ ⟨_, Object.decode_ofSpec Metadata.timeless_ofOwned⟩
    exact Object.canonical_ofSpec Metadata.canonical_ofOwned
      (Json.canonical_stripNulls hx.canonical)
  | patched v hv _ =>
    obtain ⟨hcanonical, o, ho, _⟩ := h _ v hv
    have hreads := hx.reads c
    exact .of_derived (Json.canonical_merge hcanonical hreads.canonical)
      (Object.succeeds_merge hcanonical hreads.canonical ⟨o, ho⟩ hreads.succeeds)

theorem Cluster.ReadableFrom.upserted (h : s₀.ReadableFrom s) (hx : x.Proper)
    (hu : Pass.Upserted x.kind ns x.name (x.toObject c) s w s') : s₀.ReadableFrom s' :=
  ⟨h.readable.changed (k := ⟨x.kind, ns, x.name⟩) (hu.readsAs h.readable hx) hu.find?,
    h.inputs.upserted hu⟩

end

namespace Pass

variable {d : Disturbance} {s₀ s : Cluster} {ns : String} {c : Connector} {x : Draft}
  {xs : List Draft} {desired : List (DerivedKind × String)}

/-- an upsert keeps a store readable, and it fails only if something comes between -/
theorem ensures_upsert_readable (hs : s₀.ReadableFrom s) (hx : x.Proper) :
    Ensures d (fun _ _ => True) (upsert x.kind ns (x.toObject c)) s
      (fun _ s' => s₀.ReadableFrom s') fun _ s' => ¬d.Quiet ∧ s₀.ReadableFrom s' := by
  have hname : (x.toObject c).metadata.name = some x.name := rfl
  refine ensures_upsert hname trivial trivial trivial (fun _ _ _ _ hu _ _ => hs.upserted hx hu)
    (fun e he => ?_) fun e w s' hu he => ?_
  · rcases he with hd | ⟨v, hv, he⟩
    · exact ⟨hd, hs⟩
    · obtain ⟨o, ho⟩ := hs.readable.readObject hv
      rw [ho] at he
      cases he
  · obtain ⟨o, ho, _⟩ := (hu.readsAs hs.readable hx).object
    rw [Cluster.readObject_of_decode ho] at he
    cases he

theorem ensures_upsertAll_readable (hs : s₀.ReadableFrom s) (hxs : ∀ x ∈ xs, x.Proper) :
    Ensures d (fun _ _ => True) (upsertAll c ns xs) s
      (fun _ s' => s₀.ReadableFrom s') fun _ s' => ¬d.Quiet ∧ s₀.ReadableFrom s' := by
  induction xs generalizing s with
  | nil => exact hs
  | cons x xs ih =>
    unfold upsertAll
    rw [ensures_bind]
    refine (ensures_upsert_readable hs (hxs x List.mem_cons_self)).mono_ok fun _ s' hs' => ?_
    exact ih hs' fun y hy => hxs y (List.mem_cons_of_mem x hy)

/-! ## pruning -/

theorem ensures_prune_readable (hs : s₀.ReadableFrom s) :
    Ensures d (fun _ _ => True) (prune c ns desired) s
      (fun _ s' => s₀.ReadableFrom s') fun _ s' => ¬d.Quiet ∧ s₀.ReadableFrom s' := by
  unfold prune
  cases c.metadata.uid with
  | none => exact hs
  | some uid =>
    refine ensures_pruneKinds (J := fun _ => s₀.ReadableFrom) (fun kind kinds s hs => ?_) hs
    have hdelete : ∀ found, Ensures d (fun _ _ => True) (deleteStale desired uid ns kind found) s
        (fun _ s' => s₀.ReadableFrom s') fun _ s' => ¬d.Quiet ∧ s₀.ReadableFrom s' := by
      intro found
      refine (ensures_deleteStale (J := s₀.ReadableFrom) (fun _ _ _ _ _ => trivial)
        (fun o _ _ s hs => ?_) (fun e s hd hs => ⟨hd, hs⟩) hs).mono_ok fun _ _ h => h.1
      exact ⟨hs.readable.remove _, hs.inputs.remove _ _ _⟩
    refine ensures_list trivial (fun found _ => hdelete found) (fun _ => hdelete []) fun e he => ?_
    rcases he with hd | he
    · exact ⟨hd, hs⟩
    · -- every object that is selected can be read
      obtain ⟨v, hv, he⟩ := mapM_error he
      obtain ⟨name, hv, _⟩ := Cluster.mem_select.1 hv
      obtain ⟨o, ho⟩ := hs.readable.readObject hv
      rw [ho] at he
      cases he

/-! ## recording -/

theorem ensures_tryRecord_readable (hs : s.Readable) (cond : Condition) :
    Program.Ensures d (fun _ _ => True) (tryRecord c ns cond) s fun _ s' => s'.Readable := by
  refine ensures_tryRecord_iff.2 (ensures_record (fun _ => hs) fun status hafter =>
    ensures_call.2 ⟨trivial, fun r s' hr => ?_⟩)
  rcases hr.of_patchStatus with ⟨e, rfl, rfl, _⟩ | ⟨_, rfl, rfl⟩ | ⟨v, hv, rfl, rfl⟩
  · exact hs
  · exact hs
  · obtain ⟨hcanonical, o, ho, hconnector, _⟩ := hs _ v hv
    obtain ⟨c', hc'⟩ := hconnector rfl
    have hconditions : status.conditions ≠ [] := by
      rw [eq_of_statusAfter hafter]
      exact History.push_ne_nil
    obtain ⟨o', _, ho', hread, -⟩ := Connector.decode_merge_status hcanonical ho hc' hconditions
    have hpatch : (Json.object [("status", status.toJson)]).Canonical :=
      Json.canonical_object (List.forall_mem_singleton.2 Status.canonical_toJson)
    exact hs.set ⟨Json.canonical_merge hcanonical hpatch, o', ho', fun _ => ⟨_, hread⟩, nofun⟩

end Pass
end ConnectorControl
