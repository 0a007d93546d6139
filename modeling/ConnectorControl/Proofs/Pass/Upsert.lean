import ConnectorControl.Pass.Upsert
import ConnectorControl.Proofs.Store.Ensures
import ConnectorControl.Proofs.Store.Replies

/-!
# What an upsert does

An upsert either leaves the cluster as it is and fails, or it creates its object or merges it over
the one of its name (`Upserted`), after which it may still fail, namely when what it wrote does not
read as an object.  `ensures_upsert` says so under any disturbance.
-/

namespace ConnectorControl
namespace Pass

variable {d : Disturbance} {P : Call → Cluster → Prop} {kind : DerivedKind} {ns name : String}
  {o : Object} {s s' : Cluster} {w : Json}

/-- an object was created, or merged over the one of its name -/
inductive Upserted (kind : DerivedKind) (ns name : String) (o : Object) (s : Cluster) :
    Json → Cluster → Prop
  | created (h : s.find? ⟨kind, ns, name⟩ = none) :
    Upserted kind ns name o s (s.stamp ns o.stripNulls).toJson
      (s.add ⟨kind, ns, name⟩ (s.stamp ns o.stripNulls).toJson)
  | patched (v : Json) (h : s.find? ⟨kind, ns, name⟩ = some v)
    (hread : ∃ o', Cluster.readObject v = .ok o') :
    Upserted kind ns name o s (v.merge o.toJson) (s.set ⟨kind, ns, name⟩ (v.merge o.toJson))

theorem Upserted.find? (h : Upserted kind ns name o s w s') (k : ObjectKey) :
    s'.find? k = if k = ⟨kind, ns, name⟩ then some w else s.find? k := by
  cases h with
  | created h => exact Cluster.find?_add s _ k _
  | patched v h hread => exact Cluster.find?_set s _ k _

theorem Upserted.find?_self (h : Upserted kind ns name o s w s') :
    s'.find? ⟨kind, ns, name⟩ = some w := by
  rw [h.find?, if_pos rfl]

theorem Upserted.find?_of_ne (h : Upserted kind ns name o s w s') {k : ObjectKey}
    (hk : k ≠ ⟨kind, ns, name⟩) : s'.find? k = s.find? k := by
  rw [h.find?, if_neg hk]

theorem ensures_patchOver {Q : Applied → Cluster → Prop} {E : Failure → Cluster → Prop}
    (hget : P (.get kind ns name) s) (hpatch : P (.patch kind ns name o.toJson) s)
    (hQ : ∀ w s' o', Upserted kind ns name o s w s' → Cluster.readObject w = .ok o' →
      Q .patched s')
    (hE : ∀ e, ¬d.Quiet ∨ s.find? ⟨kind, ns, name⟩ = none ∨
      (∃ v, s.find? ⟨kind, ns, name⟩ = some v ∧ Cluster.readObject v = .error e) → E e s)
    (hE' : ∀ e w s', Upserted kind ns name o s w s' → Cluster.readObject w = .error e → E e s') :
    Ensures d P (patchOver kind ns name o) s Q E := by
  unfold patchOver
  rw [ensures_bind]
  refine ensures_call.2 ⟨hget, fun r s' hr => ?_⟩
  obtain ⟨rfl, hr⟩ := hr.of_get
  rcases hr with ⟨e, rfl, hf⟩ | ⟨rfl, hn⟩ | ⟨v, hv, rfl⟩
  · exact hE e (.inl fun hd => (hd _).1 hf)
  · refine ensures_throw.2 (hE _ ?_)
    rcases hn with hn | hh
    · exact .inr (.inl hn)
    · exact .inl fun hd => (hd _).2 hh
  · cases hv' : Cluster.readObject v with
    | error e => exact hE e (.inr (.inr ⟨v, hv, hv'⟩))
    | ok o' =>
      show Ensures d P (patch kind ns name o.toJson >>= fun _ => pure Applied.patched) _ Q E
      rw [ensures_bind]
      refine ensures_call.2 ⟨hpatch, fun r s'' hr => ?_⟩
      rcases hr.of_patch with ⟨e, rfl, rfl, hf⟩ | ⟨hn, _⟩ | ⟨v', hv'', rfl, rfl⟩
      · exact hE e (.inl fun hd => (hd _).1 hf)
      · rw [hv] at hn
        cases hn
      · obtain rfl := Option.some.inj (hv.symm.trans hv'')
        have hu := Upserted.patched (o := o) v hv ⟨o', hv'⟩
        cases hw : Cluster.readObject (v.merge o.toJson) with
        | error e => exact hE' e _ _ hu hw
        | ok o'' => exact ensures_pure.2 (hQ _ _ _ hu hw)

/-- an upsert fails and leaves everything alone, or it has written its object -/
theorem ensures_upsert {Q : Applied → Cluster → Prop} {E : Failure → Cluster → Prop}
    (hn : o.metadata.name = some name) (hcreate : P (.create kind ns o.stripNulls) s)
    (hget : P (.get kind ns name) s) (hpatch : P (.patch kind ns name o.toJson) s)
    (hQ : ∀ a w s' o', Upserted kind ns name o s w s' → Cluster.readObject w = .ok o' →
      (s.find? ⟨kind, ns, name⟩ ≠ none → a = .patched) → Q a s')
    (hE : ∀ e, ¬d.Quiet ∨
      (∃ v, s.find? ⟨kind, ns, name⟩ = some v ∧ Cluster.readObject v = .error e) → E e s)
    (hE' : ∀ e w s', Upserted kind ns name o s w s' → Cluster.readObject w = .error e → E e s') :
    Ensures d P (upsert kind ns o) s Q E := by
  unfold upsert
  rw [hn]
  show Ensures d P (always (Program.attempt (.create kind ns o.stripNulls)) >>= _) s Q E
  rw [ensures_bind, ensures_always]
  refine ⟨hcreate, fun r s' hr => ?_⟩
  have hn' : o.stripNulls.metadata.name = some name := hn
  have hover : ∀ w s' o', Upserted kind ns name o s w s' → Cluster.readObject w = .ok o' →
      Q .patched s' := fun w s' o' hu hw => hQ _ w s' o' hu hw fun _ => rfl
  rcases hr.of_create hn' with ⟨e, rfl, rfl, hf⟩ | ⟨v, hv, rfl, rfl⟩ | ⟨hnone, rfl, rfl⟩
  · -- a failure may look like an object that is there already
    have hd : ¬d.Quiet := fun hd => (hd _).1 hf
    simp only [Program.Ensures]
    split
    next h => cases h
    · exact ensures_patchOver hget hpatch hover (fun e _ => hE e (.inl hd)) hE'
    · exact ensures_throw.2 (hE _ (.inl hd))
  · refine ensures_patchOver hget hpatch hover (fun e he => hE e ?_) hE'
    rcases he with hd | hnone | he
    · exact .inl hd
    · rw [hv] at hnone
      cases hnone
    · exact .inr he
  · have hu := Upserted.created (o := o) hnone
    cases hw : Cluster.readObject (s.stamp ns o.stripNulls).toJson with
    | ok o' => exact hQ _ _ _ _ hu hw fun h => absurd hnone h
    | error e =>
      obtain ⟨e', rfl⟩ : ∃ e', e = .undecodable e' := by
        unfold Cluster.readObject at hw
        split at hw
        · cases hw
        next e' _ => exact ⟨e', (Except.error.inj hw).symm⟩
      exact hE' _ _ _ hu hw

end Pass
end ConnectorControl
