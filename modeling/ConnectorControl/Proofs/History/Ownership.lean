import ConnectorControl.Proofs.Derived.Selection
import ConnectorControl.Proofs.Pass.Planned

/-!
# What a Connector has in the store

A store is in order for a Connector (`Identity.Orderly`) when under the Connector's names there is
nothing but what passes have written for it, and when nothing under other names belongs to it.  A
fresh store is in order, and so is a store after any upsert of a fitting object and after any
deletion.

What an upsert leaves is known exactly: it is the object that a create would have stored, but for
the UID and for a replica count that is left open (`Written`).
-/

namespace ConnectorControl
namespace Identity

variable (i : Identity)

/-- whether a value, read as an object, has the Connector among its owners -/
def owns (v : Json) : Bool :=
  match Cluster.readObject v with
  | .ok o => i.uid.any fun uid => (o.metadata.ownerReferences.getD []).any fun r => r.uid = uid
  | .error _ => false

/-- an object as passes store it -/
def Made (kind : DerivedKind) (name : String) (v : Json) : Prop :=
  ∃ uid spec, i.IsSpec kind spec ∧ v = i.stored kind name uid spec.stripNulls

/-- neither the label nor an owner reference of the Connector -/
structure Foreign (v : Json) : Prop where
  labels : i.labels v = false
  owns : i.owns v = false

/-- no object has a name of the Connector, its label, or it as an owner -/
def Fresh (s : Cluster) : Prop :=
  ∀ kind name v, s.find? (i.key kind name) = some v → ¬i.Names kind name ∧ i.Foreign v

/-- under the Connector's names there is what passes have stored, and elsewhere nothing of it -/
def Orderly (s : Cluster) : Prop :=
  ∀ kind name v, s.find? (i.key kind name) = some v →
    i.Names kind name ∧ i.Made kind name v ∨ ¬i.Names kind name ∧ i.Foreign v

def Written (x : Draft) (v : Json) : Prop :=
  ∃ uid spec, i.IsSpec x.kind spec ∧ x.spec.stripNulls.Fills spec.stripNulls ∧
    (x.kind ≠ .deployment → spec = x.spec) ∧ v = i.stored x.kind x.name uid spec.stripNulls

variable {i} {s s' : Cluster} {kind : DerivedKind} {name : String} {v w : Json}

theorem Made.readObject (h : i.Made kind name v) :
    ∃ uid spec, Cluster.readObject v = .ok (i.object kind name uid spec) := by
  obtain ⟨uid, spec, _, rfl⟩ := h
  exact ⟨uid, _, readObject_stored⟩

theorem Written.made {x : Draft} (h : i.Written x v) : i.Made x.kind x.name v := by
  obtain ⟨uid, spec, hspec, _, _, hv⟩ := h
  exact ⟨uid, spec, hspec, hv⟩

theorem controls_of_owns (h : i.owns v = false) : i.controls v = false := by
  unfold owns at h
  unfold controls
  split
  next o ho =>
    rw [ho] at h
    cases hu : i.uid with
    | none => rfl
    | some uid =>
      rw [hu] at h
      simp only [Option.any_some, List.any_eq_false, decide_eq_true_eq] at h
      rw [Option.any_some]
      unfold Metadata.isControlledBy
      rw [List.any_eq_false]
      intro r hr hc
      simp only [Bool.and_eq_true, decide_eq_true_eq] at hc
      exact h r hr hc.2
  · rfl

theorem controls_of_foreign (h : i.Foreign v) : i.controls v = false := controls_of_owns h.owns

theorem Fresh.orderly (h : i.Fresh s) : i.Orderly s := fun kind name v hv => .inr (h kind name v hv)

theorem Orderly.made (h : i.Orderly s) (hn : i.Names kind name)
    (hv : s.find? (i.key kind name) = some v) : i.Made kind name v := by
  rcases h kind name v hv with hm | hf
  · exact hm.2
  · exact absurd hn hf.1

theorem Orderly.congr (h : i.Orderly s)
    (hs : ∀ kind name, s'.find? (i.key kind name) = s.find? (i.key kind name)) : i.Orderly s' :=
  fun kind name v hv => h kind name v (by rw [← hs]; exact hv)

theorem Orderly.remove (h : i.Orderly s) (k : ObjectKey) : i.Orderly (s.remove k) := by
  intro kind name v hv
  exact h kind name v (Cluster.find?_of_find?_remove hv)

/-- an upsert of a fitting object leaves a store in order, and in it what is asked for -/
theorem Orderly.upserted {c : Connector} {x : Draft} (h : i.Orderly s) (hi : i.Describes c)
    (hx : x.Fits i) (hu : Pass.Upserted x.kind i.ns x.name (x.toObject c) s w s') :
    i.Orderly s' ∧ i.Written x w := by
  have hw : i.Written x w := by
    cases hu with
    | created hn =>
      exact ⟨_, x.spec, hx.isSpec, .refl (Json.isTable_stripNulls hx.isSpec.isTable), fun _ => rfl,
        hi.stored_of_create s hx.isSpec.isNull⟩
    | patched v hv _ =>
      obtain ⟨uid, spec, hspec, rfl⟩ := h.made hx.names hv
      obtain ⟨r, hr, hmerge, hfills, hsame⟩ := hspec.merge hx.isSpec
      refine ⟨uid, r, hr, hfills, hsame, ?_⟩
      rw [← hmerge]
      exact hi.merge_stored hx.isSpec.isNull
  refine ⟨fun kind name v hv => ?_, hw⟩
  rw [hu.find?] at hv
  split at hv
  next hk =>
    obtain ⟨hkind, hname⟩ : kind = x.kind ∧ name = x.name := by simpa [key] using hk
    subst hkind hname
    obtain rfl := Option.some.inj hv
    exact .inl ⟨hx.names, hw.made⟩
  · exact h kind name v hv

end Identity
end ConnectorControl
