import ConnectorControl.Proofs.Derived.Names
import ConnectorControl.Proofs.Pass.Filing

/-!
# What a Connector's pass tends

A pass tends the objects under the Connector's names (`Identity.Owns`) and leaves the others alone,
as long as nothing under another name belongs to the Connector (`Identity.NamesOwn`).  What a pass
makes of a store is summed up in `Tended`: it is kept by upserts, by deletions and by what is
recorded.

No key is owned by two Connectors (`Owns.eq`).  So for another Connector, a store that has been
tended is level with the one before (`Tended.level`): wherever a pass of that Connector looks, the
two stores hold the same.
-/

namespace ConnectorControl
namespace Identity

/-- the keys of the objects that a Connector may ask for -/
def Owns (i : Identity) (k : ObjectKey) : Prop :=
  ∃ kind name, k = i.key kind name ∧ i.Names kind name

/-- what carries the Connector's label and has it as its controller is under one of its names -/
def NamesOwn (i : Identity) (s : Cluster) : Prop :=
  ∀ kind name v, s.find? (i.key kind name) = some v → i.labels v = true → i.controls v = true →
    i.Names kind name

/-- the Connector of the namespace and the name, if there is one to read, has the UID -/
def KnownIn (i : Identity) (s : Cluster) : Prop :=
  ∀ c, s.Holds .connector i.ns i.name Connector.decode c → c.metadata.uid = i.uid

variable {a b i : Identity} {k : ObjectKey} {kind : DerivedKind} {name : String} {v : Json}

/-- no two Connectors own a key, whatever the one's name has in common with the other's -/
theorem Owns.eq (ha : a.Owns k) (hb : b.Owns k) : (a.ns, a.name) = (b.ns, b.name) := by
  obtain ⟨kind, name, rfl, hname⟩ := ha
  obtain ⟨kind', name', hk, hname'⟩ := hb
  simp only [key, ObjectKey.mk.injEq, Kind.derived.injEq] at hk
  obtain ⟨rfl, hns, rfl⟩ := hk
  rw [hns, hname.name_eq hname']

theorem key_ne_connectorKey (i j : Identity) : i.key kind name ≠ j.connectorKey := nofun

theorem Owns.ne_connector (h : i.Owns k) (j : Identity) : k ≠ j.connectorKey := by
  obtain ⟨kind, name, rfl, _⟩ := h
  exact i.key_ne_connectorKey j

theorem connectorKey_ne (h : (a.ns, a.name) ≠ (b.ns, b.name)) :
    a.connectorKey ≠ b.connectorKey := by
  intro hk
  simp only [connectorKey, ObjectKey.mk.injEq, true_and] at hk
  exact h (by rw [hk.1, hk.2])

theorem owns_key : i.Owns (i.key kind name) ↔ i.Names kind name := by
  constructor
  · rintro ⟨kind', name', hk, hname⟩
    simp only [key, ObjectKey.mk.injEq, Kind.derived.injEq, true_and] at hk
    obtain ⟨rfl, rfl⟩ := hk
    exact hname
  · exact fun hname => ⟨kind, name, rfl, hname⟩

theorem name_eq_of_labels (ha : a.labels v = true) (hb : b.labels v = true) : a.name = b.name := by
  unfold labels at ha hb
  exact Option.some.inj ((of_decide_eq_true ha).symm.trans (of_decide_eq_true hb))

end Identity

namespace Pass

theorem IsMount.ne_connector {ns : String} {k : ObjectKey} (h : IsMount ns k) (i : Identity) :
    k ≠ i.connectorKey := by
  rintro rfl
  rcases h.2 with hk | hk <;> cases hk

theorem IsMount.not_owned {ns : String} {k : ObjectKey} (h : IsMount ns k) (i : Identity) :
    ¬i.Owns k := by
  rintro ⟨kind, name, rfl, _⟩
  rcases h.2 with hk | hk <;> cases hk

/-- what a Connector's pass makes of a store -/
structure Tended (i : Identity) (s₀ s : Cluster) : Prop where
  filed : s.Filed
  others : ∀ k, k ≠ i.connectorKey → ¬i.Owns k → s.find? k = s₀.find? k
  owned : ∀ k v, i.Owns k → s.find? k = some v → s₀.find? k = some v ∨ i.labels v = true
  unread : ∀ k v e, k ≠ i.connectorKey → s₀.find? k = some v →
    Cluster.readObject v = .error e → s.find? k = some v

/-- two stores that hold the same wherever a Connector's pass looks -/
structure Level (i : Identity) (s t : Cluster) : Prop where
  filed : s.Filed ∧ t.Filed
  namesOwn : i.NamesOwn s ∧ i.NamesOwn t
  connector : s.find? i.connectorKey = t.find? i.connectorKey
  mounts : ∀ k, IsMount i.ns k → s.find? k = t.find? k
  owned : ∀ k, i.Owns k → s.find? k = t.find? k
  unread : ∀ kind name v e, i.labels v = true → Cluster.readObject v = .error e →
    (s.find? (i.key kind name) = some v ↔ t.find? (i.key kind name) = some v)

section
variable {a b i : Identity} {c : Connector} {s₀ s s' : Cluster} {k : ObjectKey} {x : Draft}
  {v w : Json}

/-! ## what a pass keeps -/

theorem Tended.refl (h : s.Filed) : Tended i s s :=
  ⟨h, fun _ _ _ => rfl, fun _ _ _ => .inl, fun _ _ _ _ hv _ => hv⟩

theorem Tended.upserted (h : Tended i s₀ s) (hi : i.Describes c) (hx : x.Fits i)
    (hu : Upserted x.kind i.ns x.name (x.toObject c) s w s') : Tended i s₀ s' := by
  have howns : i.Owns (x.key i.ns) := ⟨x.kind, x.name, rfl, hx.names⟩
  have hlabel : i.labels w = true := by
    cases hu with
    | created hnone =>
      rw [show (s.stamp i.ns (x.toObject c).stripNulls).toJson = _ from
        hi.stored_of_create s hx.isSpec.isNull]
      exact Identity.labels_stored
    | patched v hv hread => exact hi.labels_merge hx.isSpec.canonical v
  refine ⟨filed_upserted h.filed hi hx hu, fun k hk hno => ?_, fun k v howned hv => ?_,
    fun k v e hk hv he => ?_⟩
  · rw [hu.find?_of_ne]
    · exact h.others k hk hno
    · rintro rfl
      exact hno howns
  · rw [hu.find?] at hv
    split at hv
    · obtain rfl := Option.some.inj hv
      exact .inr hlabel
    · exact h.owned k v howned hv
  · have hs := h.unread k v e hk hv he
    rw [hu.find?_of_ne]
    · exact hs
    · -- what is patched has been read, and what is created was not there
      rintro rfl
      cases hu with
      | created hnone =>
        rw [hnone] at hs
        cases hs
      | patched v' hv' hread =>
        obtain rfl := Option.some.inj (hs.symm.trans hv')
        obtain ⟨o, ho⟩ := hread
        rw [he] at ho
        cases ho

theorem Tended.remove (h : Tended i s₀ s) (howns : i.Owns k)
    (hread : ∀ v e, s₀.find? k = some v → Cluster.readObject v ≠ .error e) :
    Tended i s₀ (s.remove k) := by
  have hstays : ∀ k', k' ≠ k → (s.remove k).find? k' = s.find? k' := fun k' hk' => by
    rw [Cluster.find?_remove, if_neg hk']
  refine ⟨h.filed.remove, fun k' hk' hno => ?_, fun k' v howned hv => ?_,
    fun k' v e hk' hv he => ?_⟩
  · rw [hstays]
    · exact h.others k' hk' hno
    · rintro rfl
      exact hno howns
  · exact h.owned k' v howned (Cluster.find?_of_find?_remove hv)
  · rw [hstays]
    · exact h.unread k' v e hk' hv he
    · rintro rfl
      exact hread v e hv he

theorem Tended.recorded (h : Tended i s₀ s) (hv : s.find? i.connectorKey = some v)
    (status : Status) :
    Tended i s₀ (s.set i.connectorKey (Cluster.patchedStatus v status)) := by
  have hstays : ∀ k, k ≠ i.connectorKey →
      (s.set i.connectorKey (Cluster.patchedStatus v status)).find? k = s.find? k := fun k hk => by
    rw [Cluster.find?_set, if_neg hk]
  have hkept := h.filed.kept.recorded hv status
  refine ⟨⟨hkept.canonical, fun k v' hv' => ?_⟩, fun k hk hno => ?_, fun k v' howned hv' => ?_,
    fun k v' e hk hv' he => ?_⟩
  · by_cases hk : k = i.connectorKey
    · subst hk
      exact hkept.filed i.connectorKey v' rfl hv'
    · rw [hstays k hk] at hv'
      exact h.filed.filed k v' hv'
  · rw [hstays k hk]
    exact h.others k hk hno
  · rw [hstays k (howned.ne_connector i)] at hv'
    exact h.owned k v' howned hv'
  · rw [hstays k hk]
    exact h.unread k v' e hk hv' he

theorem Tended.namesOwn (h : Tended i s₀ s) (hi : i.NamesOwn s₀) : i.NamesOwn s := by
  intro kind name v hv hlabel howner
  by_cases hname : i.Names kind name
  · exact hname
  · rw [h.others _ (i.key_ne_connectorKey i) (mt Identity.owns_key.1 hname)] at hv
    exact hi kind name v hv hlabel howner

theorem Tended.mounts {ns : String} (h : Tended i s₀ s) (hk : IsMount ns k) :
    s.find? k = s₀.find? k :=
  h.others k (hk.ne_connector i) (hk.not_owned i)

/-! ## what another Connector sees of it -/

theorem Level.refl (hs : s.Filed) (hi : i.NamesOwn s) : Level i s s :=
  ⟨⟨hs, hs⟩, ⟨hi, hi⟩, rfl, fun _ _ => rfl, fun _ _ => rfl, fun _ _ _ _ _ _ => Iff.rfl⟩

/-- to another Connector's pass a store looks the same after one has been tended -/
theorem Tended.level (h : Tended a s s') (hs : s.Filed) (hb : b.NamesOwn s)
    (hne : (a.ns, a.name) ≠ (b.ns, b.name)) : Level b s s' := by
  -- an object with the other Connector's label in its namespace was there before
  have hbefore : ∀ kind name v, s'.find? (b.key kind name) = some v → b.labels v = true →
      s.find? (b.key kind name) = some v := by
    intro kind name v hv hlabel
    by_cases howned : a.Owns (b.key kind name)
    · rcases h.owned _ v howned hv with hv | hlabel'
      · exact hv
      · obtain ⟨_, _, hk, _⟩ := howned
        have hns : b.ns = a.ns := congrArg ObjectKey.ns hk
        exact absurd (by rw [hns, Identity.name_eq_of_labels hlabel' hlabel]) hne
    · rw [← h.others _ (b.key_ne_connectorKey a) howned]
      exact hv
  refine ⟨⟨hs, h.filed⟩, ⟨hb, fun kind name v hv hlabel howner => ?_⟩, ?_,
    fun k hk => (h.mounts hk).symm, fun k howned => ?_,
    fun kind name v e hlabel he => ⟨fun hv => ?_, fun hv => ?_⟩⟩
  · exact hb kind name v (hbefore kind name v hv hlabel) hlabel howner
  · exact (h.others _ (Identity.connectorKey_ne hne).symm fun ho => ho.ne_connector b rfl).symm
  · exact (h.others k (howned.ne_connector a) fun ha => hne (ha.eq howned)).symm
  · exact h.unread _ v e (b.key_ne_connectorKey a) hv he
  · exact hbefore kind name v hv hlabel

end
end Pass
end ConnectorControl
