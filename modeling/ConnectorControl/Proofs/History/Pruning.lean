import ConnectorControl.Proofs.History.Links
import ConnectorControl.Proofs.Pass.Prune

/-!
# Pruning in order

While a pass is under way (`Underway`), the store is in order and linked, and all but the derived
objects are as they were at its start.  Pruning keeps this up, and when it is through, only what is
planned is left (`ensures_prune_built`).

A selector selects all that passes have stored, or nothing of it, since the objects carry the same
labels.  So even if it selects nothing, nothing is deleted that is still referred to.
-/

namespace ConnectorControl

/-- the second cluster differs from the first in derived objects at most -/
def Cluster.SameInputs (s t : Cluster) : Prop :=
  ∀ k : ObjectKey, (∀ kind : DerivedKind, k.kind ≠ kind) → t.find? k = s.find? k

variable {i : Identity} {s₀ s s' : Cluster} {c : Connector} {p : ScalePlan} {w : Json}

theorem Cluster.SameInputs.refl (s : Cluster) : s.SameInputs s := fun _ _ => rfl

theorem Cluster.SameInputs.upserted {kind : DerivedKind} {ns name : String} {o : Object}
    (h : s₀.SameInputs s) (hu : Pass.Upserted kind ns name o s w s') : s₀.SameInputs s' := by
  intro k hk
  rw [hu.find?_of_ne fun he => hk kind (by rw [he]), h k hk]

theorem Cluster.SameInputs.remove (h : s₀.SameInputs s) (kind : DerivedKind) (ns name : String) :
    s₀.SameInputs (s.remove ⟨kind, ns, name⟩) := by
  intro k hk
  rw [Cluster.find?_remove, if_neg fun he => hk kind (by rw [he]), h k hk]

namespace Identity

/-- what holds of the store at any time of a pass that has started from another one -/
structure Underway (i : Identity) (s₀ s : Cluster) : Prop where
  orderly : i.Orderly s
  linked : i.Linked s
  inputs : s₀.SameInputs s

/-- what holds once all that a pass wants has been written -/
structure Built (i : Identity) (s₀ : Cluster) (c : Connector) (p : ScalePlan) (s : Cluster) : Prop
    extends i.Underway s₀ s where
  deployment : ∃ v, s.find? (i.key .deployment i.name) = some v ∧ i.Written (.deployment c) v
  drafts : ∀ x ∈ p.drafts, ∃ v, s.find? (x.key i.ns) = some v ∧ i.Written x v

/-- every object of a kind under the Connector's names is planned -/
def Pruned (i : Identity) (p : ScalePlan) (kind : DerivedKind) (s : Cluster) : Prop :=
  ∀ name v, i.Names kind name → s.find? (i.key kind name) = some v →
    ∃ x ∈ p.drafts, x.kind = kind ∧ x.name = name

def Selects (i : Identity) : Prop :=
  ∀ kind name v, i.Made kind name v → Cluster.isSelected (Derived.selector i.name) v = true

theorem selects_of_made {kind : DerivedKind} {name : String} {v : Json} (h : i.Made kind name v)
    (hv : Cluster.isSelected (Derived.selector i.name) v = true) : i.Selects := by
  obtain ⟨uid, spec, _, rfl⟩ := h
  rintro kind' name' _ ⟨uid', spec', _, rfl⟩
  have hsame : Cluster.isSelected (Derived.selector i.name)
      (i.stored kind' name' uid' spec'.stripNulls) =
        Cluster.isSelected (Derived.selector i.name) (i.stored kind name uid spec.stripNulls) :=
    isSelected_stored _
  rw [hsame]
  exact hv

theorem selects_of_not_mem (h : ',' ∉ i.name.toList) : i.Selects := by
  rintro kind name _ ⟨uid, spec, _, rfl⟩
  rw [isSelected_selector h]
  exact labels_stored

theorem Pruned.mono {kind : DerivedKind} (h : i.Pruned p kind s)
    (hs : ∀ k v, s'.find? k = some v → s.find? k = some v) : i.Pruned p kind s' :=
  fun name v hn hv => h name v hn (hs _ _ hv)

/-- a kind is pruned after the kinds that refer to it -/
theorem prunable_split {kind : DerivedKind} {done kinds : List DerivedKind}
    (h : Derived.prunable = done ++ kind :: kinds) :
    kind ≠ .deployment ∧ (kind = .triggerAuthentication → .scaledObject ∈ done) ∧
      (kind = .service → .httpScaledObject ∈ done) := by
  have hmem : kind ∈ Derived.prunable := by
    rw [h]
    exact List.mem_append_right _ List.mem_cons_self
  refine ⟨fun hk => by rw [hk] at hmem; revert hmem; decide, ?_, ?_⟩
  · rintro rfl
    rcases done with _ | ⟨a, _ | ⟨b, done⟩⟩ <;> simp_all [Derived.prunable]
  · rintro rfl
    rcases done with _ | ⟨a, done⟩ <;> simp_all [Derived.prunable]

variable {auth : ScalerConfig} {scaling : Option ScalingRule} {s₁ : Cluster}

/-- an object that is not planned may go once what refers to it is gone -/
theorem Built.remove {kind : DerivedKind} {name : String} (h : i.Built s₀ c p s)
    (hi : i.Describes c) (hp : Pass.Planned s₁ auth c i.ns scaling p)
    (hstale : ∀ x ∈ p.drafts, x.kind = kind → x.name ≠ name) (hkind : kind ≠ .deployment)
    (hso : kind = .triggerAuthentication → i.Pruned p .scaledObject s)
    (hhttp : kind = .service → i.Pruned p .httpScaledObject s) :
    i.Built s₀ c p (s.remove (i.key kind name)) := by
  have hlinked : i.Linked (s.remove (i.key kind name)) := by
    refine Pass.linked_remove h.linked hi hp h.drafts hstale hkind (fun hk hv => ?_) fun hk hv => ?_
    · obtain ⟨v, hv⟩ := Option.isSome_iff_exists.1 hv
      obtain ⟨x, hx, hxk, _⟩ := hso hk _ v rfl hv
      exact ⟨x, hx, hxk⟩
    · obtain ⟨v, hv⟩ := Option.isSome_iff_exists.1 hv
      obtain ⟨x, hx, hxk, _⟩ := hhttp hk _ v rfl hv
      exact ⟨x, hx, hxk⟩
  refine ⟨⟨h.orderly.remove _, hlinked, h.inputs.remove _ _ _⟩, ?_, fun x hx => ?_⟩
  · exact Cluster.exists_find?_remove h.deployment (key_ne fun he => absurd he.symm hkind)
  · exact Cluster.exists_find?_remove (h.drafts x hx) (key_ne (hstale x hx))

theorem Made.of_readObject {kind : DerivedKind} {name : String} {v : Json} {o : Object}
    (h : i.Made kind name v) (ho : Cluster.readObject v = .ok o) :
    o.metadata.nameAny = name ∧ ∀ uid, i.uid = some uid → o.metadata.isControlledBy uid = true := by
  obtain ⟨uid, spec, hread⟩ := h.readObject
  obtain rfl := Except.ok.inj (hread.symm.trans ho)
  exact ⟨rfl, fun _ hu => isControlledBy_metadata hu⟩

theorem Orderly.made_of_controlled {kind : DerivedKind} {name uid : String} {v : Json} {o : Object}
    (h : i.Orderly s) (hv : s.find? (i.key kind name) = some v)
    (ho : Cluster.readObject v = .ok o) (hu : i.uid = some uid)
    (hc : o.metadata.isControlledBy uid = true) : i.Names kind name ∧ i.Made kind name v := by
  rcases h kind name v hv with hm | ⟨_, hf⟩
  · exact hm
  · have := controls_of_foreign hf
    unfold controls at this
    rw [ho, hu] at this
    change o.metadata.isControlledBy uid = false at this
    rw [hc] at this
    cases this

end Identity

namespace Pass

open Identity

variable {d : Disturbance} {auth : ScalerConfig} {scaling : Option ScalingRule} {s₁ : Cluster}
  {uid now : String} {kind : DerivedKind} {done kinds : List DerivedKind}

/-- the stale objects of a kind are deleted, once this is done for the kinds that refer to it -/
theorem ensures_deleteStale_built (hd : d.Tame) (hi : i.Describes c)
    (hp : Planned s₁ auth c i.ns scaling p) (hu : i.uid = some uid)
    (hsplit : Derived.prunable = done ++ kind :: kinds) (h : i.Built s₀ c p s)
    (hdone : i.Selects → ∀ k ∈ done, i.Pruned p k s) {found : List Object}
    (hfound : (s.select kind i.ns (Derived.selector i.name)).mapM Cluster.readObject = .ok found) :
    Ensures d (fun _ s => i.Linked s) (deleteStale (p.outcome now).desired uid i.ns kind found) s
      (fun _ s' => i.Built s₀ c p s' ∧ (i.Selects → ∀ k ∈ done ++ [kind], i.Pruned p k s'))
      fun _ s' => i.Built s₀ c p s' ∧ ¬d.Quiet := by
  obtain ⟨hkind, hauth, hservice⟩ := prunable_split hsplit
  -- a stale object is one that passes have stored, and not a planned one
  have hstale : ∀ o ∈ found, isStale (p.outcome now).desired uid kind o = true →
      i.Selects ∧ ∀ x ∈ p.drafts, x.kind = kind → x.name ≠ o.metadata.nameAny := by
    intro o ho hst
    obtain ⟨hnot, hcontrol⟩ := isStale_iff.1 hst
    obtain ⟨v, hv, hread⟩ := exists_of_mem_mapM hfound ho
    obtain ⟨name, hv, hsel⟩ := Cluster.mem_select.1 hv
    obtain ⟨_, hm⟩ := h.orderly.made_of_controlled hv hread hu hcontrol
    refine ⟨selects_of_made hm hsel, fun x hx hxk hxn => hnot ?_⟩
    exact (hp.mem_desired now).2 ⟨x, hx, hxk, hxn⟩
  refine (ensures_deleteStale (J := fun s' => i.Built s₀ c p s' ∧
    (i.Selects → ∀ k ∈ done, i.Pruned p k s') ∧ ∀ k v, s'.find? k = some v → s.find? k = some v)
    (fun _ _ _ _ hJ => hJ.1.linked) (fun o ho hst s' hJ => ?_) (fun e s' hq hJ => ⟨hJ.1, hq⟩)
    ⟨h, hdone, fun _ _ hv => hv⟩).mono_ok fun _ s' hJ => ⟨hJ.1.1, fun hsel k hk => ?_⟩
  · obtain ⟨hsel, hne⟩ := hstale o ho hst
    refine ⟨hJ.1.remove hi hp hne hkind (fun hk => hJ.2.1 hsel _ (hauth hk))
      fun hk => hJ.2.1 hsel _ (hservice hk), fun _ k hk => ?_, fun k v hv => ?_⟩
    · exact (hJ.2.1 hsel k hk).mono fun _ _ hv => Cluster.find?_of_find?_remove hv
    · exact hJ.2.2 k v (Cluster.find?_of_find?_remove hv)
  · rcases List.mem_append.1 hk with hk | hk
    · exact hJ.1.2.1 hsel k hk
    obtain rfl := List.mem_singleton.1 hk
    intro name v hn hv
    -- the object has been listed, and it is still there
    have hv' := hJ.1.2.2 _ v hv
    have hm := h.orderly.made hn hv'
    obtain ⟨o, ho, hread⟩ := mem_mapM_of_mem hfound
      (Cluster.mem_select.2 ⟨name, hv', hsel _ _ _ hm⟩)
    obtain ⟨hname, hcontrol⟩ := hm.of_readObject hread
    refine (hp.mem_desired now).1 ?_
    by_contra hnot
    have hgone := hJ.2 hd.shows o ho (isStale_iff.2 ⟨by rw [hname]; exact hnot, hcontrol uid hu⟩)
    rw [hname] at hgone
    rw [show s'.find? (i.key k name) = none from hgone] at hv
    cases hv

/-- pruning leaves what is planned, and only that if it is selected -/
theorem ensures_prune_built (hd : d.Tame) (hi : i.Describes c)
    (hp : Planned s₁ auth c i.ns scaling p) (h : i.Built s₀ c p s) :
    Ensures d (fun _ s => i.Linked s) (prune c i.ns (p.outcome now).desired) s
      (fun _ s' => i.Built s₀ c p s' ∧ (',' ∉ i.name.toList → i.uid.isSome →
        ∀ kind ∈ Derived.prunable, i.Pruned p kind s'))
      fun _ s' => i.Built s₀ c p s' ∧ (d.Quiet → ',' ∈ i.name.toList) := by
  unfold prune
  rw [hi.uid, hi.connector_name]
  cases hu : i.uid with
  | none => exact ⟨h, fun _ hno => absurd hno (by decide)⟩
  | some uid =>
    let J : List DerivedKind → Cluster → Prop := fun kinds s =>
      ∃ done, Derived.prunable = done ++ kinds ∧ i.Built s₀ c p s ∧
        (i.Selects → ∀ k ∈ done, i.Pruned p k s)
    refine (ensures_pruneKinds (J := J) (fun kind kinds s hJ => ?_)
      ⟨[], rfl, h, fun _ _ hk => absurd hk List.not_mem_nil⟩).mono_ok fun _ s' hJ => ?_
    · obtain ⟨done, hsplit, hbuilt, hdone⟩ := hJ
      refine ensures_list hbuilt.linked (fun found hfound => ?_) (fun hh => absurd hh (hd.shows _))
        fun e he => ⟨hbuilt, fun hq => ?_⟩
      · refine (ensures_deleteStale_built hd hi hp hu hsplit hbuilt hdone hfound).mono
          (fun _ s' hs' => ⟨done ++ [kind], ?_, hs'⟩)
          fun e s' hs' => ⟨hs'.1, fun hq => absurd hq hs'.2⟩
        rw [List.append_assoc]
        exact hsplit
      · -- only a foreign object can not be read, and the label is not on it
        by_contra hcomma
        rcases he with hq' | he
        · exact hq' hq
        obtain ⟨v, hv, hread⟩ := mapM_error he
        obtain ⟨name, hv, hsel⟩ := Cluster.mem_select.1 hv
        rcases hbuilt.orderly kind name v hv with ⟨_, hm⟩ | ⟨_, hf⟩
        · obtain ⟨uid, spec, hok⟩ := hm.readObject
          rw [hok] at hread
          cases hread
        · rw [isSelected_selector hcomma, hf.labels] at hsel
          cases hsel
    · obtain ⟨done, hsplit, hbuilt, hdone⟩ := hJ
      refine ⟨hbuilt, fun hcomma _ kind hkind => ?_⟩
      rw [List.append_nil] at hsplit
      exact hdone (selects_of_not_mem hcomma) kind (by rw [← hsplit]; exact hkind)

end Pass
end ConnectorControl
