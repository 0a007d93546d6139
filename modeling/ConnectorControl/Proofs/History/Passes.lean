import ConnectorControl.Proofs.Connector.Reading
import ConnectorControl.Proofs.History.Pruning
import ConnectorControl.Proofs.Pass.Visit

/-!
# Passes over one Connector

A store is sound for a Connector (`Identity.Sound`) when it is in order and linked and what it holds
under the Connector's name is that Connector.  A pass keeps a sound store sound and linked all the
time, whatever writes fail (`ensures_reconcile_sound`).

Whether a pass gets through depends on the Connector and on Secrets and ConfigMaps (`Feasible`), and
so does what it leaves (`Derives`).
-/

namespace ConnectorControl

variable {i : Identity} {s₀ s s' : Cluster} {c : Connector} {p : ScalePlan} {d : Disturbance}

namespace Identity

/-- whatever Connector is read under the name, it is this one -/
def Fixed (i : Identity) (s : Cluster) : Prop :=
  ∀ c, s.Holds .connector i.ns i.name Connector.decode c → i.Describes c

/-- in order, linked, and with no other Connector under the name -/
structure Sound (i : Identity) (s : Cluster) : Prop where
  orderly : i.Orderly s
  linked : i.Linked s
  describes : i.Fixed s

theorem Describes.congr {c' : Connector} (h : i.Describes c) (hm : c'.metadata = c.metadata) :
    i.Describes c' :=
  ⟨by rw [hm]; exact h.name, fun ns hns => h.ns ns (by rw [← hm]; exact hns),
    by rw [hm]; exact h.uid⟩

theorem connector_not_derived (kind : DerivedKind) : i.connectorKey.kind ≠ kind := nofun

theorem Linked.congr (h : i.Linked s)
    (hs : ∀ kind name, s'.find? (i.key kind name) = s.find? (i.key kind name)) : i.Linked s' :=
  h.mono (fun v hv => by rw [← hs]; exact hv) (fun hv => by rw [← hs]; exact hv)
    fun kind name _ _ hv => by rw [hs]; exact hv

theorem Fixed.recorded (h : i.Fixed s) (hc : s.Holds .connector i.ns i.name Connector.decode c)
    (hr : Pass.Recorded i.ns i.name s s') : i.Fixed s' := by
  intro c' hc'
  cases hr with
  | skipped => exact h c' hc'
  | patched v status hv =>
    obtain ⟨v₁, o, hv₁, ho, hc⟩ := hc
    obtain rfl := Option.some.inj (hv.symm.trans hv₁)
    obtain ⟨v₂, o', hv₂, ho', hc'⟩ := hc'
    rw [Cluster.find?_set, if_pos rfl] at hv₂
    obtain rfl := Option.some.inj hv₂
    have hd := Cluster.decode_of_readObject ho
    have hd' := Cluster.decode_of_readObject ho'
    have hm := Connector.metadata_of_decodeAs hd hc
    have hm' := Connector.metadata_of_decodeAs hd' hc'
    rw [Object.metadata_of_merge_status hd hd', hm] at hm'
    exact (h c ⟨v, o, hv, ho, hc⟩).congr (Except.ok.inj hm').symm

theorem Sound.recorded (h : i.Sound s) (hc : s.Holds .connector i.ns i.name Connector.decode c)
    (hr : Pass.Recorded i.ns i.name s s') : i.Sound s' := by
  have hderived : ∀ kind name, s'.find? (i.key kind name) = s.find? (i.key kind name) :=
    fun kind name => hr.find?_of_ne nofun
  exact ⟨h.orderly.congr hderived, h.linked.congr hderived, h.describes.recorded hc hr⟩

/-! ## under way -/

theorem Written.readable {x : Draft} {w : Json} (h : i.Written x w) :
    ∃ o, Cluster.readObject w = .ok o := by
  obtain ⟨uid, spec, hread⟩ := h.made.readObject
  exact ⟨_, hread⟩

/-- the Connector is read alike as long as derived objects only are changed -/
theorem holds_iff_of_sameInputs (hs : s.SameInputs s') :
    s'.Holds .connector i.ns i.name Connector.decode c ↔
      s.Holds .connector i.ns i.name Connector.decode c := by
  have hsame : s'.find? ⟨.connector, i.ns, i.name⟩ = s.find? ⟨.connector, i.ns, i.name⟩ :=
    hs i.connectorKey connector_not_derived
  unfold Cluster.Holds
  rw [hsame]

theorem Fixed.of_sameInputs (h : i.Fixed s) (hs : s.SameInputs s') : i.Fixed s' :=
  fun c hc => h c ((holds_iff_of_sameInputs hs).1 hc)

theorem Underway.sound (h : i.Sound s) (hs : i.Underway s s') : i.Sound s' :=
  ⟨hs.orderly, hs.linked, h.describes.of_sameInputs hs.inputs⟩

theorem Underway.holds (hs : i.Underway s s')
    (hc : s.Holds .connector i.ns i.name Connector.decode c) :
    s'.Holds .connector i.ns i.name Connector.decode c :=
  (holds_iff_of_sameInputs hs.inputs).2 hc

/-! ## at the end -/

/-- what is planned is there as it was planned, and nothing else of the Connector -/
structure Derives (i : Identity) (c : Connector) (p : ScalePlan) (s : Cluster) : Prop where
  orderly : i.Orderly s
  deployment : ∃ v, s.find? (i.key .deployment i.name) = some v ∧ i.Written (.deployment c) v
  drafts : ∀ x ∈ p.drafts, ∃ v, s.find? (x.key i.ns) = some v ∧ i.Written x v
  only : ∀ kind ≠ .deployment, i.Pruned p kind s

theorem Derives.congr (h : i.Derives c p s)
    (hs : ∀ kind name, s'.find? (i.key kind name) = s.find? (i.key kind name)) :
    i.Derives c p s' := by
  refine ⟨h.orderly.congr hs, ?_, fun x hx => ?_, fun kind hk name v hn hv => ?_⟩
  · rw [hs]
    exact h.deployment
  · rw [show s'.find? (x.key i.ns) = s.find? (x.key i.ns) from hs x.kind x.name]
    exact h.drafts x hx
  · rw [hs] at hv
    exact h.only kind hk name v hn hv

end Identity

namespace Pass

open Identity

variable {settings : PassSettings} {now : String}

/-! ## the pass over a Connector that has been read -/

/-- a pass over a Connector gets through to what it has planned -/
structure Feasible (settings : PassSettings) (ns : String) (s : Cluster) (c : Connector)
    (p : ScalePlan) : Prop where
  validate : c.validate = .ok ()
  mounts : (requireMounts c ns).run.value s = .ok ()
  planned : ∃ scaling, c.spec.effectiveScaling = .ok scaling ∧
    (plan settings.auth c ns scaling).run.value s = .ok p

/-- it is for Secrets and ConfigMaps to decide whether a pass gets through -/
theorem Feasible.congr {ns : String} (h : Feasible settings ns s c p)
    (hs : ∀ k, IsMount ns k → s'.find? k = s.find? k) : Feasible settings ns s' c p := by
  refine ⟨h.validate, ?_, ?_⟩
  · rw [← h.mounts]
    exact Program.Fetches.congr fetches_requireMounts hs
  · obtain ⟨scaling, hscaling, hp⟩ := h.planned
    refine ⟨scaling, hscaling, ?_⟩
    rw [← hp]
    exact Program.Fetches.congr fetches_plan hs

theorem Feasible.eq {ns : String} {p' : ScalePlan} (h : Feasible settings ns s c p)
    (h' : Feasible settings ns s c p') : p = p' := by
  obtain ⟨scaling, hscaling, hp⟩ := h.planned
  obtain ⟨scaling', hscaling', hp'⟩ := h'.planned
  obtain rfl := Except.ok.inj (hscaling.symm.trans hscaling')
  exact Except.ok.inj (hp.symm.trans hp')

def Deployed (i : Identity) (s₀ : Cluster) (c : Connector) (s : Cluster) : Prop :=
  i.Underway s₀ s ∧
    ∃ v, s.find? (i.key .deployment i.name) = some v ∧ i.Written (.deployment c) v

theorem ensures_upsert_deployment {Q : Applied → Cluster → Prop} {E : Failure → Cluster → Prop}
    (h : i.Underway s₀ s) (hi : i.Describes c) (hQ : ∀ a s', Deployed i s₀ c s' → Q a s')
    (hE : ∀ e, ¬d.Quiet → E e s) :
    Ensures d (fun _ s => i.Linked s) (upsert .deployment i.ns ((Draft.deployment c).toObject c)) s
      Q E := by
  have hfits := fits_deployment hi
  refine ensures_upsert (show _ = some c.name from rfl) h.linked h.linked h.linked
    (fun a w s' _ hu _ _ => hQ a s' ?_) (fun e he => hE e fun hq => ?_) fun e w s' hu hw => ?_
  · obtain ⟨hs', hw⟩ := h.orderly.upserted (x := .deployment c) hi hfits hu
    refine ⟨⟨hs', linked_upserted_plain h.linked hu nofun nofun, h.inputs.upserted hu⟩, w, ?_, hw⟩
    rw [← key_deployment hi]
    exact hu.find?_self
  · rcases he with hq' | ⟨v, hv, he⟩
    · exact hq' hq
    · obtain ⟨uid, spec, hread⟩ := (h.orderly.made hfits.names hv).readObject
      rw [hread] at he
      cases he
  · obtain ⟨o, hread⟩ := Written.readable (h.orderly.upserted (x := .deployment c) hi hfits hu).2
    rw [hread] at hw
    cases hw

theorem ensures_upsertAll_planned {auth : ScalerConfig} {scaling : Option ScalingRule}
    {s₁ : Cluster} {E : Failure → Cluster → Prop} (h : Deployed i s₀ c s) (hi : i.Describes c)
    (hp : Planned s₁ auth c i.ns scaling p)
    (hE : ∀ e s', Deployed i s₀ c s' → ¬d.Quiet → E e s') :
    Ensures d (fun _ s => i.Linked s) (upsertAll c i.ns p.drafts) s
      (fun _ s' => i.Built s₀ c p s') E := by
  refine (ensures_upsertAll (I := Deployed i s₀ c) (W := i.Written) hp.keys_nodup
    (fun _ _ h => h.1.linked) (fun done x rest s w s' hall hs hdone hu => ?_)
    (fun e s hs he => hE e s hs fun hq => ?_) h).mono_ok fun _ s' h => ⟨h.1.1, h.1.2, h.2⟩
  · have hx : x ∈ p.drafts := by
      rw [hall]
      exact List.mem_append_right _ List.mem_cons_self
    obtain ⟨hs', hw⟩ := hs.1.orderly.upserted hi (hp.fits hi hx) hu
    obtain ⟨v, hv, hdeployment⟩ := hs.2
    refine ⟨⟨⟨hs', ?_, hs.1.inputs.upserted hu⟩, v, ?_, hdeployment⟩, hw⟩
    · refine linked_upserted hs.1.linked hi hp hall (by rw [hv]; rfl) (fun y hy => ?_) hu hw
      obtain ⟨v', hv', _⟩ := hdone y hy
      rw [hv']
      rfl
    · rw [hu.find?_of_ne (key_ne fun hk => absurd hk.symm (hp.kind_ne hx))]
      exact hv
  · rcases he with hq' | ⟨x, hx, v, hv, he⟩
    · exact hq' hq
    · obtain ⟨uid, spec, hread⟩ := (hs.1.orderly.made (hp.fits hi hx).names hv).readObject
      rw [hread] at he
      cases he

/-- A pass over a Connector keeps the store linked.  If it succeeds, it has got through to its plan,
and if nothing disturbs it, it fails only where it can not get through. -/
theorem ensures_converge_sound (hd : d.Tame) (h : i.Sound s) (hi : i.Describes c) :
    Ensures d (fun _ s => i.Linked s) (converge settings now c i.ns) s
      (fun _ s' => i.Underway s s' ∧ ∃ p, Feasible settings i.ns s c p ∧
        (settings.prune = true → ',' ∉ i.name.toList → i.uid.isSome → i.Derives c p s'))
      fun _ s' => i.Underway s s' ∧
        (d.Quiet → ',' ∉ i.name.toList → ∀ p, ¬Feasible settings i.ns s c p) := by
  have hbegin : i.Underway s s := ⟨h.orderly, h.linked, .refl s⟩
  refine ensures_converge (fun e he => ⟨hbegin, fun _ _ p hf => ?_⟩)
    (fun e he => ⟨hbegin, fun _ _ p hf => ?_⟩) fun scaling hvalidate hscaling => ?_
  · rw [hf.validate] at he
    cases he
  · obtain ⟨scaling, hscaling, _⟩ := hf.planned
    rw [hscaling] at he
    cases he
  -- the mounts
  refine (Fetches.ensures fetches_requireMounts hd fun _ => h.linked).mono
    (fun _ s₁ h₁ => ?_) fun e s₁ h₁ => ?_
  rotate_left
  · obtain ⟨rfl, hmounts⟩ := h₁
    refine ⟨hbegin, fun _ _ p hf => ?_⟩
    have := hf.mounts.symm.trans hmounts
    cases this
  obtain ⟨rfl, hmounts⟩ := h₁
  -- the Deployment
  refine ensures_upsert_deployment hbegin hi (fun _ s₂ h₂ => ?_)
    fun e hq => ⟨hbegin, fun hq' => absurd hq' hq⟩
  -- the plan, which is the one from the start
  have hsame : (plan settings.auth c i.ns scaling).run.value s₂ =
      (plan settings.auth c i.ns scaling).run.value s₁ := by
    refine Program.Fetches.congr fetches_plan fun k hk => h₂.1.inputs k fun kind he => ?_
    rcases hk.2 with hk | hk <;> rw [hk] at he <;> cases he
  refine (Fetches.ensures fetches_plan hd fun _ => h₂.1.linked).mono (fun p s₃ h₃ => ?_)
    fun e s₃ h₃ => ?_
  rotate_left
  · obtain ⟨rfl, hplan⟩ := h₃
    refine ⟨h₂.1, fun _ _ p hf => ?_⟩
    obtain ⟨scaling', hscaling', hp⟩ := hf.planned
    obtain rfl := Except.ok.inj (hscaling.symm.trans hscaling')
    rw [hsame, hp] at hplan
    cases hplan
  obtain ⟨rfl, hplan⟩ := h₃
  have hfeasible : Feasible settings i.ns s₁ c p :=
    ⟨hvalidate, hmounts, scaling, hscaling, hsame.symm.trans hplan⟩
  have hp := planned_of_value hplan
  -- the other objects
  refine (ensures_upsertAll_planned h₂ hi hp fun e s' hs' hq =>
    ⟨hs'.1, fun hq' => absurd hq' hq⟩).mono_ok fun _ s₄ h₄ => ⟨fun hprune => ?_, fun hprune => ?_⟩
  · refine (ensures_prune_built hd hi hp h₄).mono (fun _ s₅ h₅ => ?_) fun e s₅ h₅ => ?_
    · refine ⟨h₅.1.toUnderway, p, hfeasible, fun _ hcomma huid =>
        ⟨h₅.1.orderly, h₅.1.deployment, h₅.1.drafts, fun kind hkind => ?_⟩⟩
      refine h₅.2 hcomma huid kind ?_
      cases kind <;> first | exact absurd rfl hkind | decide
    · exact ⟨h₅.1.toUnderway, fun hq hcomma => absurd (h₅.2 hq) hcomma⟩
  · exact ⟨h₄.toUnderway, p, hfeasible, fun h => by rw [hprune] at h; cases h⟩

/-! ## the whole pass -/

theorem ensures_tryRecord_sound {cond : Condition} (h : i.Sound s)
    (hc : s.Holds .connector i.ns i.name Connector.decode c) :
    Program.Ensures d (fun _ s => i.Linked s) (tryRecord c i.ns cond) s fun _ s' =>
      i.Sound s' ∧ ∀ kind name, s'.find? (i.key kind name) = s.find? (i.key kind name) := by
  refine (ensures_tryRecord fun _ => h.linked).mono fun _ s' hr => ?_
  rw [(h.describes c hc).connector_name] at hr
  exact ⟨h.recorded hc hr, fun kind name => hr.find?_of_ne nofun⟩

structure Succeeded (i : Identity) (settings : PassSettings) (s : Cluster) (a : Action)
    (s' : Cluster) : Prop where
  sound : i.Sound s'
  derives : ∀ c, s.Holds .connector i.ns i.name Connector.decode c →
    c.metadata.deletionTimestamp = none → a = .requeue resyncInterval ∧
      ∃ p, Feasible settings i.ns s c p ∧
        (settings.prune = true → ',' ∉ i.name.toList → i.uid.isSome → i.Derives c p s')

structure Failed (i : Identity) (settings : PassSettings) (d : Disturbance) (s s' : Cluster) :
    Prop where
  sound : i.Sound s'
  unfeasible : ∀ c, s.Holds .connector i.ns i.name Connector.decode c →
    c.metadata.deletionTimestamp = none →
      d.Quiet → ',' ∉ i.name.toList → ∀ p, ¬Feasible settings i.ns s c p

/-- A pass keeps a sound store sound and, at each of its calls, linked.  A pass over a Connector
that is read and is not being deleted derives what is planned, if it succeeds. -/
theorem ensures_reconcile_sound (hd : d.Tame) (h : i.Sound s) :
    Ensures d (fun _ s => i.Linked s) (reconcile settings now i.ns i.name) s
      (Succeeded i settings s) fun _ => Failed i settings d s := by
  unfold reconcile
  rw [ensures_bind]
  refine (Fetches.ensures (K := fun _ => True) (fetches_getAs trivial) hd fun _ => h.linked).mono
    (fun found s₁ h₁ => ?_) fun e s₁ h₁ => ?_
  rotate_left
  · obtain ⟨rfl, hread⟩ := h₁
    refine ⟨h, fun c hc => ?_⟩
    rw [value_getAs.2 hc] at hread
    cases hread
  obtain ⟨rfl, hread⟩ := h₁
  cases found with
  | none =>
    refine ensures_pure.2 ⟨h, fun c hc => ?_⟩
    rw [value_getAs.2 hc] at hread
    cases hread
  | some c =>
    have hc := value_getAs.1 hread
    have hi := h.describes c hc
    -- there is one Connector to be read
    have hsame : ∀ c', s₁.Holds .connector i.ns i.name Connector.decode c' → c' = c := by
      intro c' hc'
      rw [value_getAs.2 hc'] at hread
      exact Option.some.inj (Except.ok.inj hread)
    refine ensures_visit (fun hdel => ?_) fun hdel => ?_
    · refine (ensures_tryRecord_sound h hc).mono fun _ s₂ h₂ => ⟨h₂.1, fun c' hc' hdel' => ?_⟩
      rw [hsame c' hc'] at hdel'
      rw [hdel'] at hdel
      cases hdel
    · refine (ensures_converge_sound hd h hi).mono (fun cond s₂ h₂ => ?_) fun e s₂ h₂ => ?_
      · obtain ⟨hunder, p, hfeasible, hderives⟩ := h₂
        refine (ensures_tryRecord_sound (hunder.sound h) (hunder.holds hc)).mono fun _ s₃ h₃ =>
          ⟨h₃.1, fun c' hc' _ => ⟨rfl, p, ?_, fun h₁ h₂ h₄ => ?_⟩⟩
        · rw [hsame c' hc']
          exact hfeasible
        · rw [hsame c' hc']
          exact (hderives h₁ h₂ h₄).congr h₃.2
      · refine (ensures_tryRecord_sound (h₂.1.sound h) (h₂.1.holds hc)).mono fun _ s₃ h₃ =>
          ⟨h₃.1, fun c' hc' _ => ?_⟩
        rw [hsame c' hc']
        exact h₂.2

end Pass
end ConnectorControl
