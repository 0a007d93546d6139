import ConnectorControl.Proofs.History.Agreement
import ConnectorControl.Proofs.History.Runs

/-!
# Coherence after every pass that succeeds

A history under any faults (`Identity.Move`) also has passes that are kept from seeing objects or
from deleting them.  References may dangle then, but the store stays in order, since that depends on
what is written only (`Handled`).  So a pass that succeeds leaves what it has written for the
present spec (`Erected`), and this agrees, whatever there was before (`coherent_of_history`).
-/

namespace ConnectorControl

variable {i : Identity} {s₀ s₁ s s' : Cluster} {c : Connector} {p : ScalePlan} {w : Json}
  {d : Disturbance} {settings : PassSettings} {now : String} {auth : ScalerConfig}
  {scaling : Option ScalingRule} {x : Draft}

namespace Identity

/-- what holds of the store at any time of a pass that has started from another one, whatever the
calls come to -/
structure Handled (i : Identity) (s₀ s : Cluster) : Prop where
  orderly : i.Orderly s
  inputs : s₀.SameInputs s
  elsewhere : ∀ k v, s.find? k = some v →
    s₀.find? k = some v ∨ ∃ kind name, i.Names kind name ∧ k = i.key kind name

/-- all that a pass wants has been written -/
structure Erected (i : Identity) (s₀ : Cluster) (c : Connector) (p : ScalePlan) (s : Cluster) : Prop
    extends i.Handled s₀ s where
  deployment : ∃ v, s.find? (i.key .deployment i.name) = some v ∧ i.Written (.deployment c) v
  drafts : ∀ x ∈ p.drafts, ∃ v, s.find? (x.key i.ns) = some v ∧ i.Written x v

theorem Handled.refl (h : i.Orderly s) : i.Handled s s := ⟨h, .refl s, fun _ _ => .inl⟩

theorem Handled.upserted (h : i.Handled s₀ s) (hi : i.Describes c) (hx : x.Fits i)
    (hu : Pass.Upserted x.kind i.ns x.name (x.toObject c) s w s') :
    i.Handled s₀ s' ∧ i.Written x w := by
  obtain ⟨horderly, hw⟩ := h.orderly.upserted hi hx hu
  refine ⟨⟨horderly, h.inputs.upserted hu, fun k v hv => ?_⟩, hw⟩
  rw [hu.find?] at hv
  split at hv
  next hk => exact .inr ⟨x.kind, x.name, hx.names, hk⟩
  · exact h.elsewhere k v hv

theorem Handled.remove (h : i.Handled s₀ s) (kind : DerivedKind) (name : String) :
    i.Handled s₀ (s.remove (i.key kind name)) :=
  ⟨h.orderly.remove _, h.inputs.remove _ _ _,
    fun k v hv => h.elsewhere k v (Cluster.find?_of_find?_remove hv)⟩

theorem Erected.remove {kind : DerivedKind} {name : String} (h : i.Erected s₀ c p s)
    (hp : Pass.Planned s₁ auth c i.ns scaling p) (hkind : kind ≠ .deployment)
    (hno : (kind, name) ∉ (p.outcome now).desired) :
    i.Erected s₀ c p (s.remove (i.key kind name)) := by
  refine ⟨h.toHandled.remove kind name, ?_, fun x hx => ?_⟩
  · exact Cluster.exists_find?_remove h.deployment (key_ne fun he => absurd he.symm hkind)
  · exact Cluster.exists_find?_remove (h.drafts x hx)
      (key_ne fun hk hn => hno ((hp.mem_desired now).2 ⟨x, hx, hk, hn⟩))

theorem Erected.coherent (h : i.Erected s₀ c p s) (hi : i.Describes c)
    (hp : Pass.Planned s₁ auth c i.ns scaling p) (hscaling : c.spec.effectiveScaling = .ok scaling)
    (hu : i.uid.isSome) (hcomma : ',' ∉ i.name.toList) : i.Coherent c s := by
  obtain ⟨d, hd, hwritten⟩ := h.deployment
  refine ⟨⟨d, hd, hwritten.selectsOwnPods hi⟩, fun rule http hs hm => ?_,
    fun rule custom hs hm => ?_, fun kind name v hn hv => ?_⟩
  · obtain rfl := Except.ok.inj (hscaling.symm.trans hs)
    cases hp with
    | custom hm' hps => cases hm.symm.trans hm'
    | @http _ http' port hm' hport =>
      obtain ⟨sv, hsv, hwsv⟩ := h.drafts (.service c port http'.serviceType) List.mem_cons_self
      obtain ⟨hso, hhso, hwhso⟩ := h.drafts (.httpScaledObject c rule http' port)
        (List.mem_cons_of_mem _ List.mem_cons_self)
      rw [Pass.key_service hi] at hsv
      rw [Pass.key_httpScaledObject hi] at hhso
      obtain ⟨hname, hrouted, _⟩ := hwhso.httpTarget hi
      exact ⟨d, sv, hso, hd, hsv, hhso, hname, hrouted, hwritten.routed hi hport hwsv hwhso⟩
  · obtain rfl := Except.ok.inj (hscaling.symm.trans hs)
    cases hp with
    | http hm' hport => cases hm.symm.trans hm'
    | @custom _ custom' planned hm' hps =>
      obtain ⟨so, hso, hwso⟩ := h.drafts (.scaledObject c rule custom' planned)
        (List.mem_append_right _ List.mem_cons_self)
      rw [Pass.key_scaledObject hi] at hso
      exact ⟨so, hso, hwso.target hi⟩
  · have hm := h.orderly.made hn hv
    exact ⟨hm.ownsAlone hu, selects_of_not_mem hcomma kind name v hm⟩

end Identity

namespace Pass

open Identity

theorem ensures_upsert_handled (h : i.Handled s₀ s) (hi : i.Describes c) (hx : x.Fits i) :
    Ensures d (fun _ _ => True) (upsert x.kind i.ns (x.toObject c)) s
      (fun _ s' => i.Handled s₀ s' ∧ ∃ v, s'.find? (x.key i.ns) = some v ∧ i.Written x v)
      fun _ => i.Handled s₀ := by
  refine ensures_upsert (show _ = some x.name from rfl) trivial trivial trivial
    (fun _ w s' _ hu _ _ => ?_) (fun _ _ => h) fun _ w s' hu _ => (h.upserted hi hx hu).1
  obtain ⟨hs', hw⟩ := h.upserted hi hx hu
  exact ⟨hs', w, hu.find?_self, hw⟩

/-- what is planned is written, and what was written before stays -/
theorem ensures_upsertAll_erected (h : i.Handled s₀ s) (hi : i.Describes c)
    (hp : Planned s₁ auth c i.ns scaling p)
    (hdeployment : ∃ v, s.find? (i.key .deployment i.name) = some v ∧
      i.Written (.deployment c) v) :
    Ensures d (fun _ _ => True) (upsertAll c i.ns p.drafts) s (fun _ => i.Erected s₀ c p)
      fun _ => i.Handled s₀ := by
  refine (ensures_upsertAll (W := i.Written) (I := fun s => i.Handled s₀ s ∧
    ∃ v, s.find? (i.key .deployment i.name) = some v ∧ i.Written (.deployment c) v)
    hp.keys_nodup (fun _ _ _ => trivial) (fun done x rest s w s' hall hs _ hu => ?_)
    (fun _ _ hs _ => hs.1) ⟨h, hdeployment⟩).mono_ok fun _ s' h => ⟨h.1.1, h.1.2, h.2⟩
  have hx : x ∈ p.drafts := by
    rw [hall]
    exact List.mem_append_right _ List.mem_cons_self
  obtain ⟨hs', hw⟩ := hs.1.upserted hi (hp.fits hi hx) hu
  obtain ⟨v, hv, hwritten⟩ := hs.2
  refine ⟨⟨hs', v, ?_, hwritten⟩, hw⟩
  rw [hu.find?_of_ne (key_ne fun hk => absurd hk.symm (hp.kind_ne hx))]
  exact hv

/-- a pass keeps the store in order, and if it succeeds, all that it wants has been written -/
theorem ensures_converge_erected (h : i.Orderly s) (hi : i.Describes c) :
    Ensures d (fun _ _ => True) (converge settings now c i.ns) s
      (fun _ s' => ∃ scaling p s₁, c.spec.effectiveScaling = .ok scaling ∧
        Planned s₁ settings.auth c i.ns scaling p ∧ i.Erected s c p s')
      fun _ => i.Handled s := by
  have hbegin : i.Handled s s := .refl h
  refine ensures_converge (fun _ _ => hbegin) (fun _ _ => hbegin) fun scaling _ hscaling => ?_
  refine (fetches_requireMounts.unchanged fun _ _ => trivial).mono (fun _ s₁ h₁ => ?_)
    fun _ s₁ h₁ => h₁ ▸ hbegin
  subst h₁
  refine (ensures_upsert_handled (x := .deployment c) hbegin hi (fits_deployment hi)).mono_ok
    fun _ s₂ h₂ => ?_
  refine (ensures_plan (fun _ => trivial) fun _ => h₂.1).mono_ok fun p s₃ h₃ => ?_
  obtain ⟨rfl, hp⟩ := h₃
  have hdeployment : ∃ v, s₃.find? (i.key .deployment i.name) = some v ∧
      i.Written (.deployment c) v := by
    rw [← key_deployment hi]
    exact h₂.2
  refine (ensures_upsertAll_erected h₂.1 hi hp hdeployment).mono_ok fun _ s₄ h₄ =>
    ⟨fun _ => ?_, fun _ => ⟨scaling, p, s₃, hscaling, hp, h₄⟩⟩
  refine (ensures_prune (I := i.Erected s₁ c p) (fun _ _ _ => trivial)
    (fun kind hkind name s₅ hno h₅ => ?_) (fun _ _ h₅ => h₅.toHandled) h₄).mono_ok
      fun _ _ h₅ => ⟨scaling, p, s₃, hscaling, hp, h₅⟩
  exact h₅.remove hp (Derived.mem_prunable.1 hkind) hno

/-- what a reconciliation leaves in order -/
structure Upheld (i : Identity) (s s' : Cluster) : Prop where
  orderly : i.Orderly s'
  fixed : i.Fixed s'
  elsewhere : ∀ k v, s'.find? k = some v →
    s.find? k = some v ∨ k = i.connectorKey ∨ ∃ kind name, i.Names kind name ∧ k = i.key kind name

theorem ensures_tryRecord_upheld {cond : Condition} (h : i.Handled s s') (hfixed : i.Fixed s)
    (hc : s.Holds .connector i.ns i.name Connector.decode c) :
    Program.Ensures d (fun _ _ => True) (tryRecord c i.ns cond) s' fun _ s'' => Upheld i s s'' ∧
      ∀ kind name, s''.find? (i.key kind name) = s'.find? (i.key kind name) := by
  refine (ensures_tryRecord fun _ => trivial).mono fun _ s'' hr => ?_
  rw [(hfixed c hc).connector_name] at hr
  have hderived : ∀ kind name, s''.find? (i.key kind name) = s'.find? (i.key kind name) :=
    fun _ _ => hr.find?_of_ne nofun
  have hrecorded : i.Fixed s'' :=
    (hfixed.of_sameInputs h.inputs).recorded ((holds_iff_of_sameInputs h.inputs).2 hc) hr
  refine ⟨⟨h.orderly.congr hderived, hrecorded, fun k v hv => ?_⟩, hderived⟩
  by_cases hk : k = i.connectorKey
  · exact .inr (.inl hk)
  · rw [hr.find?_of_ne hk] at hv
    exact (h.elsewhere k v hv).imp_right .inr

/-- Whatever its calls come to, a reconciliation keeps the store in order.  If it succeeds and the
Connector was not hidden from it, the store is coherent. -/
theorem ensures_reconcile_coherent (h : i.Orderly s) (hfixed : i.Fixed s) :
    Ensures d (fun _ _ => True) (reconcile settings now i.ns i.name) s
      (fun _ s' => Upheld i s s' ∧ (¬d.hides (.get .connector i.ns i.name) →
        ∀ c, s.Holds .connector i.ns i.name Connector.decode c →
          c.metadata.deletionTimestamp = none → i.uid.isSome → ',' ∉ i.name.toList →
            i.Coherent c s'))
      fun _ => Upheld i s := by
  have hbegin : Upheld i s s := ⟨h, hfixed, fun _ _ => .inl⟩
  unfold reconcile
  rw [ensures_bind]
  refine ensures_getAs_or_hidden trivial (fun c hc => ?_) (fun hmissing => ?_) fun _ => hbegin
  · have hi := hfixed c hc
    refine ensures_visit (fun hdel => ?_) fun _ => ?_
    · refine (ensures_tryRecord_upheld (.refl h) hfixed hc).mono fun _ s₁ h₁ =>
        ⟨h₁.1, fun _ c' hc' hlive => ?_⟩
      obtain rfl := holds_unique hc hc'
      rw [hlive] at hdel
      cases hdel
    · refine (ensures_converge_erected h hi).mono (fun cond s₁ h₁ => ?_) fun e s₁ h₁ => ?_
      · obtain ⟨scaling, p, s₀, hscaling, hp, hs₁⟩ := h₁
        refine (ensures_tryRecord_upheld hs₁.toHandled hfixed hc).mono fun _ s₂ h₂ =>
          ⟨h₂.1, fun _ c' hc' _ hu hcomma => ?_⟩
        obtain rfl := holds_unique hc hc'
        exact (hs₁.coherent hi hp hscaling hu hcomma).congr h₂.2
      · exact (ensures_tryRecord_upheld h₁ hfixed hc).mono fun _ _ h₂ => h₂.1
  · refine ⟨hbegin, fun hshown c hc => ?_⟩
    obtain ⟨v, _, hv, _⟩ := hc
    rcases hmissing with hnone | hhidden
    · rw [hv] at hnone
      cases hnone
    · exact absurd hhidden hshown

end Pass

/-- anything may come between, but one call is not kept from seeing -/
def Disturbance.showing (c : Call) : Disturbance := ⟨fun _ => True, fun c' => c' ≠ c⟩

namespace Identity

/-- what may happen to a store between two looks at it, under any faults -/
inductive Move (i : Identity) : Cluster → Cluster → Prop
  /-- The Connector, Secrets and ConfigMaps are changed; the derived objects are not. -/
  | edited {s s' : Cluster}
    (hkeep : ∀ kind name, s'.find? (i.key kind name) = s.find? (i.key kind name))
    (hfixed : i.Fixed s') : Move i s s'
  /-- a pass is made -/
  | passed {s : Cluster} (settings : PassSettings) (now : String) (faults : List Fault) :
    Move i s (i.pass settings now faults s).state.cluster

theorem pass_coherent (hs : i.Orderly s) (hfixed : i.Fixed s) (settings : PassSettings)
    (now : String) {faults : List Fault} (hw : ∀ f ∈ faults, f.Within d) :
    Pass.Upheld i s (i.pass settings now faults s).state.cluster ∧
      ∀ a, (i.pass settings now faults s).result = .ok a →
        ¬d.hides (.get .connector i.ns i.name) →
          ∀ c, s.Holds .connector i.ns i.name Connector.decode c →
            c.metadata.deletionTimestamp = none → i.uid.isSome → ',' ∉ i.name.toList →
              i.Coherent c (i.pass settings now faults s).state.cluster := by
  have hpass : Pass.Ensures d (fun _ _ => True) (Pass.reconcile settings now i.ns i.name) s _ _ :=
    Pass.ensures_reconcile_coherent hs hfixed
  have hend := (Program.Ensures.run (w := ⟨s, faults, []⟩) hpass hw).2.1
  change Pass.Ends _ _ (i.pass settings now faults s).result
    (i.pass settings now faults s).state.cluster at hend
  cases hr : (i.pass settings now faults s).result with
  | ok a =>
    rw [hr] at hend
    exact ⟨hend.1, fun _ _ => hend.2⟩
  | error e =>
    rw [hr] at hend
    exact ⟨hend, fun _ h => nomatch h⟩

/-- what a move keeps: a store stays in order, and the Connector the same -/
theorem Move.orderly (h : i.Move s s') (hs : i.Orderly s) (hfixed : i.Fixed s) :
    i.Orderly s' ∧ i.Fixed s' := by
  cases h with
  | edited hkeep hfixed' => exact ⟨hs.congr hkeep, hfixed'⟩
  | passed settings now faults =>
    have hupheld := (pass_coherent (d := .any) hs hfixed settings now
      fun f (_ : f ∈ faults) => Fault.Within.any f).1
    exact ⟨hupheld.orderly, hupheld.fixed⟩

/-- every store of a history that starts afresh is in order -/
theorem orderly_of_moves (hfresh : i.Fresh s₀) (hfixed : i.Fixed s₀)
    (h : Relation.ReflTransGen i.Move s₀ s) : i.Orderly s ∧ i.Fixed s := by
  induction h with
  | refl => exact ⟨hfresh.orderly, hfixed⟩
  | tail _ hmove ih => exact hmove.orderly ih.1 ih.2

/-- Derived objects agree with each other.  In a history that starts afresh, with whatever faults
and whatever specs before, a pass that is not kept from seeing the Connector and succeeds leaves a
coherent store: the pods have the labels that they are selected by, requests and scaling go by names
and ports to objects that are stored, and each object is the Connector's by its owner and by its
label.  Besides the Connector, the pass stores nothing but such objects. -/
theorem coherent_of_history (hfresh : i.Fresh s₀) (hfixed : i.Fixed s₀)
    (hmoves : Relation.ReflTransGen i.Move s₀ s) (hu : i.uid.isSome) (hcomma : ',' ∉ i.name.toList)
    (hc : s.Holds .connector i.ns i.name Connector.decode c)
    (hlive : c.metadata.deletionTimestamp = none) (settings : PassSettings) (now : String)
    {faults : List Fault}
    (hseen : ∀ f ∈ faults, f.failure = none → f.concerns (.get .connector i.ns i.name) = false)
    {a : Action} (hok : (i.pass settings now faults s).result = .ok a) :
    i.Coherent c (i.pass settings now faults s).state.cluster ∧
      ∀ k v, (i.pass settings now faults s).state.cluster.find? k = some v →
        s.find? k = some v ∨ k = i.connectorKey ∨
          ∃ kind name, i.Names kind name ∧ k = i.key kind name := by
  obtain ⟨hs, hfixed⟩ := orderly_of_moves hfresh hfixed hmoves
  have hw : ∀ f ∈ faults, f.Within (.showing (.get .connector i.ns i.name)) := by
    refine fun f hf call hconcerns => ⟨fun _ => trivial, fun hnone _ hcall => ?_⟩
    rw [hcall, hseen f hf hnone] at hconcerns
    cases hconcerns
  obtain ⟨hupheld, hcoherent⟩ := pass_coherent hs hfixed settings now hw
  exact ⟨hcoherent a hok (fun hhides => hhides rfl) c hc hlive hu hcomma, hupheld.elsewhere⟩

/-! ## from triggers to requests -/

def routedScaling : Option ScalingRule :=
  some ⟨none, some 3, .http ⟨"mq.local", .clusterIP, 0⟩⟩

def routedQueue : Cluster :=
  queueHistory.set queue.connectorKey (queueConnector routedScaling).toJson

theorem routedQueue_moves : Relation.ReflTransGen queue.Move (queueStore queueScaling)
    routedQueue := by
  have hedited : ∀ (s : Cluster) (scaling : Option ScalingRule) kind name,
      (s.set queue.connectorKey (queueConnector scaling).toJson).find? (queue.key kind name) =
        s.find? (queue.key kind name) := fun _ _ _ _ =>
    (Cluster.find?_set _ _ _ _).trans (if_neg nofun)
  refine .tail (.tail (.single (.passed queueSettings "t0" [failing .create .scaledObject]))
    (.edited (hedited _ none) ?_)) (.edited (hedited _ routedScaling) ?_)
  · exact fixed_of_read (queue_describes none) (by decide +kernel)
  · exact fixed_of_read (queue_describes routedScaling) (by decide +kernel)

/-- the ScaledObjects can not be seen, so the pass leaves what is there of them -/
theorem coherent_of_history_queue :
    queue.Coherent (queueConnector routedScaling) (queue.pass queueSettings "t1"
      [⟨.list, DerivedKind.scaledObject, none, none, none, 0⟩] routedQueue).state.cluster := by
  refine (coherent_of_history (queue_fresh _) queue_fixed routedQueue_moves rfl (by decide)
    (Pass.value_getAs.1 (by decide +kernel)) rfl queueSettings "t1" ?_
    (a := .requeue resyncInterval) (by decide +kernel)).1
  rw [List.forall_mem_singleton]
  exact fun _ => rfl

end Identity
end ConnectorControl
