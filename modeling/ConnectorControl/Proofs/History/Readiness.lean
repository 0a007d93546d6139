import Mathlib.Logic.Relation
import ConnectorControl.Proofs.Connector.Validity
import ConnectorControl.Proofs.History.Readable
import ConnectorControl.Proofs.Pass.Containment
import ConnectorControl.Proofs.Pass.Cuts

/-!
# When a reconciliation goes through

A store stays readable through all reconciliations, whatever comes between, and all changes of
clients that can be read (`Cluster.Step`, `readable_of_steps`).  In a readable store a
reconciliation without faults goes through if and only if its Connector is ready
(`Connector.Ready`): it is valid, and what its spec refers to is there.

The parts of a pass that only fetch decide whether it goes through (`Decides`); the others go
through anyway, by `ensures_upsert_readable` and `ensures_prune_readable`.
-/

namespace ConnectorControl

/-! ## what a spec refers to -/

/-- a Secret holds every key of some alternative -/
def Cluster.Offers (s : Cluster) (ns name : String) (sets : List (List String)) : Prop :=
  ∃ secret, s.Holds .secret ns name Secret.decode secret ∧
    ∃ set ∈ sets, ∀ key ∈ set, secret.hasKey key = true

/-- the type of a trigger is known, and if it names a Secret, that is one to use with the type -/
def Trigger.Fit (t : Trigger) (s : Cluster) (auth : ScalerConfig) (ns : String) : Prop :=
  ∃ sets, auth.keySets? t.type = some sets ∧
    ∀ name ∈ t.secretRef, name ≠ "" → s.Offers ns name sets

/-- a Connector is valid, what it mounts is there, and its triggers are fit -/
structure Connector.Ready (c : Connector) (s : Cluster) (auth : ScalerConfig) (ns : String) :
    Prop where
  valid : c.validate = .ok ()
  configMap : ∀ name ∈ c.spec.configRef, name ≠ "" → (s.find? ⟨.configMap, ns, name⟩).isSome
  secret : ∀ name ∈ c.spec.secretRef, name ≠ "" → (s.find? ⟨.secret, ns, name⟩).isSome
  triggers : ∀ rule custom, c.spec.effectiveScaling = .ok (some rule) →
    rule.mode = .custom custom → ∀ t ∈ custom.triggers, t.Fit s auth ns

theorem KeySets.matching_eq_none {holds : String → Bool} {sets : List (List String)} :
    matching holds sets = none ↔ ¬∃ set ∈ sets, ∀ key ∈ set, holds key = true := by
  unfold matching satisfied
  simp

theorem forall_mem_filter_ne {x : Option String} {p : String → Prop} :
    (∀ name ∈ x.filter (· ≠ ""), p name) ↔ ∀ name ∈ x, name ≠ "" → p name := by
  simp [Option.filter_eq_some_iff]

theorem Trigger.Fit.congr {s s' : Cluster} {t : Trigger} {auth : ScalerConfig} {ns : String}
    (h : t.Fit s auth ns)
    (hs : ∀ name, s'.find? ⟨.secret, ns, name⟩ = s.find? ⟨.secret, ns, name⟩) :
    t.Fit s' auth ns := by
  obtain ⟨sets, hsets, hname⟩ := h
  refine ⟨sets, hsets, fun name hmem hne => ?_⟩
  obtain ⟨secret, ⟨v, o, hv, hread⟩, hkeys⟩ := hname name hmem hne
  exact ⟨secret, ⟨v, o, (hs name).trans hv, hread⟩, hkeys⟩

namespace Connector

variable {c : Connector} {rule : ScalingRule} {http : HttpScaling}

theorem effectiveScaling_of_valid (h : c.validate = .ok ()) :
    ∃ scaling, c.spec.effectiveScaling = .ok scaling := by
  obtain ⟨_, scaling, hs, _⟩ := validate_eq_ok.1 h
  exact ⟨scaling, hs⟩

theorem effectivePort_of_valid (h : c.validate = .ok ())
    (hs : c.spec.effectiveScaling = .ok (some rule)) (hm : rule.mode = .http http) :
    c.spec.effectivePort ≠ none := by
  obtain ⟨_, scaling, hs', hrule⟩ := validate_eq_ok.1 h
  obtain rfl := Except.ok.inj (hs'.symm.trans hs)
  exact ((ScalingRule.modeFault_http hm).1 (hrule rule rfl).2).1

end Connector

namespace Pass

section
variable {α β ε ε' : Type} {d : Disturbance} {s : Cluster} {ns name : String} {c : Connector}
  {C C' : Prop}

/-! ## deciding -/

/-- The store is left alone.  A value is come to only under the condition, and under the condition a
value is come to unless something comes between. -/
def Decides (d : Disturbance) (p : ExceptT ε Program α) (s : Cluster) (C : Prop) : Prop :=
  Ensures d (fun _ _ => True) p s (fun _ s' => s' = s ∧ C) fun _ s' => s' = s ∧ (d.Quiet → ¬C)

theorem decides_pure {a : α} : Decides d (pure a : ExceptT ε Program α) s True := ⟨rfl, trivial⟩

theorem decides_throw {e : ε} (h : ¬C) : Decides d (throw e : ExceptT ε Program α) s C :=
  ⟨rfl, fun _ => h⟩

theorem Decides.iff {p : ExceptT ε Program α} (h : Decides d p s C) (hC : C ↔ C') :
    Decides d p s C' :=
  Ensures.mono h (fun _ _ h => ⟨h.1, hC.1 h.2⟩) fun _ _ h => ⟨h.1, fun hd hC' => h.2 hd (hC.2 hC')⟩

theorem Decides.bind {p : ExceptT ε Program α} {f : α → ExceptT ε Program β} (hp : Decides d p s C)
    (hf : ∀ a, Decides d (f a) s C') : Decides d (p >>= f) s (C ∧ C') := by
  unfold Decides
  rw [ensures_bind]
  refine Ensures.mono hp (fun a s' h => ?_) fun e s' h => ⟨h.1, fun hd hC => h.2 hd hC.1⟩
  obtain ⟨rfl, hC⟩ := h
  exact Ensures.mono (hf a) (fun _ _ h => ⟨h.1, hC, h.2⟩) fun _ _ h =>
    ⟨h.1, fun hd hC' => h.2 hd hC'.2⟩

/-- in a readable store a fetch goes wrong only if something comes between -/
theorem ensures_get_readable {kind : Kind} {Q : Option Object → Cluster → Prop}
    {E : Failure → Cluster → Prop} (hs : s.Readable)
    (hsome : ∀ v o, s.find? ⟨kind, ns, name⟩ = some v → Cluster.readObject v = .ok o →
      Q (some o) s)
    (hnone : (d.Quiet → s.find? ⟨kind, ns, name⟩ = none) → Q none s)
    (hE : ∀ e, ¬d.Quiet → E e s) : Ensures d (fun _ _ => True) (get kind ns name) s Q E := by
  refine ensures_call.2 ⟨trivial, fun r s' hr => ?_⟩
  obtain ⟨rfl, hr⟩ := hr.of_get
  rcases hr with ⟨e, rfl, hf⟩ | ⟨rfl, hno⟩ | ⟨v, hv, rfl⟩
  · exact hE e fun hd => (hd _).1 hf
  · refine hnone fun hd => ?_
    rcases hno with hno | hh
    · exact hno
    · exact absurd hh (hd _).2
  · obtain ⟨o, ho⟩ := hs.readObject hv
    rw [ho]
    exact hsome v o hv ho

theorem decides_requireObject (hs : s.Readable) (kind : Kind) (found : Option String) :
    Decides d (requireObject kind ns found) s
      (∀ name ∈ found, (s.find? ⟨kind, ns, name⟩).isSome) := by
  cases found with
  | none => exact decides_pure.iff (iff_of_true trivial nofun)
  | some name =>
    have hmem : (s.find? ⟨kind, ns, name⟩).isSome ↔
        ∀ n ∈ some name, (s.find? ⟨kind, ns, n⟩).isSome := by simp
    refine Decides.iff ?_ hmem
    refine ensures_bind.2 (ensures_get_readable hs (fun v o hv _ => ⟨rfl, ?_⟩) (fun hno => ?_)
      fun e hd => ⟨rfl, fun hq => absurd hq hd⟩)
    · rw [hv]
      rfl
    · refine ensures_throw.2 ⟨rfl, fun hd hsome => ?_⟩
      rw [hno hd] at hsome
      cases hsome

theorem decides_requireMounts (hs : s.Readable) (c : Connector) :
    Decides d (requireMounts c ns) s
      ((∀ name ∈ c.spec.configRef, name ≠ "" → (s.find? ⟨.configMap, ns, name⟩).isSome) ∧
        ∀ name ∈ c.spec.secretRef, name ≠ "" → (s.find? ⟨.secret, ns, name⟩).isSome) :=
  ((decides_requireObject hs _ _).bind fun _ => decides_requireObject hs _ _).iff
    (and_congr forall_mem_filter_ne forall_mem_filter_ne)

/-! ## triggers -/

theorem decides_secretKeys (hs : s.Readable) (type : String) (sets : List (List String)) :
    Decides d (secretKeys ns name type sets) s (s.Offers ns name sets) := by
  unfold secretKeys
  rw [getAs_eq]
  refine ensures_bind.2 (ensures_bind.2 (ensures_get_readable hs (fun v o hv ho => ?_)
    (fun hno => ?_) fun e hd => ⟨rfl, fun hq => absurd hq hd⟩))
  · obtain ⟨secret, hsecret⟩ := hs.holds_secret hv
    have hread : o.decodeAs Secret.decode = .ok secret := by
      obtain ⟨v', o', hv', ho', hread⟩ := hsecret
      obtain rfl := Option.some.inj (hv.symm.trans hv')
      obtain rfl := Except.ok.inj (ho.symm.trans ho')
      exact hread
    rw [readAs_of_ok hread]
    refine ensures_pure.2 ?_
    dsimp only
    cases hkeys : KeySets.matching secret.hasKey sets with
    | some keys =>
      refine ⟨rfl, secret, hsecret, ?_⟩
      by_contra hno
      rw [KeySets.matching_eq_none.2 hno] at hkeys
      cases hkeys
    | none =>
      refine ensures_bind.2 (ensures_always.2 ⟨rfl, fun _ hoffers => ?_⟩)
      obtain ⟨secret', hsecret', hsets⟩ := hoffers
      obtain rfl := holds_unique hsecret hsecret'
      exact KeySets.matching_eq_none.1 hkeys hsets
  · refine ⟨rfl, fun hd hoffers => ?_⟩
    obtain ⟨_, ⟨v, _, hv, _⟩, _⟩ := hoffers
    rw [hno hd] at hv
    cases hv

theorem decides_planTriggers (hs : s.Readable) (auth : ScalerConfig) (connector : String)
    (index : Nat) (ts : List Trigger) :
    Decides d (planTriggers auth connector ns index ts) s (∀ t ∈ ts, t.Fit s auth ns) := by
  induction ts generalizing index with
  | nil => exact decides_pure.iff (iff_of_true trivial nofun)
  | cons t ts ih =>
    refine Decides.iff ?_ List.forall_mem_cons.symm
    unfold planTriggers
    cases hsets : auth.keySets? t.type with
    | none =>
      refine decides_throw fun hfit => ?_
      obtain ⟨sets, hsome, _⟩ := hfit.1
      rw [hsets] at hsome
      cases hsome
    | some sets =>
      have hfit : (∀ name ∈ t.secretName, s.Offers ns name sets) ↔ t.Fit s auth ns := by
        unfold Trigger.Fit Trigger.secretName
        rw [hsets, forall_mem_filter_ne]
        simp
      have hrest : ∀ index (planned : PlannedTrigger), Decides d
          (planTriggers auth connector ns index ts >>= fun ps => pure (planned :: ps)) s
            (∀ t ∈ ts, t.Fit s auth ns) := fun index planned =>
        ((ih index).bind fun _ => decides_pure).iff (and_iff_left trivial)
      cases hname : t.secretName with
      | none =>
        rw [hname] at hfit
        exact (hrest index ⟨t, none⟩).iff (by simp [← hfit])
      | some name =>
        rw [hname] at hfit
        refine ((decides_secretKeys hs t.type sets).bind fun keys => hrest (index + 1) _).iff ?_
        rw [← hfit]
        simp

/-- a plan is made if the triggers are fit, and what is planned has a spec -/
theorem ensures_plan_readable {auth : ScalerConfig} {scaling : Option ScalingRule}
    (hs : s.Readable) (hvalid : c.validate = .ok ())
    (hscaling : c.spec.effectiveScaling = .ok scaling) :
    Ensures d (fun _ _ => True) (plan auth c ns scaling) s
      (fun p s' => s' = s ∧ (∀ x ∈ p.drafts, x.Proper) ∧ ∀ rule custom, scaling = some rule →
        rule.mode = .custom custom → ∀ t ∈ custom.triggers, t.Fit s auth ns)
      fun _ s' => s' = s ∧ (d.Quiet → ∃ rule custom, scaling = some rule ∧
        rule.mode = .custom custom ∧ ¬∀ t ∈ custom.triggers, t.Fit s auth ns) := by
  cases scaling with
  | none => exact ⟨rfl, fun _ => ScalePlan.proper_none, nofun⟩
  | some rule =>
    unfold plan
    cases hm : rule.mode with
    | http http =>
      cases hport : c.spec.effectivePort with
      | none => exact absurd hport (Connector.effectivePort_of_valid hvalid hscaling hm)
      | some port =>
        simp only [hm]
        refine ensures_pure.2 ⟨rfl, fun _ => ScalePlan.proper_http, fun rule' custom hr hm' => ?_⟩
        obtain rfl := Option.some.inj hr
        rw [hm] at hm'
        cases hm'
    | custom custom =>
      simp only [hm]
      refine ensures_adapt.2 (ensures_bind.2 ?_)
      refine Ensures.mono (decides_planTriggers hs auth c.name 0 custom.triggers)
        (fun ps s' h => ?_) fun e s' h => ⟨h.1, fun hd => ⟨rule, custom, rfl, hm, h.2 hd⟩⟩
      refine ensures_pure.2 ⟨h.1, fun _ => ScalePlan.proper_custom, fun rule' custom' hr hm' => ?_⟩
      obtain rfl := Option.some.inj hr
      obtain rfl := ScalingMode.custom.inj (hm.symm.trans hm')
      exact h.2

end

/-! ## passes -/

section
variable {d : Disturbance} {s : Cluster} {ns name : String} {c : Connector}
  {settings : PassSettings} {now : String}

/-- A pass keeps a store readable.  It goes through only for a Connector that is ready, and for
every one that is unless something comes between. -/
theorem ensures_converge_ready (hs : s.Readable) :
    Ensures d (fun _ _ => True) (converge settings now c ns) s
      (fun _ s' => s'.Readable ∧ c.Ready s settings.auth ns)
      fun _ s' => s'.Readable ∧ (d.Quiet → ¬c.Ready s settings.auth ns) := by
  refine ensures_converge (fun e he => ⟨hs, fun _ h => ?_⟩) (fun e he => ⟨hs, fun _ h => ?_⟩)
    fun scaling hvalid hscaling => ?_
  · rw [h.valid] at he
    cases he
  · obtain ⟨scaling, hscaling⟩ := Connector.effectiveScaling_of_valid h.valid
    rw [hscaling] at he
    cases he
  -- the mounts
  refine Ensures.mono (decides_requireMounts hs c) (fun _ s₁ h₁ => ?_) fun e s₁ h₁ => ?_
  rotate_left
  · obtain ⟨rfl, hno⟩ := h₁
    exact ⟨hs, fun hd h => hno hd ⟨h.configMap, h.secret⟩⟩
  obtain ⟨rfl, hconfigMap, hsecret⟩ := h₁
  -- the Deployment
  refine (ensures_upsert_readable (x := .deployment c) hs.refl (Draft.proper_deployment c)).mono
    (fun _ s₂ h₂ => ?_) fun e s₂ h₂ => ⟨h₂.2.readable, fun hd => absurd hd h₂.1⟩
  have hsecrets : ∀ name, s₂.find? ⟨.secret, ns, name⟩ = s₁.find? ⟨.secret, ns, name⟩ :=
    fun name => h₂.inputs _ nofun
  -- the plan, for which the Secrets are as they were
  refine (ensures_plan_readable h₂.readable hvalid hscaling).mono (fun p s₃ h₃ => ?_)
    fun e s₃ h₃ => ?_
  rotate_left
  · obtain ⟨rfl, hno⟩ := h₃
    refine ⟨h₂.readable, fun hd h => ?_⟩
    obtain ⟨rule, custom, rfl, hm, hunfit⟩ := hno hd
    exact hunfit fun t ht => (h.triggers rule custom hscaling hm t ht).congr hsecrets
  obtain ⟨rfl, hproper, hfit⟩ := h₃
  have hready : c.Ready s₁ settings.auth ns := by
    refine ⟨hvalid, hconfigMap, hsecret, fun rule custom hr hm t ht => ?_⟩
    obtain rfl := Except.ok.inj (hscaling.symm.trans hr)
    exact (hfit rule custom rfl hm t ht).congr fun name => (hsecrets name).symm
  -- the other objects, and pruning
  refine (ensures_upsertAll_readable h₂ hproper).mono (fun _ s₄ h₄ => ⟨fun _ => ?_, fun _ => ?_⟩)
    fun e s₄ h₄ => ⟨h₄.2.readable, fun hd => absurd hd h₄.1⟩
  · exact (ensures_prune_readable h₄).mono (fun _ s₅ h₅ => ⟨h₅.readable, hready⟩)
      fun e s₅ h₅ => ⟨h₅.2.readable, fun hd => absurd hd h₅.1⟩
  · exact ⟨h₄.readable, hready⟩

/-- a reconciliation keeps a store readable, whatever comes between -/
theorem ensures_reconcile_readable (hs : s.Readable) :
    Ensures d (fun _ _ => True) (reconcile settings now ns name) s (fun _ s' => s'.Readable)
      fun _ s' => s'.Readable := by
  refine ensures_reconcile trivial (fun c _ => ?_) hs fun _ => hs
  refine ensures_visit (fun _ => ensures_tryRecord_readable hs _) fun _ => ?_
  exact (ensures_converge_ready hs).mono (fun _ _ h => ensures_tryRecord_readable h.1 _)
    fun _ _ h => ensures_tryRecord_readable h.1 _

/-- without faults a Connector decides how its reconciliation ends -/
theorem ensures_reconcile_ready (hs : s.Readable)
    (hc : s.Holds .connector ns name Connector.decode c)
    (hlive : c.metadata.deletionTimestamp = none) :
    Ensures .none (fun _ _ => True) (reconcile settings now ns name) s
      (fun a _ => a = .requeue resyncInterval ∧ c.Ready s settings.auth ns)
      fun _ _ => ¬c.Ready s settings.auth ns := by
  rw [reconcile_eq]
  refine ensures_bind.2 (ensures_getAs_of_holds hc (fun _ => trivial) ?_)
  refine ensures_visit (fun hdeleted => ?_) fun _ => ?_
  · rw [hlive] at hdeleted
    cases hdeleted
  · refine (ensures_converge_ready hs).mono (fun cond s' h => ?_) fun e s' h => ?_
    · exact (Program.ensures_trivial _ s').mono fun _ _ _ => ⟨rfl, h.2⟩
    · exact (Program.ensures_trivial _ s').mono fun _ _ _ => h.2 Disturbance.quiet_none

end
end Pass

/-! ## histories -/

namespace Cluster

/-- what may happen to a store between two looks at it -/
inductive Step : Cluster → Cluster → Prop
  /-- some Connector is reconciled, behind whatever faults -/
  | reconciled {s : Cluster} (settings : PassSettings) (now ns name : String)
    (faults : List Fault) :
    Step s (Pass.reconciled settings now ns name ⟨s, faults, []⟩).state.cluster
  /-- an object is put that can be read -/
  | put {s : Cluster} (k : ObjectKey) {v : Json} (hv : v.ReadsAs k.kind) : Step s (s.set k v)
  | removed {s : Cluster} (k : ObjectKey) : Step s (s.remove k)

variable {s₀ s s' : Cluster}

theorem Step.readable (h : s.Step s') (hs : s.Readable) : s'.Readable := by
  cases h with
  | reconciled settings now ns name faults =>
    have hpass : Pass.Ensures .any (fun _ _ => True) (Pass.reconcile settings now ns name) s
        (fun _ s' => s'.Readable) fun _ s' => s'.Readable := Pass.ensures_reconcile_readable hs
    have hend := (Program.Ensures.run (w := ⟨s, faults, []⟩) hpass (World.within_any _)).2.1
    change Pass.Ends _ _ (Pass.reconciled settings now ns name ⟨s, faults, []⟩).result
      (Pass.reconciled settings now ns name ⟨s, faults, []⟩).state.cluster at hend
    cases hr : (Pass.reconciled settings now ns name ⟨s, faults, []⟩).result with
    | ok a =>
      rw [hr] at hend
      exact hend
    | error e =>
      rw [hr] at hend
      exact hend
  | put k hv => exact hs.set hv
  | removed k => exact hs.remove k

/-- every store of a history that starts with a readable one is readable -/
theorem readable_of_steps (hs₀ : s₀.Readable) (h : Relation.ReflTransGen Step s₀ s) :
    s.Readable := by
  induction h with
  | refl => exact hs₀
  | tail _ hstep ih => exact hstep.readable ih

end Cluster

namespace Pass

/-- A reconciliation fails for a reason that can be stated.  In every store of a history that starts
with a readable one, a Connector that is there can be read.  Unless it is being deleted, a
reconciliation without faults comes to the resync if the Connector is ready, and else it fails. -/
theorem requeues_iff_ready {s₀ s : Cluster} (hs₀ : s₀.Readable)
    (hsteps : Relation.ReflTransGen Cluster.Step s₀ s) {ns name : String} {v : Json}
    (hv : s.find? ⟨.connector, ns, name⟩ = some v) :
    ∃ c, s.Holds .connector ns name Connector.decode c ∧
      (c.metadata.deletionTimestamp = none → ∀ (settings : PassSettings) (now : String),
        ((reconciled settings now ns name ⟨s, [], []⟩).result = .ok (.requeue resyncInterval) ↔
            c.Ready s settings.auth ns) ∧
          ((∃ e, (reconciled settings now ns name ⟨s, [], []⟩).result = .error e) ↔
            ¬c.Ready s settings.auth ns)) := by
  have hs := Cluster.readable_of_steps hs₀ hsteps
  obtain ⟨c, hc⟩ := hs.holds_connector hv
  refine ⟨c, hc, fun hlive settings now => ?_⟩
  have hpass : Ensures .none (fun _ _ => True) (reconcile settings now ns name) s
      (fun a _ => a = .requeue resyncInterval ∧ c.Ready s settings.auth ns)
      fun _ _ => ¬c.Ready s settings.auth ns := ensures_reconcile_ready hs hc hlive
  have hend := (Program.Ensures.run (w := ⟨s, [], []⟩) hpass (World.within_of_noFaults rfl)).2.1
  change Ends _ _ (reconciled settings now ns name ⟨s, [], []⟩).result _ at hend
  cases hr : (reconciled settings now ns name ⟨s, [], []⟩).result with
  | ok a =>
    rw [hr] at hend
    obtain ⟨rfl, hready⟩ := hend
    exact ⟨iff_of_true rfl hready, iff_of_false nofun (not_not_intro hready)⟩
  | error e =>
    rw [hr] at hend
    exact ⟨iff_of_false nofun hend, iff_of_true ⟨e, rfl⟩ hend⟩

/-- the creation of the ScaledObject fails, and a ConfigMap comes and goes -/
def portalHistory : Cluster :=
  (reconciled queueing "t0" "apps" "portal" ⟨portalWorld.cluster,
      [outage .create .scaledObject], []⟩).state.cluster
    |>.set ⟨.configMap, "apps", "portal"⟩ (.object [])
    |>.remove ⟨.configMap, "apps", "portal"⟩

theorem readable_portal : portalWorld.cluster.Readable := by
  refine Cluster.readable_empty.set ⟨?_, _, rfl, fun _ => ⟨_, rfl⟩, nofun⟩
  exact kept_portal.canonical ⟨.connector, "apps", "portal"⟩ portal rfl

theorem portalHistory_steps :
    Relation.ReflTransGen Cluster.Step portalWorld.cluster portalHistory := by
  have hempty : (Json.object []).ReadsAs .configMap :=
    ⟨⟨Entries.ordered_nil, trivial⟩, _, rfl, nofun, nofun⟩
  exact .tail (.tail (.single (.reconciled queueing "t0" "apps" "portal" _))
    (.put ⟨.configMap, "apps", "portal"⟩ hempty)) (.removed _)

/-- what the first reconciliation has left undone, the second one does -/
theorem requeues_iff_ready_portal :
    (portalHistory.find? ⟨DerivedKind.scaledObject, "apps", "portal-vso"⟩).isNone ∧
    ∃ c, portalHistory.Holds .connector "apps" "portal" Connector.decode c ∧
      (reconciled queueing "t1" "apps" "portal" ⟨portalHistory, [], []⟩).result =
        .ok (.requeue resyncInterval) ∧
      c.Ready portalHistory queueing.auth "apps" := by
  obtain ⟨v, hv⟩ : ∃ v, portalHistory.find? ⟨.connector, "apps", "portal"⟩ = some v :=
    Option.isSome_iff_exists.1 (by decide +kernel)
  obtain ⟨c, hc, hdecided⟩ := requeues_iff_ready readable_portal portalHistory_steps hv
  have hread : ((getAs .connector "apps" "portal" Connector.decode).run.value portalHistory).map
      (Option.map (·.metadata.deletionTimestamp)) = .ok (some none) := by decide +kernel
  rw [value_getAs.2 hc] at hread
  have hlive : c.metadata.deletionTimestamp = none := Option.some.inj (Except.ok.inj hread)
  have hresult : (reconciled queueing "t1" "apps" "portal" ⟨portalHistory, [], []⟩).result =
      .ok (.requeue resyncInterval) := by decide +kernel
  refine ⟨by decide +kernel, c, hc, hresult, ?_⟩
  exact (hdecided hlive queueing "t1").1.1 hresult

end Pass
end ConnectorControl
