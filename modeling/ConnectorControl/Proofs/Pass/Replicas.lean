import ConnectorControl.Proofs.Connector.Meaning
import ConnectorControl.Proofs.Json.Paths
import ConnectorControl.Proofs.Pass.References
import ConnectorControl.Proofs.Pass.Runs
import ConnectorControl.Proofs.Store.Written

/-!
# Who sets the replica count

The replica count of a Deployment is one unless the Connector is scaled, and then it is left to the
autoscaler: a pass that writes a ScaledObject or an HTTPScaledObject leaves the count as it finds
it, and a pass that succeeds without writing either sets it to one (`replicas_of_reconcile`).

* `replicas_of_upserted`   what the Deployment's body says of the count, whatever it is merged over;
* `makes_converge`         a pass with a scaling rule does not succeed without writing a scaler;
* `asks_converge_plain`    a pass without a scaling rule does not write one.
-/

namespace ConnectorControl

def Json.replicas? (v : Json) : Option Json := v.at? ["spec", "replicas"]

/-- a write that creates or patches an object that scales the Deployment -/
structure Write.Scales (x : Write) : Prop where
  verb : x.verb = .create ∨ x.verb = .patch
  kind : x.kind = .derived .scaledObject ∨ x.kind = .derived .httpScaledObject

namespace Deployment

theorem find?_replicas (d : Deployment) :
    d.spec.find? "replicas" = d.replicas.map fun n : Nat => .int n := by
  rw [find?_spec, Entries.find?_cons, if_pos rfl]
  rfl

end Deployment

namespace Pass

variable {d : Disturbance} {s s' : Cluster} {c : Connector} {ns name : String} {v w : Json}
  {settings : PassSettings} {now : String} {scaling : Option ScalingRule} {rule : ScalingRule}

def deploymentKey (c : Connector) (ns : String) : ObjectKey := ⟨.derived .deployment, ns, c.name⟩

/-! ## the Deployment -/

theorem find?_replicas_ofConnector (c : Connector) :
    (Deployment.ofConnector c).spec.find? "replicas" =
      if c.spec.wantsAutoscaling then none else some (.int 1) := by
  rw [Deployment.find?_replicas]
  show Option.map _ (if c.spec.wantsAutoscaling then none else some 1) = _
  split <;> rfl

theorem replicas?_of_spec {spec : Json} (h : v.find? "spec" = some spec) :
    v.replicas? = spec.find? "replicas" := by
  show v.at? ["spec", "replicas"] = _
  rw [Json.at?_cons_of_find? h, Json.at?_cons]
  exact Option.bind_fun_some (spec.find? "replicas")

theorem find?_spec_deployment (c : Connector) :
    ((Draft.deployment c).toObject c).toJson.find? "spec" = some (Deployment.ofConnector c).spec :=
  Object.find?_ofSpec "spec"

theorem replicas_of_upserted (hu : Upserted .deployment ns c.name
    ((Draft.deployment c).toObject c) s w s') :
    w.replicas? = if c.spec.wantsAutoscaling then (s.find? (deploymentKey c ns)).bind Json.replicas?
      else some (.int 1) := by
  have hclean : (Deployment.ofConnector c).spec.Clean := Deployment.clean_spec _
  cases hu with
  | created hnone =>
    have hnone : s.find? (deploymentKey c ns) = none := hnone
    have hspec : (s.stamp ns ((Draft.deployment c).toObject c).stripNulls).toJson.find? "spec" =
        some (Deployment.ofConnector c).spec := by
      show (s.stamp ns (Derived.object c .deployment c.name
        (Deployment.ofConnector c).spec).stripNulls).toJson.find? "spec" = _
      rw [Derived.stamp_object s hclean.isNull, Json.stripNulls_of_stripped hclean.stripped]
      exact Object.find?_ofSpec "spec"
    rw [hnone, replicas?_of_spec hspec, find?_replicas_ofConnector]
    rfl
  | patched v hv _ =>
    have hv : s.find? (deploymentKey c ns) = some v := hv
    have hcanonical : ((Draft.deployment c).toObject c).toJson.Canonical :=
      Derived.canonical_toJson hclean.canonical
    have hbody := replicas?_of_spec (find?_spec_deployment c)
    rw [find?_replicas_ofConnector] at hbody
    rw [hv]
    have hreplicas := find?_replicas_ofConnector c
    cases hscaled : c.spec.wantsAutoscaling with
    | true =>
      -- a body that does not speak of the count leaves it as it was
      rw [hscaled, if_pos rfl] at hreplicas
      have hleft : (Deployment.ofConnector c).spec.LeavesAlone ["replicas"] :=
        Json.leavesAlone_of_find?_eq_none rfl hreplicas
      exact Json.at?_merge hcanonical
        (Json.leavesAlone_cons rfl (find?_spec_deployment c) hleft) v
    | false =>
      rw [hscaled] at hbody
      exact Json.at?_merge_of_leaf hcanonical hbody rfl rfl v

/-- the Deployment is there, with the replica count that the pass is to leave it with -/
def Counted (c : Connector) (ns : String) (s s' : Cluster) : Prop :=
  ∃ v, s'.find? (deploymentKey c ns) = some v ∧ v.replicas? =
    if c.spec.wantsAutoscaling then (s.find? (deploymentKey c ns)).bind Json.replicas?
    else some (.int 1)

theorem Counted.congr {t : Cluster} (h : Counted c ns s s')
    (ht : t.find? (deploymentKey c ns) = s'.find? (deploymentKey c ns)) : Counted c ns s t := by
  obtain ⟨v, hv, hcount⟩ := h
  exact ⟨v, ht.trans hv, hcount⟩

theorem counted_of_upserted (hu : Upserted .deployment ns c.name
    ((Draft.deployment c).toObject c) s w s') : Counted c ns s s' :=
  ⟨w, hu.find?_self, replicas_of_upserted hu⟩

/-- objects under other keys are written without touching the Deployment -/
theorem ensures_upsertAll_counted {s₀ : Cluster} {xs : List Draft}
    (hxs : ∀ x ∈ xs, x.key ns ≠ deploymentKey c ns) (h : Counted c ns s₀ s) :
    Ensures d (fun _ _ => True) (upsertAll c ns xs) s (fun _ => Counted c ns s₀)
      fun _ _ => True := by
  induction xs generalizing s with
  | nil => exact h
  | cons x xs ih =>
    unfold upsertAll
    rw [ensures_bind]
    refine ensures_upsert (show _ = some x.name from rfl) trivial trivial trivial
      (fun _ w s' _ hu _ _ => ?_) (fun _ _ => trivial) fun _ _ _ _ _ => trivial
    refine ih (fun y hy => hxs y (List.mem_cons_of_mem _ hy)) (h.congr ?_)
    exact hu.find?_of_ne fun hk => hxs x List.mem_cons_self hk.symm

/-- a pass that succeeds leaves the Deployment with the count that it is to have -/
theorem ensures_converge_counted (settings : PassSettings) (now : String) (s : Cluster) :
    Ensures d (fun _ _ => True) (converge settings now c ns) s
      (fun _ s' => (∃ scaling, c.spec.effectiveScaling = .ok scaling) ∧ Counted c ns s s')
        fun _ _ => True := by
  refine ensures_converge (fun _ _ => trivial) (fun _ _ => trivial)
    fun scaling _ hscaling => ?_
  have hresolved : ∃ scaling, c.spec.effectiveScaling = .ok scaling := ⟨scaling, hscaling⟩
  refine (fetches_requireMounts.unchanged fun _ _ => trivial).mono (fun _ s₁ h₁ => ?_)
    fun _ _ _ => trivial
  subst h₁
  refine ensures_upsert (show _ = some c.name from rfl) trivial trivial trivial
    (fun _ w s₂ _ hu _ _ => ?_) (fun _ _ => trivial) fun _ _ _ _ _ => trivial
  refine (ensures_plan (fun _ => trivial) fun _ => trivial).mono_ok fun p s₃ h₃ => ?_
  obtain ⟨rfl, hp⟩ := h₃
  refine (ensures_upsertAll_counted (fun x hx => hp.key_ne hx) (counted_of_upserted hu)).mono_ok
    fun _ s₄ h₄ => ⟨fun _ => ?_, fun _ => ⟨hresolved, h₄⟩⟩
  refine (ensures_prune (fun _ _ _ => trivial) (fun kind hkind name s hno hs => ?_)
    (fun _ _ _ => trivial) h₄).mono_ok fun _ s₅ h₅ => ⟨hresolved, h₅⟩
  refine hs.congr ((Cluster.find?_remove _ _ _).trans (if_neg fun hk => ?_))
  have hdeployment : kind = .deployment := (Kind.derived.inj (congrArg ObjectKey.kind hk)).symm
  exact Derived.mem_prunable.1 hkind hdeployment

/-! ## scalers -/

theorem makes_patchOver {kind : DerivedKind} {o : Object} :
    Makes (fun x => x.key = ⟨kind, ns, name⟩ ∧ (x.verb = .create ∨ x.verb = .patch))
      (patchOver kind ns name o) := by
  unfold patchOver
  refine makes_bind_right fun found => ?_
  cases found with
  | none => exact makes_throw
  | some _ =>
    exact makes_bind_left (makes_call (c := .patch kind ns name o.toJson) (fun _ => rfl) rfl
      ⟨rfl, .inr rfl⟩)

theorem makes_upsert {kind : DerivedKind} {o : Object} (hn : o.metadata.name = some name) :
    Makes (fun x => x.key = ⟨kind, ns, name⟩ ∧ (x.verb = .create ∨ x.verb = .patch))
      (upsert kind ns o) := by
  intro w a ha
  unfold upsert at ha ⊢
  rw [hn] at ha ⊢
  obtain ⟨r, hr, hlast, hstate⟩ := ok_of_run_bind ha
  have hreply : (World.answer (.create kind ns o.stripNulls) w).1 = r := Except.ok.inj hr
  rw [hstate]
  -- either the object is created, or it is patched because it is there already
  cases r with
  | ok _ =>
    refine ⟨_, World.mem_written_of_ok hreply rfl rfl, ?_, .inl rfl⟩
    show (⟨kind, ns, o.metadata.name.getD ""⟩ : ObjectKey) = _
    rw [hn]
    rfl
  | error e =>
    dsimp only at hlast ⊢
    split at hlast
    next h => cases h
    · exact makes_patchOver _ _ hlast
    · cases hlast

theorem makes_upsertAll {xs : List Draft} {x : Draft} (hx : x ∈ xs) :
    Makes (fun y => y.key = x.key ns ∧ (y.verb = .create ∨ y.verb = .patch))
      (upsertAll c ns xs) := by
  induction xs with
  | nil => cases hx
  | cons z xs ih =>
    unfold upsertAll
    rcases List.mem_cons.1 hx with rfl | hx
    · exact makes_bind_left (makes_upsert rfl)
    · exact makes_bind_right fun _ => ih hx

/-- a scaling rule is not followed without writing an object that scales the Deployment -/
theorem makes_scale {rule : ScalingRule} :
    Makes Write.Scales (scale settings now c ns (some rule)) := by
  have hdrafts : ∀ (x : Draft) (xs : List Draft) (outcome : Outcome), x ∈ xs →
      x.kind = .scaledObject ∨ x.kind = .httpScaledObject →
      Makes Write.Scales (inStage .autoscaling (upsertAll c ns xs) >>= fun _ => pure outcome) := by
    intro x xs outcome hx hkind
    refine makes_bind_left (makes_adapt ((makes_upsertAll hx).mono fun y hy => ⟨hy.2, ?_⟩))
    rw [show y.kind = x.kind from congrArg ObjectKey.kind hy.1]
    exact hkind.imp (congrArg _) (congrArg _)
  rw [scale_eq]
  unfold plan
  dsimp only
  split
  next http _ =>
    split
    · exact makes_bind_left makes_throw
    · rw [pure_bind]
      exact hdrafts (.httpScaledObject c rule http _) _ _
        (List.mem_cons_of_mem _ (List.mem_singleton.2 rfl)) (.inr rfl)
  next custom _ =>
    rw [inStage_bind, bind_assoc]
    refine makes_bind_right fun planned => ?_
    rw [inStage_pure, pure_bind]
    exact hdrafts (.scaledObject c rule custom planned) _ _
      (List.mem_append_right _ (List.mem_singleton.2 rfl)) (.inl rfl)

/-- a pass with a scaling rule does not succeed without writing an object that scales -/
theorem makes_converge {rule : ScalingRule} (hrule : c.spec.effectiveScaling = .ok (some rule)) :
    Makes Write.Scales (converge settings now c ns) := by
  unfold converge
  rw [hrule]
  refine makes_bind_right fun _ => ?_
  show Makes _ (_ >>= fun _ => scale settings now c ns (some rule) >>= _)
  exact makes_bind_right fun _ => makes_bind_left makes_scale

theorem asks_converge_plain (hnone : c.spec.effectiveScaling = .ok none) :
    Asks (fun call => ¬call.write.Scales) (converge settings now c ns) := by
  have hfetch : ∀ call : Call, call.verb = .get → ¬call.write.Scales := by
    intro call hget h
    rcases h.verb with hv | hv <;> exact nomatch hget.symm.trans hv
  have hupsert : ∀ call : Call, call.Upserts (deploymentKey c ns) → ¬call.write.Scales := by
    intro call hu h
    have hkind : call.kind = .derived .deployment := congrArg ObjectKey.kind hu.key
    rcases h.kind with hk | hk <;> exact nomatch hkind.symm.trans hk
  have hprune : ∀ call : Call, call.Prunes → ¬call.write.Scales := by
    intro call hp h
    rcases hp.verb with hv | hv <;> rcases h.verb with hv' | hv' <;> exact nomatch hv.symm.trans hv'
  have hdeployment : Asks (fun call => ¬call.write.Scales) (upsertDeployment c ns) := by
    rw [upsertDeployment_eq]
    refine asks_bind (fetches_requireMounts.asks.mono hfetch) fun _ => ?_
    exact (asks_upsert (show ((Draft.deployment c).toObject c).metadata.name = some c.name from
      rfl)).mono hupsert
  unfold converge
  rw [hnone]
  refine asks_bind (asks_adapt asks_ofExcept) fun _ => ?_
  show Asks _ (inStage .deployment (upsertDeployment c ns) >>= _)
  refine asks_bind (asks_adapt hdeployment) fun _ => ?_
  show Asks _ (if settings.prune then _ else _)
  split
  · exact asks_bind (asks_adapt ((asks_prune _).mono hprune)) fun _ => asks_pure
  · exact asks_pure

/-! ## reconciliations -/

/-- a pass that succeeds has followed a scaling rule, or has found that there is none -/
theorem counted_of_converge {cond : Condition} {w : World}
    (hok : ((converge settings now c ns).run.run World.answer w).result = .ok cond) :
    (∃ scaling, c.spec.effectiveScaling = .ok scaling) ∧ Counted c ns w.cluster
      ((converge settings now c ns).run.run World.answer w).state.cluster := by
  have hcounted : Ensures .any (fun _ _ => True) (converge settings now c ns) w.cluster _ _ :=
    ensures_converge_counted settings now _
  obtain ⟨_, hend, _⟩ := Program.Ensures.run hcounted w.within_any
  rw [hok] at hend
  exact hend

theorem ok_of_resultOf {r : Except (Stage × Failure) Condition} {a : Action}
    (h : resultOf r = .ok a) : ∃ cond, r = .ok cond := by
  cases r with
  | ok cond => exact ⟨cond, rfl⟩
  | error e => cases h

theorem recorded_tryRecord (c : Connector) (ns : String) (cond : Condition) (w : World) :
    Recorded ns c.name w.cluster ((tryRecord c ns cond).run World.answer w).state.cluster := by
  have hrecord : Program.Ensures .any (fun _ _ => True) (tryRecord c ns cond) w.cluster
      fun _ s' => Recorded ns c.name w.cluster s' := ensures_tryRecord fun _ => trivial
  exact (hrecord.run w.within_any).2.1

/-- a write of a pass without a scaling rule, or of the record of it, does not scale -/
theorem not_scales_of_plain (settings : PassSettings) (now ns : String)
    (hnone : c.spec.effectiveScaling = .ok none) (cond : Condition) {w : World}
    (hw : w.written = []) : ∀ x ∈ ((tryRecord c ns cond).run World.answer
      ((converge settings now c ns).run.run World.answer w).state).state.written, ¬x.Scales := by
  intro x hx
  rcases (asks_tryRecord cond).written _ x hx with hx | ⟨call, hrecords, rfl⟩
  · rcases Program.Asks.written (asks_converge_plain hnone) w x hx with hx | ⟨call, hcall, rfl⟩
    · rw [hw] at hx
      cases hx
    · exact hcall
  · intro h
    rcases h.verb with hv | hv <;> exact nomatch hrecords.verb.symm.trans hv

/-- Whoever scales the Deployment owns its replica count.  Whatever is in the store and whatever
faults come between, once the pass over a Connector that is not being deleted succeeds, its
Deployment is there: with the replica count that it had before, or with none if it had none or was
not there, if the pass has written a ScaledObject or an HTTPScaledObject; and with one replica if it
has not. -/
theorem replicas_of_reconcile {a : Action} {w : World} (hw : w.written = [])
    (hc : ((getAs .connector ns name Connector.decode).run.run World.answer w).result =
      .ok (some c))
    (hd : c.metadata.deletionTimestamp = none)
    (hok : (reconciled settings now ns name w).result = .ok a) :
    ∃ v, (reconciled settings now ns name w).state.cluster.find? (deploymentKey c ns) = some v ∧
      ((∃ x ∈ (reconciled settings now ns name w).state.writes, x.Scales) →
        v.replicas? = (w.cluster.find? (deploymentKey c ns)).bind Json.replicas?) ∧
      ((¬∃ x ∈ (reconciled settings now ns name w).state.writes, x.Scales) →
        v.replicas? = some (.int 1)) := by
  obtain ⟨hresult, hstate⟩ := run_reconcile settings now hc
  have hempty : (afterRead ns name w).written = [] := written_afterRead.trans hw
  rw [hresult, (run_visit hd).1] at hok
  rw [hstate, (run_visit hd).2]
  obtain ⟨cond, hcond⟩ := ok_of_resultOf hok
  rw [hcond]
  obtain ⟨⟨scaling, hscaling⟩, hcounted⟩ := counted_of_converge hcond
  have hrecorded := recorded_tryRecord c ns (conditionOf now (.ok cond))
    ((converge settings now c ns).run.run World.answer (afterRead ns name w)).state
  obtain ⟨v, hv, hcount⟩ := hcounted.congr (hrecorded.find?_of_ne nofun)
  rw [cluster_afterRead] at hcount
  refine ⟨v, hv, ?_⟩
  simp only [World.mem_writes]
  cases scaling with
  | none =>
    have hplain := not_scales_of_plain settings now ns hscaling (conditionOf now (.ok cond)) hempty
    rw [if_neg fun h => ConnectorSpec.wantsAutoscaling_iff.1 h hscaling] at hcount
    exact ⟨fun ⟨x, hx, hscales⟩ => absurd hscales (hplain x hx), fun _ => hcount⟩
  | some rule =>
    obtain ⟨x, hx, hscales⟩ := makes_converge hscaling (afterRead ns name w) cond hcond
    have hmade := Program.written_subset_run (tryRecord c ns (conditionOf now (.ok cond))) _ x hx
    rw [if_pos (ConnectorSpec.wantsAutoscaling_iff.2 fun h => nomatch hscaling.symm.trans h)]
      at hcount
    exact ⟨fun _ => hcount, fun hno => absurd ⟨x, hmade, hscales⟩ hno⟩

/-- a world with the Connector `mq`, which scales by triggers, and its Deployment scaled to seven -/
def scaledWorld : World := { mixedWorld with
  cluster := mixedWorld.cluster.set ⟨.derived .deployment, "apps", "mq"⟩
    (.object [("spec", .object [("replicas", .int 7), ("paused", .bool true)])]) }

/-- the Deployment stays at seven replicas -/
theorem replicas_of_reconcile_mixed :
    (reconciled mixedSettings "t" "apps" "mq" scaledWorld).result =
      .ok (.requeue resyncInterval) ∧
    ∃ v, (reconciled mixedSettings "t" "apps" "mq" scaledWorld).state.cluster.find?
      ⟨.derived .deployment, "apps", "mq"⟩ = some v ∧ v.replicas? = some (.int 7) := by
  have hok : (reconciled mixedSettings "t" "apps" "mq" scaledWorld).result =
      .ok (.requeue resyncInterval) := by decide +kernel
  have hc :
      ((getAs .connector "apps" "mq" Connector.decode).run.run World.answer scaledWorld).result =
        .ok (some mixedConnector) := by decide +kernel
  have hscaled : ∃ x ∈ (reconciled mixedSettings "t" "apps" "mq" scaledWorld).state.writes,
      (x.verb = .create ∨ x.verb = .patch) ∧
        (x.kind = .derived .scaledObject ∨ x.kind = .derived .httpScaledObject) := by
    decide +kernel
  obtain ⟨x, hx, hverb, hkind⟩ := hscaled
  obtain ⟨v, hv, hkept, _⟩ := replicas_of_reconcile rfl hc rfl hok
  exact ⟨hok, v, hv, hkept ⟨x, hx, hverb, hkind⟩⟩

end Pass
end ConnectorControl
