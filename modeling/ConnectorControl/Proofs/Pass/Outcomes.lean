import ConnectorControl.Proofs.Connector.Validity
import ConnectorControl.Proofs.Pass.Runs

/-!
# What a pass notes of a Connector

A pass ends in a condition, which `Pass.Notes` gives by how the pass ended, in the texts that are
stored: a Connector that is being deleted, each way to succeed, and each stage to fail in with the
text of the error.  `Pass.notes_iff` says that it is the condition that the pass records.
-/

namespace ConnectorControl

/-- a condition as it is stored -/
def Condition.written (timestamp type status reason message : String) : Json := .object [
  ("timestamp", .str timestamp), ("type", .str type), ("status", .str status),
  ("reason", .str reason), ("message", .str message)]

theorem Condition.toJson_inj {a b : Condition} (h : a.toJson = b.toJson) : a = b := by
  have hread := a.decode_toJson
  rw [h, b.decode_toJson] at hread
  exact (Except.ok.inj hread).symm

namespace Pass

/-- What a pass notes of a Connector that it has read.  `w` is the world that the Connector is
visited in, and `r` is what the pass comes to. -/
inductive Notes (now ns : String) (c : Connector) (w : World) (r : Except Failure Action) :
    Json → Prop
  | terminating (hdeleted : c.metadata.deletionTimestamp ≠ none) :
    Notes now ns c w r (Condition.written now "Terminating" "True" "TerminatingResources"
      "Derived objects are removed with the Connector")
  | deployed {a : Action} (hlive : c.metadata.deletionTimestamp = none) (hr : r = .ok a)
    (hscaling : c.spec.effectiveScaling = .ok none) :
    Notes now ns c w r (Condition.written now "Created" "True" "DeploymentCreated"
      ("Deployment " ++ c.name ++ " is up to date"))
  | routed {a : Action} {rule : ScalingRule} {http : HttpScaling}
    (hlive : c.metadata.deletionTimestamp = none) (hr : r = .ok a)
    (hscaling : c.spec.effectiveScaling = .ok (some rule)) (hmode : rule.mode = .http http) :
    Notes now ns c w r (Condition.written now "Ready" "True" "HTTPScaledObjectIsReady"
      ("HTTPScaledObject " ++ (c.name ++ "-vhso") ++ " routes host " ++ http.host))
  | scaled {a : Action} {rule : ScalingRule} {custom : CustomScaling}
    (hlive : c.metadata.deletionTimestamp = none) (hr : r = .ok a)
    (hscaling : c.spec.effectiveScaling = .ok (some rule)) (hmode : rule.mode = .custom custom) :
    Notes now ns c w r (Condition.written now "Created" "True" "AppScaledObjectCreated"
      ("ScaledObject " ++ (c.name ++ "-vso") ++ " has " ++ toString custom.triggers.length ++
        " trigger(s)"))
  | invalid {e : Failure} (hlive : c.metadata.deletionTimestamp = none) (hr : r = .error e)
    (hinvalid : c.validate = .error e) :
    Notes now ns c w r (Condition.written now "Error" "False" "InvalidSpec" e.message)
  | undeployed {e : Failure} (hlive : c.metadata.deletionTimestamp = none) (hr : r = .error e)
    (hvalid : c.validate = .ok ())
    (hdeployment : ((upsertDeployment c ns).run.run World.answer w).result = .error e) :
    Notes now ns c w r (Condition.written now "Error" "False" "ErrorCreatingDeployment" e.message)
  | unscaled {e : Failure} {applied : Applied} (hlive : c.metadata.deletionTimestamp = none)
    (hr : r = .error e) (hvalid : c.validate = .ok ())
    (hdeployment : ((upsertDeployment c ns).run.run World.answer w).result = .ok applied) :
    Notes now ns c w r
      (Condition.written now "Error" "False" "ErrorCreatingAppScaledObject" e.message)

variable {settings : PassSettings} {now ns : String} {c : Connector} {s : Cluster} {w : World}
  {r : Except Failure Action} {j j' : Json}

theorem Notes.unique (h : Notes now ns c w r j) (h' : Notes now ns c w r j') : j = j' := by
  cases h <;> cases h' <;> simp_all

def observation (settings : PassSettings) (now ns : String) (c : Connector) (w : World) :
    Condition :=
  if c.metadata.deletionTimestamp.isSome then .terminating now
  else conditionOf now ((converge settings now c ns).run.run World.answer w).result

theorem ensures_inStage {α : Type} {p : Pass α} {stage : Stage} {Q : α → Cluster → Prop}
    (h : Ensures .any (fun _ _ => True) p s Q fun _ _ => True) :
    Ensures .any (fun _ _ => True) (inStage stage p) s Q fun e _ => e.1 = stage :=
  ensures_adapt.2 (h.mono (fun _ _ hQ => hQ) fun _ _ _ => rfl)

/-- a scaling rule that is followed ends in the condition of its mode, or the pass fails at
autoscaling -/
theorem ensures_scale {scaling : Option ScalingRule}
    (hlive : c.metadata.deletionTimestamp = none) (hvalid : c.validate = .ok ())
    (hscaling : c.spec.effectiveScaling = .ok scaling) (a : Action) :
    Ensures .any (fun _ _ => True) (scale settings now c ns scaling) s
      (fun outcome _ => Notes now ns c w (.ok a) outcome.condition.toJson)
      fun e _ => e.1 = .autoscaling := by
  cases scaling with
  | none => exact .deployed hlive rfl hscaling
  | some rule =>
    obtain ⟨most, least, mode⟩ := rule
    cases mode with
    | http http =>
      unfold scale
      cases hport : c.spec.effectivePort with
      | none =>
        -- a rule of this kind without a port is not valid
        obtain ⟨_, _, hscaling', hrule⟩ := Connector.validate_eq_ok.1 hvalid
        obtain rfl := Except.ok.inj (hscaling.symm.trans hscaling')
        exact absurd hport ((ScalingRule.modeFault_http rfl).1 (hrule _ rfl).2).1
      | some port =>
        refine ensures_inStage (ensures_bind.2 ((ensures_trivial _).mono_ok fun _ s₁ _ => ?_))
        refine ensures_bind.2 ((ensures_trivial _).mono_ok fun _ _ _ => ?_)
        exact .routed hlive rfl hscaling rfl
    | custom custom =>
      refine ensures_inStage (ensures_bind.2 ((ensures_trivial _).mono_ok fun _ _ _ => ?_))
      exact .scaled hlive rfl hscaling rfl

theorem ensures_scale_finish {scaling : Option ScalingRule}
    (hlive : c.metadata.deletionTimestamp = none) (hvalid : c.validate = .ok ())
    (hscaling : c.spec.effectiveScaling = .ok scaling) (a : Action) :
    Ensures .any (fun _ _ => True)
      (scale settings now c ns scaling >>= finish settings c ns) s
      (fun cond _ => Notes now ns c w (.ok a) cond.toJson) fun e _ => e.1 = .autoscaling := by
  refine ensures_bind.2 ((ensures_scale (w := w) hlive hvalid hscaling a).mono_ok fun _ _ h => ?_)
  exact ensures_finish (fun _ => (ensures_trivial _).mono (fun _ _ _ => h) fun _ _ _ => rfl)
    fun _ => h

theorem converge_of_valid {scaling : Option ScalingRule} (hvalid : c.validate = .ok ())
    (hscaling : c.spec.effectiveScaling = .ok scaling) : converge settings now c ns =
      inStage .deployment (upsertDeployment c ns) >>= fun _ =>
        scale settings now c ns scaling >>= finish settings c ns := by
  rw [converge_eq_untilPruning, untilPruning_of_valid hvalid hscaling, bind_assoc]

theorem notes_of_ends {r : Except (Stage × Failure) Condition}
    (h : Ends (fun cond _ => Notes now ns c w (.ok (.requeue resyncInterval)) cond.toJson)
      (fun e _ => Notes now ns c w (.error e.2) (Condition.ofFailure now e.1 e.2).toJson) r s) :
    Notes now ns c w (resultOf r) (conditionOf now r).toJson := by
  cases r with
  | ok cond => exact h
  | error e => exact h

/-- a pass over a Connector that is not being deleted notes what it records -/
theorem notes_conditionOf (hlive : c.metadata.deletionTimestamp = none) :
    Notes now ns c w (resultOf ((converge settings now c ns).run.run World.answer w).result)
      (conditionOf now ((converge settings now c ns).run.run World.answer w).result).toJson := by
  cases hvalid : c.validate with
  | error e =>
    have hstop : converge settings now c ns = throw (.validate, e) := by
      unfold converge
      rw [hvalid]
      rfl
    rw [hstop]
    exact .invalid hlive rfl hvalid
  | ok _ =>
    obtain ⟨_, scaling, hscaling, _⟩ := Connector.validate_eq_ok.1 hvalid
    have hdeploy : ((inStage .deployment (upsertDeployment c ns)).run.run World.answer w).result =
        ((upsertDeployment c ns).run.run World.answer w).result.mapError (Stage.deployment, ·) :=
      run_adapt.1
    rw [converge_of_valid hvalid hscaling]
    cases hdeployment : ((upsertDeployment c ns).run.run World.answer w).result with
    | error e =>
      rw [hdeployment] at hdeploy
      rw [(run_bind_of_error hdeploy).1]
      exact .undeployed hlive rfl hvalid hdeployment
    | ok applied =>
      rw [hdeployment] at hdeploy
      rw [(run_bind_of_ok hdeploy).1]
      -- whatever goes wrong from here on goes wrong at autoscaling
      refine notes_of_ends (Program.Ensures.run ((ensures_scale_finish hlive hvalid hscaling _).mono
        (fun _ _ h => h) fun e _ he => ?_) (World.within_any _)).2.1
      rw [show e.1 = .autoscaling from he]
      exact .unscaled hlive rfl hvalid hdeployment

/-- what a visit notes is what is observed -/
theorem notes_iff {cond : Condition} :
    Notes now ns c w ((visit settings now ns c).run.run World.answer w).result cond.toJson ↔
      cond = observation settings now ns c w := by
  have hnoted : Notes now ns c w ((visit settings now ns c).run.run World.answer w).result
      (observation settings now ns c w).toJson := by
    unfold observation
    cases hdeleted : c.metadata.deletionTimestamp with
    | some t => exact .terminating (by rw [hdeleted]; exact nofun)
    | none =>
      rw [(run_visit hdeleted).1]
      exact notes_conditionOf hdeleted
  constructor
  · intro h
    exact Condition.toJson_inj (h.unique hnoted)
  · rintro rfl
    exact hnoted

end Pass
end ConnectorControl
