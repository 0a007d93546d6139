import ConnectorControl.Proofs.Pass.Runs
import ConnectorControl.Proofs.Store.Rejections

/-!
# Secrets that a pass rejects

A pass rejects a Secret only while triggers are planned, fails for it at once, and passes that
failure on as it is.  So on a plain store a pass has rejected one Secret if it fails for a Secret
that lacks keys, and none otherwise (`admits_reconcile`).
-/

namespace ConnectorControl

theorem failOn_error {fault : Option SpecFault} {e : Failure} (h : failOn fault = .error e) :
    e.IsVerdict := by
  cases fault with
  | none => cases h
  | some f =>
    obtain rfl := Except.error.inj h
    exact trivial

theorem Connector.isVerdict_of_validate {c : Connector} {e : Failure}
    (h : c.validate = .error e) : e.IsVerdict := by
  unfold validate at h
  cases hworkload : failOn c.spec.workloadFault with
  | error e' =>
    rw [hworkload] at h
    obtain rfl := Except.error.inj h
    exact failOn_error hworkload
  | ok u =>
    rw [hworkload] at h
    cases hscaling : c.spec.effectiveScaling with
    | error e' =>
      rw [hscaling] at h
      obtain rfl := Except.error.inj h
      exact trivial
    | ok scaling =>
      rw [hscaling] at h
      cases scaling with
      | none => cases h
      | some rule =>
        cases hbounds : failOn rule.boundsFault with
        | error e' =>
          simp only [hbounds] at h
          obtain rfl := Except.error.inj h
          exact failOn_error hbounds
        | ok u =>
          simp only [hbounds] at h
          exact failOn_error h

namespace Pass

variable {c : Connector} {ns name : String} {kind : Kind} {settings : PassSettings} {now : String}

/-! ## planning -/

theorem admits_getAs {α : Type} {decoder : Decoder α} :
    Admits id (getAs kind ns name decoder) := by
  rw [getAs_eq]
  refine admits_bind admits_call fun found => ?_
  cases found with
  | none => exact admits_pure
  | some o =>
    cases ho : o.decodeAs decoder with
    | ok a =>
      rw [readAs_of_ok ho]
      exact admits_pure
    | error e =>
      rw [readAs_of_error ho]
      exact admits_throw rfl

theorem admits_requireObject {wanted : Option String} :
    Admits id (requireObject kind ns wanted) := by
  cases wanted with
  | none => exact admits_pure
  | some name =>
    refine admits_bind admits_call fun found => ?_
    cases found with
    | none => exact admits_throw rfl
    | some o => exact admits_pure

/-- a Secret that has none of the key sets is rejected, and is what the search for keys fails for -/
theorem admits_secretKeys {type : String} {sets : List (List String)} :
    Admits id (secretKeys ns name type sets) := by
  refine admits_bind admits_getAs fun found => ?_
  cases found with
  | none => exact admits_throw rfl
  | some secret =>
    dsimp only
    split
    · exact admits_pure
    · exact rfl

theorem admits_planTriggers {auth : ScalerConfig} {connector : String} {ts : List Trigger}
    (index : Nat) : Admits id (planTriggers auth connector ns index ts) := by
  induction ts generalizing index with
  | nil => exact admits_pure
  | cons t ts ih =>
    unfold planTriggers
    split
    · exact admits_throw rfl
    · split
      · exact admits_bind (ih index) fun _ => admits_pure
      · exact admits_bind admits_secretKeys fun _ =>
          admits_bind (ih (index + 1)) fun _ => admits_pure

theorem admits_plan {scaling : Option ScalingRule} :
    Admits Prod.snd (plan settings.auth c ns scaling) := by
  cases scaling with
  | none => exact admits_pure
  | some rule =>
    unfold plan
    dsimp only
    split
    · split
      · exact admits_throw rfl
      · exact admits_pure
    · exact admits_adapt (admits_bind (admits_planTriggers 0) fun _ => admits_pure) fun _ => rfl

/-! ## writing -/

theorem admits_upsert {kind : DerivedKind} {o : Object} : Admits id (upsert kind ns o) := by
  have hover : ∀ name, Admits id (patchOver kind ns name o) := fun name => by
    refine admits_bind admits_call fun found => ?_
    cases found with
    | none => exact admits_throw rfl
    | some _ => exact admits_bind admits_call fun _ => admits_pure
  unfold upsert
  cases o.metadata.name with
  | none => exact admits_throw rfl
  | some name =>
    intro r hr
    cases r with
    | ok _ => exact rfl
    | error e =>
      cases e with
      | alreadyExists kind' name' => exact hover name
      | _ => exact admits_throw (hr _ rfl)

theorem admits_upsertAll {xs : List Draft} : Admits id (upsertAll c ns xs) := by
  induction xs with
  | nil => exact admits_pure
  | cons x xs ih => exact admits_bind admits_upsert fun _ => ih

theorem admits_deleteStale {desired : List (DerivedKind × String)} {uid : String}
    {kind : DerivedKind} {os : List Object} :
    Admits id (deleteStale desired uid ns kind os) := by
  induction os with
  | nil => exact admits_pure
  | cons o os ih =>
    unfold deleteStale
    split
    · exact admits_bind admits_call fun _ => admits_bind ih fun _ => admits_pure
    · exact ih

theorem admits_prune {desired : List (DerivedKind × String)} :
    Admits id (prune c ns desired) := by
  unfold prune
  cases c.metadata.uid with
  | none => exact admits_pure
  | some uid =>
    dsimp only
    generalize Derived.prunable = kinds
    induction kinds with
    | nil => exact admits_pure
    | cons kind kinds ih =>
      unfold pruneKinds
      exact admits_bind admits_call fun _ => admits_bind admits_deleteStale fun _ =>
        admits_bind ih fun _ => admits_pure

/-! ## the pass -/

theorem admits_converge : Admits Prod.snd (converge settings now c ns) := by
  have hdeployment : Admits id (upsertDeployment c ns) := by
    rw [upsertDeployment_eq]
    exact admits_bind (admits_bind admits_requireObject fun _ => admits_requireObject) fun _ =>
      admits_upsert
  have hvalid : Admits id (ofExcept c.validate) :=
    admits_ofExcept fun _ he => (Connector.isVerdict_of_validate he).rejected?_eq_none
  have hscaling : Admits id
      (ofExcept (c.spec.effectiveScaling.mapError Failure.conversion)) :=
    admits_ofExcept fun e he => by
      cases hs : c.spec.effectiveScaling with
      | ok scaling =>
        rw [hs] at he
        cases he
      | error e' =>
        rw [hs] at he
        obtain rfl := Except.error.inj he
        rfl
  refine admits_bind (admits_adapt hvalid fun _ => rfl) fun _ => ?_
  refine admits_bind (admits_adapt hscaling fun _ => rfl) fun scaling => ?_
  refine admits_bind (admits_adapt hdeployment fun _ => rfl) fun _ => ?_
  rw [scale_eq]
  refine admits_bind (admits_bind admits_plan fun p => ?_) fun outcome => ?_
  · exact admits_bind (admits_adapt admits_upsertAll fun _ => rfl) fun _ => admits_pure
  · split
    · exact admits_bind (admits_adapt admits_prune fun _ => rfl) fun _ => admits_pure
    · exact admits_pure

theorem rejects_tryRecord (cond : Condition) :
    (tryRecord c ns cond).Rejects fun ts _ => ts = [] := by
  cases hafter : c.statusAfter cond with
  | none =>
    rw [tryRecord_of_none hafter]
    exact rfl
  | some status =>
    rw [tryRecord_of_some hafter]
    exact fun _ _ => rfl

theorem rejects_conclude (r : Except (Stage × Failure) Condition) :
    (conclude now ns c r).run.Rejects fun ts r' => ts = [] ∧ r' = resultOf r := by
  refine Program.rejects_bind.2 (Program.rejects_bind.2
    ((rejects_tryRecord (conditionOf now r)).mono fun ts _ hts => ?_))
  subst hts
  exact ⟨rfl, rfl⟩

theorem admitted_resultOf (r : Except (Stage × Failure) Condition) :
    admitted id (resultOf r) = admitted Prod.snd r := by
  cases r <;> rfl

theorem admits_visit : Admits id (visit settings now ns c) := by
  cases hd : c.metadata.deletionTimestamp with
  | some time =>
    unfold visit
    rw [hd]
    exact admits_bind (admits_always (rejects_tryRecord _)) fun _ => admits_pure
  | none =>
    rw [visit_eq hd]
    refine Program.rejects_bind.2 (Program.rejects_bind.2
      (Program.Rejects.mono admits_converge fun ts r hts => ?_))
    refine (rejects_conclude r).mono fun ts' r' h => ?_
    obtain ⟨rfl, rfl⟩ := h
    rw [hts, admitted_resultOf]
    simp only [List.append_nil]

theorem admits_reconcile : Admits id (reconcile settings now ns name) := by
  rw [reconcile_eq]
  refine admits_bind admits_getAs fun found => ?_
  cases found with
  | none => exact admits_pure
  | some c => exact admits_visit

end Pass
end ConnectorControl
