import ConnectorControl.Proofs.Derived.Soundness
import ConnectorControl.Proofs.Pass.Meaning
import ConnectorControl.Proofs.Pass.Runs
import ConnectorControl.Proofs.Store.Assures

/-!
# A pass over a Connector that is accepted

What the validation of a Connector lets through, no later step of a pass finds fault with: every
object that is written is sound, and no failure of the pass blames the spec.

* `Call.Sound`   the calls that a pass over a Connector may make: whatever it creates or merges over
                 what is there is sound, and no condition that it records calls the spec invalid;
* `sound_of_valid`   these are all the calls of a pass over a Connector that is accepted.
-/

namespace ConnectorControl

/-- the calls that a pass over a Connector may make when nothing is wrong with its spec -/
inductive Call.Sound (c : Connector) (ns : String) : Call → Prop
  | gets (kind : Kind) (ns' name : String) : Sound c ns (.get kind ns' name)
  | lists (kind : Kind) (ns' selector : String) : Sound c ns (.list kind ns' selector)
  | deletes (kind : Kind) (ns' name : String) : Sound c ns (.delete kind ns' name)
  | creates {kind : DerivedKind} {o : Object} (h : Derived.Sound c (o.toJson.get "spec") kind) :
    Sound c ns (.create kind ns o.stripNulls)
  | patches {kind : DerivedKind} {name : String} {o : Object}
    (h : Derived.Sound c (o.toJson.get "spec") kind) : Sound c ns (.patch kind ns name o.toJson)
  | records {cond : Condition} {status : Status} (hreason : cond.reason ≠ some .invalidSpec)
    (hstatus : c.statusAfter cond = some status) :
    Sound c ns (.patchStatus .connector ns c.name (Pass.statusPatch status))

theorem Draft.get_spec (x : Draft) (c : Connector) : (x.toObject c).toJson.get "spec" = x.spec :=
  Object.get_spec_ofSpec

/-- a rule that is accepted has a host and a port, or triggers with types -/
theorem ScalingRule.mode_cases {rule : ScalingRule} {port : Option Int32}
    (h : rule.modeFault port = none) :
    (∃ http p, rule.mode = .http http ∧ port = some p ∧ Text.isBlank http.host = false) ∨
      ∃ custom, rule.mode = .custom custom ∧ custom.triggers ≠ [] ∧
        ∀ t ∈ custom.triggers, Text.isBlank t.type = false := by
  cases hm : rule.mode with
  | http http =>
    obtain ⟨hport, hhost⟩ := (modeFault_http hm).1 h
    obtain ⟨p, hp⟩ := Option.ne_none_iff_exists'.1 hport
    exact .inl ⟨http, p, rfl, hp, hhost⟩
  | custom custom =>
    obtain ⟨hne, htypes⟩ := (modeFault_custom hm).1 h
    exact .inr ⟨custom, rfl, hne, htypes⟩

namespace Pass

variable {P : Call → Prop} {F : Failure → Prop} {c : Connector} {ns name : String}
  {settings : PassSettings} {now : String}

/-! ## what fetches assure -/

section
variable (hF : ∀ e, ¬e.IsVerdict → F e)
include hF

theorem assures_getAs {α : Type} {kind : Kind} {decoder : Decoder α}
    (hP : P (.get kind ns name)) :
    Assures P F (getAs kind ns name decoder) (fun _ => True) F := by
  rw [getAs_eq]
  refine assures_bind (assures_call hP) fun found _ => ?_
  cases found with
  | none => exact assures_pure trivial
  | some o =>
    cases ho : o.decodeAs decoder with
    | ok a =>
      rw [readAs_of_ok ho]
      exact assures_pure trivial
    | error e =>
      rw [readAs_of_error ho]
      exact assures_throw (hF _ not_false)

theorem assures_requireObject {kind : Kind} {wanted : Option String}
    (hP : ∀ name, P (.get kind ns name)) :
    Assures P F (requireObject kind ns wanted) (fun _ => True) F := by
  cases wanted with
  | none => exact assures_pure trivial
  | some name =>
    refine assures_bind (assures_call (hP name)) fun found _ => ?_
    cases found with
    | none => exact assures_throw (hF _ not_false)
    | some o => exact assures_pure trivial

theorem assures_secretKeys {type : String} {sets : List (List String)}
    (hP : P (.get .secret ns name)) :
    Assures P F (secretKeys ns name type sets) (fun _ => True) F := by
  refine assures_bind (assures_getAs hF hP) fun found _ => ?_
  cases found with
  | none => exact assures_throw (hF _ not_false)
  | some secret =>
    dsimp only
    split
    · exact assures_pure trivial
    · exact assures_bind (assures_always (Q := fun _ => True) trivial) fun _ _ =>
        assures_throw (hF _ not_false)

theorem assures_planTriggers {auth : ScalerConfig} {connector : String} {ts : List Trigger}
    (hP : ∀ name, P (.get .secret ns name)) (index : Nat) :
    Assures P F (planTriggers auth connector ns index ts)
      (fun ps => ps.map (·.trigger) = ts) F := by
  induction ts generalizing index with
  | nil => exact assures_pure rfl
  | cons t ts ih =>
    unfold planTriggers
    split
    · exact assures_throw (hF _ not_false)
    · split
      · exact assures_bind (ih index) fun ps hps => assures_pure (by rw [List.map_cons, hps])
      · refine assures_bind (assures_secretKeys hF (hP _)) fun keys _ => ?_
        exact assures_bind (ih (index + 1)) fun ps hps =>
          assures_pure (by rw [List.map_cons, hps])

/-! ## what is planned for a rule -/

/-- the specs that are planned are sound, and the outcome is no failure -/
theorem assures_plan {scaling : Option ScalingRule} (hv : c.validate = .ok ())
    (hs : c.spec.effectiveScaling = .ok scaling) (hP : ∀ name, P (.get .secret ns name)) :
    Assures P F (plan settings.auth c ns scaling)
      (fun p => (∀ x ∈ p.drafts, Derived.Sound c x.spec x.kind) ∧
        ∀ now, (p.outcome now).condition.reason ≠ some .invalidSpec)
      fun e => e.1 ≠ .validate ∧ F e.2 := by
  obtain ⟨hworkload, scaling', hs', hrules⟩ := Connector.validate_eq_ok.1 hv
  obtain rfl := Except.ok.inj (hs.symm.trans hs')
  have hports := (ConnectorSpec.workloadFault_eq_none.1 hworkload).2
  cases scaling with
  | none => exact assures_pure ⟨fun x hx => absurd hx List.not_mem_nil, fun _ => nofun⟩
  | some rule =>
    obtain ⟨hbounds, hmode⟩ := hrules rule rfl
    unfold plan
    dsimp only
    rcases ScalingRule.mode_cases hmode with ⟨http, port, hm, hport, hhost⟩ |
      ⟨custom, hm, hne, htypes⟩
    · rw [hm, hport]
      refine assures_pure ⟨fun x hx => ?_, fun _ => nofun⟩
      rcases List.mem_cons.1 hx with rfl | hx
      · exact Service.sound (hports port hport)
      · obtain rfl := List.mem_singleton.1 hx
        exact HttpScaledObject.sound hs hbounds (hports port hport) hhost
    · rw [hm]
      refine assures_adapt (E := F) (assures_bind (assures_planTriggers hF hP 0)
        fun ps hps => ?_) fun e he => ⟨nofun, he⟩
      refine assures_pure ⟨fun x hx => ?_, fun _ => nofun⟩
      rcases List.mem_append.1 hx with hx | hx
      · obtain ⟨a, _, rfl⟩ := List.mem_map.1 hx
        exact trivial
      · obtain rfl := List.mem_singleton.1 hx
        refine ScaledObject.sound hs hbounds ?_ fun t ht => ?_
        · rintro hnil
          rw [List.map_eq_nil_iff.1 hnil] at hps
          exact hne hps.symm
        · obtain ⟨p, hp, rfl⟩ := List.mem_map.1 ht
          exact htypes p.trigger (hps ▸ List.mem_map_of_mem hp)

/-! ## what writing assures -/

theorem assures_upsert {x : Draft} (h : Derived.Sound c x.spec x.kind) :
    Assures (Call.Sound c ns) F (upsert x.kind ns (x.toObject c)) (fun _ => True) F := by
  rw [← x.get_spec c] at h
  have hover : Assures (Call.Sound c ns) F (patchOver x.kind ns x.name (x.toObject c))
      (fun _ => True) F := by
    refine assures_bind (assures_call (.gets _ _ _)) fun found _ => ?_
    cases found with
    | none => exact assures_throw (hF _ not_false)
    | some o =>
      exact assures_bind (assures_call (.patches h)) fun _ _ => assures_pure trivial
  have hcreate : (Program.attempt (.create x.kind ns (x.toObject c).stripNulls)).Assures
      (Call.Sound c ns) F fun r => ∀ e, r = .error e → F e := ⟨.creates h, fun r hr => hr⟩
  refine assures_bind (assures_always hcreate) fun r hr => ?_
  split
  · exact assures_pure trivial
  · exact hover
  · exact assures_throw (hr _ rfl)

theorem assures_upsertAll {xs : List Draft} (h : ∀ x ∈ xs, Derived.Sound c x.spec x.kind) :
    Assures (Call.Sound c ns) F (upsertAll c ns xs) (fun _ => True) F := by
  induction xs with
  | nil => exact assures_pure trivial
  | cons x xs ih =>
    exact assures_bind (assures_upsert hF (h x List.mem_cons_self)) fun _ _ =>
      ih fun y hy => h y (List.mem_cons_of_mem _ hy)

omit hF in
theorem assures_prune {desired : List (DerivedKind × String)} :
    Assures (Call.Sound c ns) F (prune c ns desired) (fun _ => True) F := by
  have hdelete : ∀ uid kind os, Assures (Call.Sound c ns) F
      (deleteStale desired uid ns kind os) (fun _ => True) F := by
    intro uid kind os
    induction os with
    | nil => exact assures_pure trivial
    | cons o os ih =>
      unfold deleteStale
      split
      · exact assures_bind (assures_call (.deletes _ _ _)) fun _ _ =>
          assures_bind ih fun _ _ => assures_pure trivial
      · exact ih
  unfold prune
  cases c.metadata.uid with
  | none => exact assures_pure trivial
  | some uid =>
    dsimp only
    generalize Derived.prunable = kinds
    induction kinds with
    | nil => exact assures_pure trivial
    | cons kind kinds ih =>
      unfold pruneKinds
      exact assures_bind (assures_call (.lists _ _ _)) fun found _ =>
        assures_bind (hdelete uid kind found) fun _ _ =>
          assures_bind ih fun _ _ => assures_pure trivial

/-! ## the pass -/

/-- a pass over a Connector that is accepted does not fail in its validation -/
theorem assures_converge (hv : c.validate = .ok ()) :
    Assures (Call.Sound c ns) F (converge settings now c ns)
      (fun cond => cond.reason ≠ some .invalidSpec) fun e => e.1 ≠ .validate ∧ F e.2 := by
  obtain ⟨hworkload, scaling, hs, _⟩ := Connector.validate_eq_ok.1 hv
  have hdeployment : Assures (Call.Sound c ns) F (upsertDeployment c ns) (fun _ => True) F := by
    rw [upsertDeployment_eq]
    refine assures_bind (Q := fun _ => True) (assures_bind
      (assures_requireObject hF fun _ => .gets _ _ _) fun _ _ =>
        assures_requireObject hF fun _ => .gets _ _ _) fun _ _ => ?_
    exact assures_upsert hF (x := .deployment c) (Deployment.sound hworkload)
  have huntil : Assures (Call.Sound c ns) F (untilPruning settings now c ns)
      (fun outcome => outcome.condition.reason ≠ some .invalidSpec)
      fun e => e.1 ≠ .validate ∧ F e.2 := by
    rw [untilPruning_of_valid hv hs]
    refine assures_bind (assures_adapt hdeployment fun e he => ⟨nofun, he⟩) fun _ _ => ?_
    rw [scale_eq]
    refine assures_bind (assures_plan hF hv hs fun _ => .gets _ _ _) fun p hp => ?_
    exact assures_bind (assures_adapt (assures_upsertAll hF hp.1) fun e he => ⟨nofun, he⟩)
      fun _ _ => assures_pure (hp.2 now)
  rw [converge_eq_untilPruning]
  refine assures_bind huntil fun outcome houtcome => ?_
  unfold finish
  split
  · exact assures_bind (assures_adapt assures_prune fun e he => ⟨nofun, he⟩) fun _ _ =>
      assures_pure houtcome
  · exact assures_pure houtcome

omit hF in
theorem assures_tryRecord {cond : Condition} (h : cond.reason ≠ some .invalidSpec) :
    (tryRecord c ns cond).Assures (Call.Sound c ns) F fun _ => True := by
  cases hafter : c.statusAfter cond with
  | none =>
    rw [tryRecord_of_none hafter]
    exact trivial
  | some status =>
    have hrecord : Assures (Call.Sound c ns) F (record c ns cond) (fun _ => True) F := by
      unfold record
      rw [hafter]
      exact assures_bind (assures_call (.records h hafter)) fun _ _ => assures_pure trivial
    exact Program.assures_bind.2 (Program.Assures.mono hrecord fun _ _ => trivial)

theorem assures_visit (hv : c.validate = .ok ()) :
    Assures (Call.Sound c ns) F (visit settings now ns c) (fun _ => True) F := by
  unfold visit
  split
  · exact assures_bind (assures_always (assures_tryRecord nofun)) fun _ _ => assures_pure trivial
  · refine assures_bind (assures_always (assures_converge hF hv)) fun r hr => ?_
    cases r with
    | ok cond =>
      exact assures_bind (assures_always (assures_tryRecord (hr.1 cond rfl))) fun _ _ =>
        assures_pure trivial
    | error e =>
      obtain ⟨stage, e⟩ := e
      obtain ⟨hstage, he⟩ := hr.2 (stage, e) rfl
      have hreason : (Condition.ofFailure now stage e).reason ≠ some .invalidSpec := by
        cases stage with
        | validate => exact absurd rfl hstage
        | deployment => exact nofun
        | autoscaling => exact nofun
      exact assures_bind (assures_always (assures_tryRecord hreason)) fun _ _ => assures_throw he

end

/-! ## the run of a reconciliation -/

/-- Validation is enough.  Whatever is stored and whatever comes between, a pass over a Connector
that is accepted makes only calls that are sound: every object that it writes can be used, and it
records no condition that calls the spec invalid.  It ends with a failure that blames the spec only
if a fault made it up. -/
theorem sound_of_valid {w : World} (hc : w.cluster.Holds .connector ns name Connector.decode c)
    (hv : c.validate = .ok ()) (settings : PassSettings) (now : String) :
    (∀ m ∈ (reconcile settings now ns name).run.calls World.answer w, m.1.Sound c ns) ∧
      ∀ e, (reconciled settings now ns name w).result = .error e → e.IsVerdict →
        ∃ f ∈ w.faults, f.failure = some e := by
  -- a failure that the pass passes on is no verdict, or it is that of a fault
  let F : Failure → Prop := fun e => e.IsVerdict → ∃ f ∈ w.faults, f.failure = some e
  have hF : ∀ e, ¬e.IsVerdict → F e := fun e he h => absurd h he
  have hw : w.FailsAs F := fun f hf e he _ => ⟨f, hf, he⟩
  have hread : Assures (Call.Sound c ns) F (getAs .connector ns name Connector.decode)
      (fun _ => True) F := assures_getAs hF (.gets _ _ _)
  obtain ⟨_, hresult, _⟩ := Program.Assures.run hread hF hw
  have hrest : (ExceptT.bindCont (visitFound settings now ns)
      ((getAs .connector ns name Connector.decode).run.run World.answer w).result).Assures
        (Call.Sound c ns) F fun r => ∀ e, r = .error e → F e := by
    cases hr : ((getAs .connector ns name Connector.decode).run.run World.answer w).result with
    | error e =>
      intro e' he'
      obtain rfl := Except.error.inj he'
      exact hresult.2 e hr
    | ok found =>
      cases found with
      | none => exact fun _ he => nomatch he
      | some c' =>
        obtain rfl := holds_unique (holds_of_read hr) hc
        exact Program.Assures.mono (assures_visit hF hv) fun _ h => h.2
  obtain ⟨hcalls, hend⟩ := Program.Assures.run_bind (Program.Assures.mono hread fun _ _ => trivial)
    hrest hF hw
  exact ⟨hcalls, hend⟩

theorem sound_of_valid_shop :
    (∀ m ∈ (reconcile shopSettings "t0" "apps" "shop").run.calls World.answer
        (shopWorld shopConnector), m.1.Sound shopConnector "apps") ∧
      ∀ e, (reconciled shopSettings "t0" "apps" "shop" (shopWorld shopConnector)).result =
        .error e → ¬e.IsVerdict := by
  have hc : (shopWorld shopConnector).cluster.Holds .connector "apps" "shop" Connector.decode
      shopConnector := value_getAs.1 (by decide +kernel)
  obtain ⟨hcalls, hend⟩ := sound_of_valid hc (by decide +kernel) shopSettings "t0"
  refine ⟨hcalls, fun e he hverdict => ?_⟩
  obtain ⟨f, hf, hfe⟩ := hend e he hverdict
  obtain rfl := List.mem_singleton.1 hf
  obtain rfl := Option.some.inj hfe
  exact hverdict

end Pass
end ConnectorControl
