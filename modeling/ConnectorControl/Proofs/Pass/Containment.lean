import ConnectorControl.Proofs.Pass.Runs

/-!
# How far a failure reaches

A pass stops at what it finds wrong before it writes what depends on it.

* If there is no Connector to read, nothing is written.
* If the Connector is not valid, or what it mounts is missing (`LacksMount`), nothing is written but
  its status.
* If a trigger is bad (`Trigger.Bad`), wherever it stands, nothing is written but the Deployment and
  the status (`ensures_planTriggers_good`), and the failure is the one that the first bad trigger
  leads to (`ensures_planTriggers_first`).

`contained_of_reconcile` puts these together for all stores and all faults.
-/

namespace ConnectorControl

/-- what is wrong with a trigger, by the failure that it leads to -/
inductive Trigger.Bad (s : Cluster) (auth : ScalerConfig) (ns : String) (t : Trigger) :
    Failure → Prop
  | unknownType (hsets : auth.keySets? t.type = none) :
    Bad s auth ns t (.unknownTriggerType t.type)
  | noSecret {sets : List (List String)} {name : String} (hsets : auth.keySets? t.type = some sets)
    (hname : t.secretName = some name) (hsecret : s.find? ⟨.secret, ns, name⟩ = none) :
    Bad s auth ns t (.notFound ("Secret " ++ ns ++ "/" ++ name))
  | noKeySet {sets : List (List String)} {name : String} {secret : Secret}
    (hsets : auth.keySets? t.type = some sets) (hname : t.secretName = some name)
    (hsecret : s.Holds .secret ns name Secret.decode secret)
    (hkeys : KeySets.matching secret.hasKey sets = none) :
    Bad s auth ns t
      (.secretMissesKeys name t.type (KeySets.closestMissing secret.hasKey sets))

theorem Trigger.Bad.congr {s s' : Cluster} {auth : ScalerConfig} {ns : String} {t : Trigger}
    {e : Failure} (h : t.Bad s auth ns e)
    (hs : ∀ name, s'.find? ⟨.secret, ns, name⟩ = s.find? ⟨.secret, ns, name⟩) :
    t.Bad s' auth ns e := by
  cases h with
  | unknownType hsets => exact .unknownType hsets
  | noSecret hsets hname hsecret => exact .noSecret hsets hname ((hs _).trans hsecret)
  | noKeySet hsets hname hsecret hkeys =>
    obtain ⟨v, o, hv, hread⟩ := hsecret
    exact .noKeySet hsets hname ⟨v, o, (hs _).trans hv, hread⟩ hkeys

/-- the Secret of a trigger, if it names one and it is there, can be read -/
def Trigger.Readable (s : Cluster) (ns : String) (t : Trigger) : Prop :=
  ∀ name, t.secretName = some name → s.find? ⟨.secret, ns, name⟩ = none ∨
    ∃ secret, s.Holds .secret ns name Secret.decode secret

theorem Trigger.Readable.congr {s s' : Cluster} {ns : String} {t : Trigger}
    (h : t.Readable s ns)
    (hs : ∀ name, s'.find? ⟨.secret, ns, name⟩ = s.find? ⟨.secret, ns, name⟩) :
    t.Readable s' ns := by
  intro name hname
  rcases h name hname with hnone | ⟨secret, v, o, hv, hread⟩
  · exact .inl ((hs name).trans hnone)
  · exact .inr ⟨secret, v, o, (hs name).trans hv, hread⟩

/-- a ConfigMap or a Secret that the spec names is not there -/
def LacksMount (s : Cluster) (ns : String) (c : Connector) : Prop :=
  (∃ name, c.spec.configMapName = some name ∧ s.find? ⟨.configMap, ns, name⟩ = none) ∨
    ∃ name, c.spec.secretName = some name ∧ s.find? ⟨.secret, ns, name⟩ = none

namespace Pass

section
variable {d : Disturbance} {P : Call → Cluster → Prop} {s : Cluster} {auth : ScalerConfig}
  {connector ns : String} {t : Trigger} {ts : List Trigger} {index : Nat} {e : Failure}

/-! ## bad triggers -/

theorem ensures_planTriggers_good (hP : ∀ name, P (.get .secret ns name) s) :
    Ensures d P (planTriggers auth connector ns index ts) s
      (fun _ s' => s' = s ∧ ∀ t ∈ ts, ∀ e, ¬t.Bad s auth ns e) fun _ _ => True := by
  induction ts generalizing index with
  | nil => exact ⟨rfl, fun t ht => absurd ht List.not_mem_nil⟩
  | cons t ts ih =>
    -- once this trigger is known to be good, the rest decides
    have hrest : ∀ {s' : Cluster}, s' = s ∧ (∀ u ∈ ts, ∀ e, ¬u.Bad s auth ns e) →
        (∀ e, ¬t.Bad s auth ns e) → s' = s ∧ ∀ u ∈ t :: ts, ∀ e, ¬u.Bad s auth ns e := by
      intro s' h ht
      refine ⟨h.1, fun u hu => ?_⟩
      rcases List.mem_cons.1 hu with rfl | hu
      · exact ht
      · exact h.2 u hu
    unfold planTriggers
    cases hsets : auth.keySets? t.type with
    | none => exact ensures_throw.2 trivial
    | some sets =>
      cases hname : t.secretName with
      | none =>
        show Ensures d P (planTriggers auth connector ns index ts >>= fun ps =>
          pure (⟨t, none⟩ :: ps)) s _ _
        rw [ensures_bind]
        refine ih.mono_ok fun ps s' h => hrest h fun e hbad => ?_
        cases hbad with
        | unknownType h' => rw [hsets] at h'; cases h'
        | noSecret _ h' _ => rw [hname] at h'; cases h'
        | noKeySet _ h' _ _ => rw [hname] at h'; cases h'
      | some name =>
        show Ensures d P (secretKeys ns name t.type sets >>= fun keys =>
          planTriggers auth connector ns (index + 1) ts >>= fun ps =>
            pure (⟨t, some ⟨Derived.triggerAuthName connector index, name, keys⟩⟩ :: ps)) s _ _
        rw [ensures_bind]
        refine ensures_secretKeys (hP name) (fun secret keys hsecret hkeys => ?_) fun _ => trivial
        rw [ensures_bind]
        refine ih.mono_ok fun ps s' h => hrest h fun e hbad => ?_
        cases hbad with
        | unknownType h' => rw [hsets] at h'; cases h'
        | noSecret _ h' hnone =>
          obtain rfl := Option.some.inj (hname.symm.trans h')
          obtain ⟨v, _, hv, _⟩ := hsecret
          rw [hv] at hnone
          cases hnone
        | noKeySet hsets' h' hsecret' hkeys' =>
          obtain rfl := Option.some.inj (hname.symm.trans h')
          obtain rfl := Option.some.inj (hsets.symm.trans hsets')
          obtain rfl := holds_unique hsecret hsecret'
          rw [hkeys] at hkeys'
          cases hkeys'

theorem ensures_getAs_of_holds {α : Type} {kind : Kind} {name : String} {decoder : Decoder α}
    {a : α} {Q : Option α → Cluster → Prop} {E : Failure → Cluster → Prop}
    (ha : s.Holds kind ns name decoder a) (hP : ∀ call, P call s) (hQ : Q (some a) s) :
    Ensures .none P (getAs kind ns name decoder) s Q E := by
  have hread : Fetches (fun _ => True) (getAs kind ns name decoder) := fetches_getAs trivial
  have hvalue := value_getAs.2 ha
  refine (hread.ensures Disturbance.tame_none hP).mono ?_ ?_
  · rintro found _ ⟨rfl, hfound⟩
    obtain rfl := Except.ok.inj (hfound.symm.trans hvalue)
    exact hQ
  · rintro e _ ⟨rfl, he⟩
    exact absurd (he.symm.trans hvalue) nofun

theorem ensures_getAs_of_none {α : Type} {kind : Kind} {name : String} {decoder : Decoder α}
    {Q : Option α → Cluster → Prop} {E : Failure → Cluster → Prop}
    (h : s.find? ⟨kind, ns, name⟩ = none) (hP : P (.get kind ns name) s) (hQ : Q none s) :
    Ensures .none P (getAs kind ns name decoder) s Q E := by
  rw [getAs_eq, ensures_bind]
  refine ensures_call.2 ⟨hP, fun r s' hr => ?_⟩
  obtain ⟨rfl, hr⟩ := hr.of_get
  rcases hr with ⟨_, _, hf⟩ | ⟨rfl, _⟩ | ⟨v, hv, _⟩
  · exact hf.elim
  · exact hQ
  · rw [h] at hv
    cases hv

/-- a trigger that is bad ends the planning with what is wrong with it -/
theorem ensures_planTriggers_bad (hbad : t.Bad s auth ns e) :
    Ensures .none (fun _ _ => True) (planTriggers auth connector ns index (t :: ts)) s
      (fun _ _ => False) fun e' _ => e' = e := by
  unfold planTriggers
  cases hbad with
  | unknownType hsets =>
    rw [hsets]
    exact ensures_throw.2 rfl
  | @noSecret sets name hsets hname hsecret =>
    rw [hsets, hname]
    refine ensures_bind.2 ?_
    unfold secretKeys
    exact ensures_bind.2 (ensures_getAs_of_none hsecret trivial (ensures_throw.2 rfl))
  | @noKeySet sets name secret hsets hname hsecret hkeys =>
    rw [hsets, hname]
    refine ensures_bind.2 ?_
    unfold secretKeys
    refine ensures_bind.2 (ensures_getAs_of_holds hsecret (fun _ => trivial) ?_)
    dsimp only
    rw [hkeys]
    show Ensures .none _ (always (Program.noteRejected t.type) >>= fun _ => throw _) s _ _
    exact ensures_bind.2 (ensures_always.2 rfl)

/-- a trigger that is not bad is planned, and the triggers after it decide -/
theorem ensures_planTriggers_next {E : Failure → Cluster → Prop}
    (hgood : ∀ e, ¬t.Bad s auth ns e) (hread : t.Readable s ns)
    (h : ∀ index, Ensures .none (fun _ _ => True) (planTriggers auth connector ns index ts) s
      (fun _ _ => False) E) :
    Ensures .none (fun _ _ => True) (planTriggers auth connector ns index (t :: ts)) s
      (fun _ _ => False) E := by
  unfold planTriggers
  cases hsets : auth.keySets? t.type with
  | none => exact absurd (.unknownType hsets) (hgood _)
  | some sets =>
    cases hname : t.secretName with
    | none => exact ensures_bind.2 ((h index).mono_ok fun _ _ hf => hf.elim)
    | some name =>
      rcases hread name hname with hnone | ⟨secret, hsecret⟩
      · exact absurd (.noSecret hsets hname hnone) (hgood _)
      · cases hkeys : KeySets.matching secret.hasKey sets with
        | none => exact absurd (.noKeySet hsets hname hsecret hkeys) (hgood _)
        | some keys =>
          refine ensures_bind.2 ?_
          unfold secretKeys
          refine ensures_bind.2 (ensures_getAs_of_holds hsecret (fun _ => trivial) ?_)
          dsimp only
          rw [hkeys]
          exact ensures_bind.2 ((h (index + 1)).mono_ok fun _ _ hf => hf.elim)

/-- the first bad trigger decides how planning fails -/
theorem ensures_planTriggers_first {before after : List Trigger}
    (hbefore : ∀ u ∈ before, (∀ e, ¬u.Bad s auth ns e) ∧ u.Readable s ns)
    (hbad : t.Bad s auth ns e) :
    Ensures .none (fun _ _ => True)
      (planTriggers auth connector ns index (before ++ t :: after)) s
        (fun _ _ => False) fun e' _ => e' = e := by
  induction before generalizing index with
  | nil => exact ensures_planTriggers_bad hbad
  | cons u us ih =>
    obtain ⟨hgood, hread⟩ := hbefore u List.mem_cons_self
    exact ensures_planTriggers_next hgood hread fun index =>
      ih fun v hv => hbefore v (List.mem_cons_of_mem u hv)

end

/-! ## steps of a pass -/

section
variable {d : Disturbance} {P : Call → Cluster → Prop} {s : Cluster} {c : Connector}
  {ns : String} {rule : ScalingRule} {custom : CustomScaling} {settings : PassSettings}
  {now : String}

theorem ensures_requireObject_of_none {kind : Kind} {name : String}
    (h : s.find? ⟨kind, ns, name⟩ = none) (hP : P (.get kind ns name) s) :
    Ensures d P (requireObject kind ns (some name)) s (fun _ _ => False) fun _ _ => True := by
  unfold requireObject
  rw [ensures_bind]
  refine ensures_call.2 ⟨hP, fun r s' hr => ?_⟩
  obtain ⟨rfl, hr⟩ := hr.of_get
  rcases hr with ⟨_, rfl, _⟩ | ⟨rfl, _⟩ | ⟨v, hv, _⟩
  · trivial
  · trivial
  · rw [h] at hv
    cases hv

theorem ensures_requireMounts_lacking (h : LacksMount s ns c)
    (hP : ∀ kind name, P (.get kind ns name) s) :
    Ensures d P (requireMounts c ns) s (fun _ _ => False) fun _ _ => True := by
  have hfirst : Fetches (IsMount ns) (requireObject .configMap ns c.spec.configMapName) :=
    fetches_requireObject fun _ => ⟨rfl, .inr rfl⟩
  unfold requireMounts
  rw [ensures_bind]
  rcases h with ⟨name, hname, hnone⟩ | ⟨name, hname, hnone⟩
  · rw [hname]
    exact (ensures_requireObject_of_none hnone (hP _ _)).mono_ok fun _ _ hf => hf.elim
  · refine (hfirst.unchanged fun k hk => ?_).mono (fun _ s' hs' => ?_) fun _ _ _ => trivial
    · rw [hk.1]
      exact hP _ _
    · subst hs'
      rw [hname]
      exact ensures_requireObject_of_none hnone (hP _ _)

theorem ensures_upsert_deployment_others
    (hP : ∀ call : Call, call.Upserts ((Draft.deployment c).key ns) → ∀ s, P call s) :
    Ensures d P (upsert .deployment ns ((Draft.deployment c).toObject c)) s
      (fun _ s' => ∀ k, k ≠ ((Draft.deployment c).key ns) → s'.find? k = s.find? k)
      fun _ _ => True := by
  have hname : ((Draft.deployment c).toObject c).metadata.name = some c.name := rfl
  have hothers : Ensures d (fun _ _ => True)
      (upsert .deployment ns ((Draft.deployment c).toObject c)) s
        (fun _ s' => ∀ k, k ≠ ((Draft.deployment c).key ns) → s'.find? k = s.find? k)
        fun _ _ => True :=
    ensures_upsert hname trivial trivial trivial
      (fun _ _ _ _ hu _ _ _ hk => hu.find?_of_ne hk) (fun _ _ => trivial) fun _ _ _ _ _ => trivial
  exact (hothers.and_asks (asks_upsert hname)).mono_calls fun call s' h => hP call h.2 s'

theorem ensures_upsertDeployment_others (hP : ∀ call : Call, call.verb = .get ∨
    call.Upserts ((Draft.deployment c).key ns) → ∀ s, P call s) :
    Ensures d P (upsertDeployment c ns) s
      (fun _ s' => ∀ k, k ≠ ((Draft.deployment c).key ns) → s'.find? k = s.find? k)
      fun _ _ => True := by
  rw [upsertDeployment_eq, ensures_bind]
  refine (fetches_requireMounts.unchanged fun k _ => hP _ (.inl rfl) _).mono
    (fun _ s' hs' => ?_) fun _ _ _ => trivial
  subst hs'
  exact ensures_upsert_deployment_others fun call hcall => hP call (.inr hcall)

theorem ensures_plan_bad (hm : rule.mode = .custom custom)
    (hbad : ∃ t ∈ custom.triggers, ∃ e, t.Bad s settings.auth ns e)
    (hP : ∀ name, P (.get .secret ns name) s) :
    Ensures d P (plan settings.auth c ns (some rule)) s (fun _ _ => False) fun _ _ => True := by
  unfold plan
  simp only [hm]
  refine ensures_adapt.2 (ensures_bind.2 ?_)
  refine (ensures_planTriggers_good hP).mono_ok fun ps s' h => ?_
  obtain ⟨t, ht, e, hbad⟩ := hbad
  exact h.2 t ht e hbad

/-- the calls of a pass that a bad trigger stops -/
def BeforeScaling (ns : String) (c : Connector) (call : Call) : Prop :=
  call.verb = .get ∨ call.Upserts ((Draft.deployment c).key ns) ∨
    call.Records ⟨.connector, ns, c.name⟩

def BeforeWriting (ns : String) (c : Connector) (call : Call) : Prop :=
  call.verb = .get ∨ call.Records ⟨.connector, ns, c.name⟩

theorem ensures_converge_badTrigger (now : String)
    (hscaling : c.spec.effectiveScaling = .ok (some rule)) (hm : rule.mode = .custom custom)
    (hbad : ∃ t ∈ custom.triggers, ∃ e, t.Bad s settings.auth ns e) :
    Ensures d (fun call _ => BeforeScaling ns c call) (converge settings now c ns) s
      (fun _ _ => False) fun _ _ => True := by
  refine ensures_converge (fun _ _ => trivial) (fun _ _ => trivial) fun scaling _ hscaling' => ?_
  obtain rfl := Except.ok.inj (hscaling.symm.trans hscaling')
  refine (fetches_requireMounts.unchanged fun k _ => .inl rfl).mono
    (fun _ s₁ hs₁ => ?_) fun _ _ _ => trivial
  subst hs₁
  refine (ensures_upsert_deployment_others fun call hcall _ => .inr (.inl hcall)).mono
    (fun _ s₂ hs₂ => ?_) fun _ _ _ => trivial
  have hbad₂ : ∃ t ∈ custom.triggers, ∃ e, t.Bad s₂ settings.auth ns e := by
    obtain ⟨t, ht, e, hbad⟩ := hbad
    exact ⟨t, ht, e, hbad.congr fun name => hs₂ _ nofun⟩
  exact (ensures_plan_bad hm hbad₂ fun _ => .inl rfl).mono_ok fun _ _ hf => hf.elim

theorem ensures_converge_invalid (settings : PassSettings) (now : String)
    (h : (∃ e, c.validate = .error e) ∨ LacksMount s ns c) :
    Ensures d (fun call _ => BeforeWriting ns c call) (converge settings now c ns) s
      (fun _ _ => False) fun _ _ => True := by
  refine ensures_converge (fun _ _ => trivial) (fun _ _ => trivial) fun scaling hvalid _ => ?_
  rcases h with ⟨e, he⟩ | h
  · rw [he] at hvalid
    cases hvalid
  · exact (ensures_requireMounts_lacking h fun _ _ => .inl rfl).mono_ok fun _ _ hf => hf.elim

/-- a reconciliation makes the calls of the pass, fetches the Connector and records its status -/
theorem ensures_reconcile_calls {R : Call → Prop} {name : String}
    (hc : s.Holds .connector ns name Connector.decode c)
    (hget : R (.get .connector ns name)) (hrecord : ∀ call : Call,
      call.Records ⟨.connector, ns, c.name⟩ → R call)
    (hpass : Ensures d (fun call _ => R call) (converge settings now c ns) s (fun _ _ => True)
      fun _ _ => True) :
    Ensures d (fun call _ => R call) (reconcile settings now ns name) s (fun _ _ => True)
      fun _ _ => True := by
  have htry : ∀ cond s', Program.Ensures d (fun call _ => R call) (tryRecord c ns cond) s'
      fun _ _ => True := fun cond s' => ((asks_tryRecord cond).mono hrecord).ensures
  refine ensures_reconcile hget (fun c' hc' => ?_) trivial fun _ => trivial
  obtain rfl := holds_unique hc hc'
  refine ensures_visit (fun _ => htry _ _) fun _ => ?_
  exact hpass.mono (fun _ s' _ => htry _ s') fun _ s' _ => htry _ s'

end

/-! ## runs -/

section
variable {α : Type} {ns name : String} {c : Connector} {w w' : World} {settings : PassSettings}
  {now : String}

/-- a reconciliation finds the Connector valid and writes its Deployment; that leads to a world -/
structure Deploys (ns name : String) (c : Connector) (w w' : World) : Prop where
  read : ((getAs .connector ns name Connector.decode).run.run World.answer w).result = .ok (some c)
  alive : c.metadata.deletionTimestamp = none
  valid : c.validate = .ok ()
  written : ∃ applied, ((upsertDeployment c ns).run.run World.answer (afterRead ns name w)).result =
    .ok applied
  state : ((upsertDeployment c ns).run.run World.answer (afterRead ns name w)).state = w'

theorem Deploys.find? (h : Deploys ns name c w w') {k : ObjectKey}
    (hk : k ≠ ((Draft.deployment c).key ns)) : w'.cluster.find? k = w.cluster.find? k := by
  have hread : Ensures .any (fun _ _ => True) (getAs .connector ns name Connector.decode) w.cluster
      (fun _ s => s = w.cluster) fun _ s => s = w.cluster :=
    Fetches.unchanged (K := fun _ => True) (fetches_getAs trivial) fun _ _ => trivial
  obtain ⟨_, hend, _⟩ := Program.Ensures.run hread w.within_any
  rw [h.read] at hend
  have hcluster : (afterRead ns name w).cluster = w.cluster := hend
  have hdeploy : Ensures .any (fun _ _ => True) (upsertDeployment c ns)
      (afterRead ns name w).cluster (fun _ s => ∀ k, k ≠ (Draft.deployment c).key ns →
        s.find? k = (afterRead ns name w).cluster.find? k) fun _ _ => True :=
    ensures_upsertDeployment_others fun _ _ _ => trivial
  obtain ⟨_, hend, _⟩ := Program.Ensures.run hdeploy (World.within_any _)
  obtain ⟨applied, happlied⟩ := h.written
  rw [happlied, h.state] at hend
  rw [hend k hk, hcluster]

theorem Deploys.answered (h : Deploys ns name c w w') (hw : w.Within .writes)
    (hc : w.cluster.Holds .connector ns name Connector.decode c) (auth : ScalerConfig)
    (ts : List Trigger) : (planTriggers auth c.name ns 0 ts).run.Answered w' := by
  obtain ⟨_, _, hwithin⟩ := Program.Ensures.run (Program.ensures_trivial
    (upsertDeployment c ns).run _) (run_read Disturbance.tame_writes hw hc).2.2
  rw [h.state] at hwithin
  exact Program.Fetches.answered (fetches_planTriggers (K := fun _ => True) (fun _ => trivial) 0)
    (fun _ _ => Disturbance.tame_writes.spares _ _ _) hwithin

/-- once the Deployment is written, it is the scaling rule that can fail -/
theorem Deploys.result_of_error (h : Deploys ns name c w w') {scaling : Option ScalingRule}
    {stage : Stage} {e : Failure} (hscaling : c.spec.effectiveScaling = .ok scaling)
    (he : ((scale settings now c ns scaling).run.run World.answer w').result = .error (stage, e)) :
    (reconciled settings now ns name w).result = .error e := by
  obtain ⟨applied, happlied⟩ := h.written
  have huntil := (run_untilPruning settings now h.valid hscaling happlied).1
  rw [h.state, he] at huntil
  rw [(run_reconcile settings now h.read).1, (run_visit h.alive).1,
    (run_converge_of_error huntil).1]
  rfl

theorem Deploys.result_first (h : Deploys ns name c w w') {rule : ScalingRule}
    {custom : CustomScaling} {before after : List Trigger} {t : Trigger} {e : Failure}
    (hscaling : c.spec.effectiveScaling = .ok (some rule)) (hm : rule.mode = .custom custom)
    (htriggers : custom.triggers = before ++ t :: after)
    (hbefore : ∀ u ∈ before, (∀ e, ¬u.Bad w.cluster settings.auth ns e) ∧
      u.Readable w.cluster ns)
    (hbad : t.Bad w.cluster settings.auth ns e)
    (hsecrets : (planTriggers settings.auth c.name ns 0 custom.triggers).run.Answered w') :
    (reconciled settings now ns name w).result = .error e := by
  have hsame : ∀ secret, w'.cluster.find? ⟨.secret, ns, secret⟩ =
      w.cluster.find? ⟨.secret, ns, secret⟩ := fun _ => h.find? nofun
  have hfirst : Ensures .none (fun _ _ => True)
      (planTriggers settings.auth c.name ns 0 custom.triggers) w'.cluster (fun _ _ => False)
        fun e' _ => e' = e := by
    rw [htriggers]
    refine ensures_planTriggers_first (fun u hu => ?_) (hbad.congr hsame)
    obtain ⟨hgood, hread⟩ := hbefore u hu
    exact ⟨fun e he => hgood e (he.congr fun secret => (hsame secret).symm), hread.congr hsame⟩
  have hfetches : Fetches (fun _ => True)
      (planTriggers settings.auth c.name ns 0 custom.triggers) :=
    fetches_planTriggers (fun _ => trivial) 0
  have hplanning : ((planTriggers settings.auth c.name ns 0 custom.triggers).run.run World.answer
      w').result = .error e := by
    rw [Program.Fetches.result_of_answered hfetches hsecrets]
    obtain ⟨s', hs'⟩ := Program.Ensures.value hfirst
    cases hv : (planTriggers settings.auth c.name ns 0 custom.triggers).run.value w'.cluster with
    | ok ps =>
      rw [hv] at hs'
      exact hs'.elim
    | error e' =>
      rw [hv] at hs'
      exact congrArg Except.error hs'
  have hplan : ((plan settings.auth c ns (some rule)).run.run World.answer w').result =
      .error (Stage.autoscaling, e) := by
    unfold plan
    simp only [hm]
    exact run_adapt.1.trans (congrArg (Except.mapError _) (run_bind_of_error hplanning).1)
  have hscale : ((scale settings now c ns (some rule)).run.run World.answer w').result =
      .error (Stage.autoscaling, e) := by
    rw [scale_eq]
    exact (run_bind_of_error hplan).1
  exact h.result_of_error hscaling hscale

/-- what a reconciliation has written, it has written by calls that it makes -/
theorem written_of_calls {R : Call → Prop} {s : Cluster} {faults : List Fault}
    (h : Ensures .any (fun call _ => R call) (reconcile settings now ns name) s (fun _ _ => True)
      fun _ _ => True) : ∀ x ∈ (reconciled settings now ns name ⟨s, faults, []⟩).state.writes,
        ∃ call, R call ∧ x = call.write ∧ call.verb ≠ .get := by
  intro x hx
  obtain ⟨call, s', hcall, hwrite⟩ := Program.written_of_ensures (w := ⟨s, faults, []⟩) h
    (World.within_any _) rfl x hx
  obtain ⟨hx, hverb, _⟩ := Cluster.write_of_write? hwrite
  exact ⟨call, hcall, hx, hverb⟩

/-- A failure is contained, in every store and under all faults: without a Connector nothing is
written; with one that is not valid, or without its mounts, the status only; with a bad trigger only
the Deployment besides.  Then the first bad trigger is what the reconciliation fails with, under all
faults on writes, and under others as long as they leave the Secrets of the triggers alone. -/
theorem contained_of_reconcile (s : Cluster) (faults : List Fault) (settings : PassSettings)
    (now ns name : String) :
    ((∀ c, ¬s.Holds .connector ns name Connector.decode c) →
      (reconciled settings now ns name ⟨s, faults, []⟩).state.writes = []) ∧
    ∀ c, s.Holds .connector ns name Connector.decode c →
      (((∃ e, c.validate = .error e) ∨ LacksMount s ns c) →
        ∀ x ∈ (reconciled settings now ns name ⟨s, faults, []⟩).state.writes,
          x.verb = .patchStatus ∧ x.key = ⟨.connector, ns, c.name⟩) ∧
      ∀ rule custom, c.spec.effectiveScaling = .ok (some rule) → rule.mode = .custom custom →
        ((∃ t ∈ custom.triggers, ∃ e, t.Bad s settings.auth ns e) →
          ∀ x ∈ (reconciled settings now ns name ⟨s, faults, []⟩).state.writes,
            ∀ kind : DerivedKind, x.kind = kind → kind = .deployment) ∧
        ∀ before t after e w', custom.triggers = before ++ t :: after →
          (∀ u ∈ before, ∀ e, ¬u.Bad s settings.auth ns e) → t.Bad s settings.auth ns e →
            (∀ u ∈ custom.triggers, u.Readable s ns) → Deploys ns name c ⟨s, faults, []⟩ w' →
              ((∀ f ∈ faults, f.onWrites = true) ∨
                (planTriggers settings.auth c.name ns 0 custom.triggers).run.Answered w') →
                  (reconciled settings now ns name ⟨s, faults, []⟩).result = .error e := by
  constructor
  · intro hnone
    have hcalls : Ensures .any (fun call _ => call.verb = .get) (reconcile settings now ns name) s
        (fun _ _ => True) fun _ _ => True :=
      ensures_reconcile rfl (fun c hc => absurd hc (hnone c)) trivial fun _ => trivial
    refine List.eq_nil_iff_forall_not_mem.2 fun x hx => ?_
    obtain ⟨call, hget, _, hno⟩ := written_of_calls hcalls x hx
    exact hno hget
  · intro c hc
    refine ⟨fun h x hx => ?_, fun rule custom hscaling hm => ⟨fun hbad x hx kind hkind => ?_, ?_⟩⟩
    · have hcalls := ensures_reconcile_calls (d := .any) (R := BeforeWriting ns c) hc (.inl rfl)
        (fun _ => .inr) ((ensures_converge_invalid settings now h).mono_ok fun _ _ hf => hf.elim)
      obtain ⟨call, hget | hrecords, rfl, hno⟩ := written_of_calls hcalls x hx
      · exact absurd hget hno
      · exact ⟨hrecords.verb, hrecords.key⟩
    · have hcalls := ensures_reconcile_calls (d := .any) (R := BeforeScaling ns c) hc (.inl rfl)
        (fun _ h => .inr (.inr h)) ((ensures_converge_badTrigger now hscaling hm hbad).mono_ok
          fun _ _ hf => hf.elim)
      obtain ⟨call, hget | hupserts | hrecords, rfl, hno⟩ := written_of_calls hcalls x hx
      · exact absurd hget hno
      · have hkey : call.kind = Kind.derived .deployment := congrArg ObjectKey.kind hupserts.key
        exact Kind.derived.inj (hkind.symm.trans hkey)
      · have hkey : call.kind = .connector := congrArg ObjectKey.kind hrecords.key
        exact absurd (hkind.symm.trans hkey) nofun
    · intro before t after e w' htriggers hgood hbad hread hdeploys hsecrets
      refine hdeploys.result_first hscaling hm htriggers (fun u hu => ⟨hgood u hu, ?_⟩) hbad ?_
      · refine hread u ?_
        rw [htriggers]
        exact List.mem_append_left _ hu
      · rcases hsecrets with hfaults | hanswered
        · exact hdeploys.answered (fun f hf => .writes (hfaults f hf)) hc _ _
        · exact hanswered

/-- a Connector with a good trigger, one whose Secret is not there, and one of an unknown type -/
def strayConnector : Connector where
  metadata := { (default : Metadata) with name := some "mq", ns := some "apps", uid := some "u1" }
  spec := {
    image := some "mq:1", containers := [], exposePort := none, configRef := none
    secretRef := none, type := none, scaler := none
    scalingRule := some ⟨none, none, .custom ⟨none, none, [⟨"cron", .ofList [], none⟩,
      ⟨"mysql", .ofList [], some "db"⟩, ⟨"kafka", .ofList [], none⟩]⟩⟩ }
  status := none

def strayStore : Cluster := Cluster.empty.set ⟨.connector, "apps", "mq"⟩ strayConnector.toJson

def straySettings : PassSettings where
  auth := ScalerConfig.empty |>.register "cron" [] |>.register "mysql" [["user"]]
  prune := true

/-- of the two bad triggers the first one decides, even if no status can be recorded -/
theorem contained_of_reconcile_stray :
    (reconciled straySettings "t" "apps" "mq" ⟨strayStore,
      [⟨.patchStatus, .connector, none, some (.transient "down"), none, 0⟩], []⟩).result =
        .error (.notFound "Secret apps/db") ∧
    ∀ x ∈ (reconciled straySettings "t" "apps" "mq" ⟨strayStore,
      [⟨.patchStatus, .connector, none, some (.transient "down"), none, 0⟩], []⟩).state.writes,
        ∀ kind : DerivedKind, x.kind = kind → kind = .deployment := by
  let w : World :=
    ⟨strayStore, [⟨.patchStatus, .connector, none, some (.transient "down"), none, 0⟩], []⟩
  have hc : strayStore.Holds .connector "apps" "mq" Connector.decode strayConnector :=
    value_getAs.1 (by decide +kernel)
  have hread : ((getAs .connector "apps" "mq" Connector.decode).run.run World.answer w).result =
      .ok (some strayConnector) := by decide +kernel
  have hwritten : ((upsertDeployment strayConnector "apps").run.run World.answer
      (afterRead "apps" "mq" w)).result = .ok .created := by decide +kernel
  have hnone : strayStore.find? ⟨.secret, "apps", "db"⟩ = none := by decide +kernel
  have hsets : straySettings.auth.keySets? "mysql" = some [["user"]] := by decide +kernel
  have hbad : Trigger.Bad strayStore straySettings.auth "apps" ⟨"mysql", .ofList [], some "db"⟩
      (.notFound "Secret apps/db") :=
    .noSecret hsets rfl hnone
  have hgood : ∀ e,
      ¬Trigger.Bad strayStore straySettings.auth "apps" ⟨"cron", .ofList [], none⟩ e := by
    intro e h
    cases h with
    | unknownType hsets => exact absurd hsets (by decide +kernel)
    | noSecret _ hname _ => cases hname
    | noKeySet _ hname _ _ => cases hname
  obtain ⟨hcontained, hfirst⟩ := ((contained_of_reconcile strayStore w.faults straySettings "t"
    "apps" "mq").2 strayConnector hc).2 _ _ rfl rfl
  refine ⟨hfirst [⟨"cron", .ofList [], none⟩] _ [⟨"kafka", .ofList [], none⟩] _ _ rfl
    (List.forall_mem_singleton.2 hgood) hbad ?_ ⟨hread, rfl, rfl, ⟨_, hwritten⟩, rfl⟩
      (.inl (List.forall_mem_singleton.2 rfl)),
        hcontained ⟨_, List.mem_cons_of_mem _ List.mem_cons_self, _, hbad⟩⟩
  intro u hu name hname
  simp only [List.mem_cons, List.not_mem_nil, or_false] at hu
  rcases hu with rfl | rfl | rfl
  · cases hname
  · obtain rfl := Option.some.inj hname
    exact .inl hnone
  · cases hname

end
end Pass
end ConnectorControl
