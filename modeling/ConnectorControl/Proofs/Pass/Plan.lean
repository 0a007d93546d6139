import ConnectorControl.Pass.Converge
import ConnectorControl.Proofs.Pass.Upsert
import ConnectorControl.Proofs.Store.Fetches

/-!
# Planning before writing

A pass first finds out what to write and then writes it: `scale_eq` splits the part of a pass that
follows a scaling rule into a plan, which only fetches, and the upserts of what is planned.

* `Plans`   how triggers are planned: each with the keys of the first alternative that its Secret
            holds, and with the authentications numbered in the order of the triggers;
* `ScalePlan`   what is to be written for a scaling rule, and the outcome to record.
-/

namespace ConnectorControl

/-- what a cluster holds under a name, read as its kind -/
def Cluster.Holds {α : Type} (s : Cluster) (kind : Kind) (ns name : String) (decoder : Decoder α)
    (a : α) : Prop :=
  ∃ v o, s.find? ⟨kind, ns, name⟩ = some v ∧ readObject v = .ok o ∧ o.decodeAs decoder = .ok a

theorem Cluster.decode_of_readObject {v : Json} {o : Object} (h : readObject v = .ok o) :
    Object.decode v = .ok o := by
  unfold readObject at h
  split at h
  next o' ho =>
    obtain rfl := Except.ok.inj h
    exact ho
  · cases h

namespace Pass

variable {d : Disturbance} {P : Call → Cluster → Prop} {s : Cluster} {ns : String}

/-! ## fetching -/

def readAs {α : Type} (decoder : Decoder α) : Option Object → Pass (Option α)
  | none => return none
  | some o =>
    match o.decodeAs decoder with
    | .ok a => return some a
    | .error e => throw (.undecodable e)

theorem getAs_eq {α : Type} (kind : Kind) (name : String) (decoder : Decoder α) :
    getAs kind ns name decoder = get kind ns name >>= readAs decoder := rfl

theorem readAs_of_ok {α : Type} {decoder : Decoder α} {o : Object} {a : α}
    (h : o.decodeAs decoder = .ok a) : readAs decoder (some o) = pure (some a) := by
  simp only [readAs, h]

theorem readAs_of_error {α : Type} {decoder : Decoder α} {o : Object} {e : DecodeError}
    (h : o.decodeAs decoder = .error e) : readAs decoder (some o) = throw (.undecodable e) := by
  simp only [readAs, h]

theorem ensures_getAs_or_hidden {α : Type} {kind : Kind} {name : String} {decoder : Decoder α}
    {Q : Option α → Cluster → Prop} {E : Failure → Cluster → Prop} (hP : P (.get kind ns name) s)
    (hsome : ∀ a, s.Holds kind ns name decoder a → Q (some a) s)
    (hnone : s.find? ⟨kind, ns, name⟩ = none ∨ d.hides (.get kind ns name) → Q none s)
    (hE : ∀ e, E e s) : Ensures d P (getAs kind ns name decoder) s Q E := by
  rw [getAs_eq, ensures_bind]
  refine ensures_call.2 ⟨hP, fun r s' hr => ?_⟩
  obtain ⟨rfl, hr⟩ := hr.of_get
  rcases hr with ⟨e, rfl, _⟩ | ⟨rfl, hmissing⟩ | ⟨v, hv, rfl⟩
  · exact hE e
  · exact hnone hmissing
  · cases ho : Cluster.readObject v with
    | error e => exact hE e
    | ok o =>
      show Ensures d P (readAs decoder (some o)) _ Q E
      cases ha : o.decodeAs decoder with
      | error e =>
        rw [readAs_of_error ha]
        exact hE _
      | ok a =>
        rw [readAs_of_ok ha]
        exact hsome a ⟨v, o, hv, ho, ha⟩

theorem ensures_getAs {α : Type} {kind : Kind} {name : String} {decoder : Decoder α}
    {Q : Option α → Cluster → Prop} {E : Failure → Cluster → Prop} (hP : P (.get kind ns name) s)
    (hsome : ∀ a, s.Holds kind ns name decoder a → Q (some a) s) (hnone : Q none s)
    (hE : ∀ e, E e s) : Ensures d P (getAs kind ns name decoder) s Q E :=
  ensures_getAs_or_hidden hP hsome (fun _ => hnone) hE

theorem ensures_getAs_holds {α : Type} {kind : Kind} {name : String} {decoder : Decoder α}
    (d : Disturbance) (s : Cluster) : Ensures d (fun _ _ => True) (getAs kind ns name decoder) s
      (fun found _ => ∀ a ∈ found, s.Holds kind ns name decoder a) fun _ _ => True := by
  refine ensures_getAs trivial (fun a ha a' ha' => ?_) nofun fun _ => trivial
  obtain rfl := Option.some.inj ha'
  exact ha

theorem value_getAs {α : Type} {kind : Kind} {name : String} {decoder : Decoder α} {a : α} :
    (getAs kind ns name decoder).run.value s = .ok (some a) ↔ s.Holds kind ns name decoder a := by
  constructor
  · intro h
    obtain ⟨s', hs'⟩ := Program.Ensures.value (ensures_getAs_holds .none s)
    rw [h] at hs'
    exact hs' a rfl
  · rintro ⟨v, o, hv, ho, ha⟩
    have hanswer : Cluster.answer (.get kind ns name) s = (.ok (some o), s) := by
      simp only [Cluster.answer, hv, ho]
      rfl
    have hask : (getAs kind ns name decoder).run.value s =
        (ExceptT.bindCont (m := Program) (readAs decoder)
          (Cluster.answer (.get kind ns name) s).1).value
            (Cluster.answer (.get kind ns name) s).2 :=
      rfl
    rw [hask, hanswer]
    show (readAs decoder (some o)).run.value s = _
    rw [readAs_of_ok ha]
    rfl

theorem holds_unique {α : Type} {kind : Kind} {name : String} {decoder : Decoder α} {a b : α}
    (ha : s.Holds kind ns name decoder a) (hb : s.Holds kind ns name decoder b) : a = b := by
  rw [← value_getAs] at ha hb
  exact Option.some.inj (Except.ok.inj (ha.symm.trans hb))

theorem fetches_getAs {α : Type} {K : ObjectKey → Prop} {kind : Kind} {name : String}
    {decoder : Decoder α} (hK : K ⟨kind, ns, name⟩) : Fetches K (getAs kind ns name decoder) := by
  rw [getAs_eq]
  refine fetches_bind (fetches_get hK) fun o => ?_
  cases o with
  | none => exact fetches_pure
  | some o =>
    cases ha : o.decodeAs decoder with
    | error e =>
      rw [readAs_of_error ha]
      exact fetches_throw
    | ok a =>
      rw [readAs_of_ok ha]
      exact fetches_pure

theorem fetches_requireObject {K : ObjectKey → Prop} {kind : Kind} {name : Option String}
    (hK : ∀ n, K ⟨kind, ns, n⟩) : Fetches K (requireObject kind ns name) := by
  cases name with
  | none => exact fetches_pure
  | some n =>
    refine fetches_bind (fetches_get (hK n)) fun o => ?_
    cases o with
    | none => exact fetches_throw
    | some o => exact fetches_pure

/-! ## triggers -/

/-- triggers with the authentications that they need, of which there are `index` before -/
inductive Plans (s : Cluster) (auth : ScalerConfig) (connector ns : String) :
    Nat → List Trigger → List PlannedTrigger → Prop
  | nil (index : Nat) : Plans s auth connector ns index [] []
  | plain {index : Nat} {t : Trigger} {ts : List Trigger} {ps : List PlannedTrigger}
    (hs : t.secretName = none) (rest : Plans s auth connector ns index ts ps) :
    Plans s auth connector ns index (t :: ts) (⟨t, none⟩ :: ps)
  | secret {index : Nat} {t : Trigger} {ts : List Trigger} {ps : List PlannedTrigger}
    {name : String} {sets : List (List String)} {secret : Secret} {keys : List String}
    (hs : t.secretName = some name) (hsets : auth.keySets? t.type = some sets)
    (hsecret : s.Holds .secret ns name Secret.decode secret)
    (hkeys : KeySets.matching secret.hasKey sets = some keys)
    (rest : Plans s auth connector ns (index + 1) ts ps) :
    Plans s auth connector ns index (t :: ts)
      (⟨t, some ⟨Derived.triggerAuthName connector index, name, keys⟩⟩ :: ps)

theorem ensures_secretKeys {name type : String} {sets : List (List String)}
    {Q : List String → Cluster → Prop} {E : Failure → Cluster → Prop}
    (hP : P (.get .secret ns name) s)
    (hQ : ∀ secret keys, s.Holds .secret ns name Secret.decode secret →
      KeySets.matching secret.hasKey sets = some keys → Q keys s)
    (hE : ∀ e, E e s) : Ensures d P (secretKeys ns name type sets) s Q E := by
  unfold secretKeys
  rw [ensures_bind]
  refine ensures_getAs hP (fun secret hsecret => ?_) (hE _) hE
  dsimp only
  cases hk : KeySets.matching secret.hasKey sets with
  | some keys => exact hQ secret keys hsecret hk
  | none => exact hE _

/-- planning triggers leaves the cluster alone, and every trigger gets what it needs -/
theorem ensures_planTriggers {auth : ScalerConfig} {connector : String} {ts : List Trigger}
    {E : Failure → Cluster → Prop} (hP : ∀ name, P (.get .secret ns name) s) (hE : ∀ e, E e s)
    (index : Nat) : Ensures d P (planTriggers auth connector ns index ts) s
      (fun ps s' => s' = s ∧ Plans s auth connector ns index ts ps) E := by
  induction ts generalizing index with
  | nil => exact ⟨rfl, .nil index⟩
  | cons t ts ih =>
    unfold planTriggers
    cases hsets : auth.keySets? t.type with
    | none => exact hE _
    | some sets =>
      cases hs : t.secretName with
      | none =>
        show Ensures d P (planTriggers auth connector ns index ts >>= fun ps =>
          pure (⟨t, none⟩ :: ps)) s _ E
        rw [ensures_bind]
        refine (ih index).mono_ok fun ps s' h => ?_
        exact ⟨h.1, .plain hs h.2⟩
      | some name =>
        show Ensures d P (secretKeys ns name t.type sets >>= fun keys =>
          planTriggers auth connector ns (index + 1) ts >>= fun ps =>
            pure (⟨t, some ⟨Derived.triggerAuthName connector index, name, keys⟩⟩ :: ps)) s _ E
        rw [ensures_bind]
        refine ensures_secretKeys (hP name) (fun secret keys hsecret hkeys => ?_) hE
        rw [ensures_bind]
        refine (ih (index + 1)).mono_ok fun ps s' h => ?_
        exact ⟨h.1, .secret hs hsets hsecret hkeys h.2⟩

theorem fetches_planTriggers {K : ObjectKey → Prop} {auth : ScalerConfig} {connector : String}
    {ts : List Trigger} (hK : ∀ name, K ⟨.secret, ns, name⟩) (index : Nat) :
    Fetches K (planTriggers auth connector ns index ts) := by
  induction ts generalizing index with
  | nil => exact fetches_pure
  | cons t ts ih =>
    unfold planTriggers
    split
    · exact fetches_throw
    · split
      · exact fetches_bind (ih index) fun ps => fetches_pure
      · refine fetches_bind ?_ fun keys => fetches_bind (ih (index + 1)) fun ps => fetches_pure
        unfold secretKeys
        refine fetches_bind (fetches_getAs (hK _)) fun secret => ?_
        split
        · exact fetches_throw
        · split
          · exact fetches_pure
          · exact fetches_bind (fetches_always trivial) fun _ => fetches_throw

end Pass

/-! ## what is to be written -/

/-- an object to be written; the rest of it comes from the Connector -/
structure Draft where
  kind : DerivedKind
  name : String
  spec : Json

namespace Draft

def toObject (d : Draft) (c : Connector) : Object := Derived.object c d.kind d.name d.spec

def key (d : Draft) (ns : String) : ObjectKey := ⟨d.kind, ns, d.name⟩

def deployment (c : Connector) : Draft := ⟨.deployment, c.name, (Deployment.ofConnector c).spec⟩

def service (c : Connector) (port : Int32) (type : ServiceType) : Draft :=
  ⟨.service, c.name, (Service.ofConnector c port type).spec⟩

def httpScaledObject (c : Connector) (rule : ScalingRule) (http : HttpScaling) (port : Int32) :
    Draft :=
  ⟨.httpScaledObject, Derived.objectName .httpScaledObject c.name,
    (HttpScaledObject.ofConnector c rule http port).spec⟩

def triggerAuth (a : TriggerAuth) : Draft := ⟨.triggerAuthentication, a.name, a.spec⟩

def scaledObject (c : Connector) (rule : ScalingRule) (custom : CustomScaling)
    (planned : List PlannedTrigger) : Draft :=
  ⟨.scaledObject, Derived.objectName .scaledObject c.name,
    (ScaledObject.ofConnector c rule custom (planned.map PlannedTrigger.scaleTrigger)).spec⟩

end Draft

/-- the objects of a scaling rule in the order of their writing, and the outcome at a time -/
structure ScalePlan where
  drafts : List Draft
  outcome : String → Outcome

namespace ScalePlan

def none (c : Connector) : ScalePlan := ⟨[], fun now => .ofDeployment now c⟩

def http (c : Connector) (rule : ScalingRule) (http : HttpScaling) (port : Int32) : ScalePlan where
  drafts := [.service c port http.serviceType, .httpScaledObject c rule http port]
  outcome now := .ofHttp now c http

def auths (planned : List PlannedTrigger) : List TriggerAuth := planned.filterMap (·.auth)

def custom (c : Connector) (rule : ScalingRule) (custom : CustomScaling)
    (planned : List PlannedTrigger) : ScalePlan where
  drafts := (auths planned).map .triggerAuth ++ [.scaledObject c rule custom planned]
  outcome now := .ofCustom now c custom ((auths planned).map (·.name))

end ScalePlan

namespace Pass

/-- finds out what to write for a scaling rule -/
def plan (auth : ScalerConfig) (c : Connector) (ns : String) :
    Option ScalingRule → Staged ScalePlan
  | none => return .none c
  | some rule =>
    match rule.mode with
    | .http http =>
      match c.spec.effectivePort with
      | none => throw (.validate, SpecFault.httpWithoutPort.failure)
      | some port => return .http c rule http port
    | .custom custom => inStage .autoscaling do
      let planned ← planTriggers auth c.name ns 0 custom.triggers
      return .custom c rule custom planned

def upsertAll (c : Connector) (ns : String) : List Draft → Pass Unit
  | [] => return ()
  | d :: ds => do
    let _ ← upsert d.kind ns (d.toObject c)
    upsertAll c ns ds

def requireMounts (c : Connector) (ns : String) : Pass Unit := do
  requireObject .configMap ns c.spec.configMapName
  requireObject .secret ns c.spec.secretName

theorem adapt_bind {α β ε ε' : Type} (p : ExceptT ε Program α) (f : α → ExceptT ε Program β)
    (g : ε → ε') : (p >>= f).adapt g = p.adapt g >>= fun a => (f a).adapt g := by
  show (Program.bind (Program.bind p (ExceptT.bindCont f)) fun r => .done (r.mapError g)) =
    Program.bind (Program.bind p fun r => .done (r.mapError g))
      (ExceptT.bindCont fun a => (f a).adapt g)
  rw [Program.bind_assoc, Program.bind_assoc]
  congr 1
  funext r
  cases r <;> rfl

theorem inStage_bind {α β : Type} (stage : Stage) (p : Pass α) (f : α → Pass β) :
    inStage stage (p >>= f) = inStage stage p >>= fun a => inStage stage (f a) :=
  adapt_bind p f _

theorem inStage_pure {α : Type} (stage : Stage) (a : α) : inStage stage (pure a) = pure a := rfl

theorem upsertAll_append (c : Connector) (a b : List Draft) :
    upsertAll c ns (a ++ b) = upsertAll c ns a >>= fun _ => upsertAll c ns b := by
  induction a with
  | nil => rfl
  | cons d ds ih =>
    show (upsert d.kind ns (d.toObject c) >>= fun _ => upsertAll c ns (ds ++ b)) = _
    rw [ih]
    exact (bind_assoc _ _ _).symm

theorem upsertAuths_eq (c : Connector) (planned : List PlannedTrigger) :
    upsertAuths c ns planned = upsertAll c ns ((ScalePlan.auths planned).map .triggerAuth) := by
  induction planned with
  | nil => rfl
  | cons p ps ih =>
    unfold upsertAuths
    cases ha : p.auth with
    | none =>
      have : ScalePlan.auths (p :: ps) = ScalePlan.auths ps := List.filterMap_cons_none ha
      rw [this]
      exact ih
    | some a =>
      have : ScalePlan.auths (p :: ps) = a :: ScalePlan.auths ps := List.filterMap_cons_some ha
      rw [this]
      show (upsert .triggerAuthentication ns (a.toObject c) >>= fun _ => upsertAuths c ns ps) = _
      rw [ih]
      rfl

/-- a scaling rule is followed by planning first and writing then -/
theorem scale_eq (settings : PassSettings) (now : String) (c : Connector)
    (scaling : Option ScalingRule) : scale settings now c ns scaling =
      plan settings.auth c ns scaling >>= fun p =>
        inStage .autoscaling (upsertAll c ns p.drafts) >>= fun _ => pure (p.outcome now) := by
  cases scaling with
  | none => rfl
  | some rule =>
    obtain ⟨max, min, mode⟩ := rule
    unfold scale plan
    dsimp only
    cases mode with
    | http http =>
      cases hport : c.spec.effectivePort with
      | none => rfl
      | some port =>
        have hwrite : upsertAll c ns
            (ScalePlan.http c ⟨max, min, .http http⟩ http port).drafts =
            upsertService c ns port http.serviceType >>= fun _ =>
              upsertHttpScaledObject c ns ⟨max, min, .http http⟩ http port >>= fun _ => pure () :=
          rfl
        simp only [pure_bind, hwrite, inStage_bind, inStage_pure, bind_assoc]
        rfl
    | custom custom =>
      unfold upsertScaledObject
      simp only [inStage_bind, inStage_pure, bind_assoc, pure_bind]
      congr 1
      funext planned
      have hwrite : upsertAll c ns
          (ScalePlan.custom c ⟨max, min, .custom custom⟩ custom planned).drafts =
          upsertAuths c ns planned >>= fun _ => upsert .scaledObject ns
            (Draft.toObject (.scaledObject c ⟨max, min, .custom custom⟩ custom planned) c) >>=
              fun _ => pure () := by
        rw [upsertAuths_eq]
        exact upsertAll_append c _ _
      simp only [hwrite, inStage_bind, inStage_pure, bind_assoc, pure_bind]
      congr 1
      funext _
      congr 1
      funext _
      show pure (Outcome.ofCustom now c custom (planned.filterMap fun p => p.auth.map (·.name))) =
        pure (Outcome.ofCustom now c custom ((ScalePlan.auths planned).map (·.name)))
      rw [ScalePlan.auths, List.map_filterMap]

/-! ## writing one object after the other -/

/-- Objects under different keys are written one after the other: `I` is what every write keeps, `W`
what a write makes of the value under its key. -/
theorem ensures_upsertAll {c : Connector} {all : List Draft} {I : Cluster → Prop}
    {W : Draft → Json → Prop} {E : Failure → Cluster → Prop}
    (hkeys : (all.map (·.key ns)).Nodup) (hP : ∀ x s, I s → P x s)
    (hstep : ∀ done x rest s w s', all = done ++ x :: rest → I s →
      (∀ y ∈ done, ∃ v, s.find? (y.key ns) = some v ∧ W y v) →
        Upserted x.kind ns x.name (x.toObject c) s w s' → I s' ∧ W x w)
    (hE : ∀ e s, I s → (¬d.Quiet ∨
      ∃ x ∈ all, ∃ v, s.find? (x.key ns) = some v ∧ Cluster.readObject v = .error e) → E e s)
    (hs : I s) : Ensures d P (upsertAll c ns all) s
      (fun _ s' => I s' ∧ ∀ x ∈ all, ∃ v, s'.find? (x.key ns) = some v ∧ W x v) E := by
  suffices ∀ rest done s, all = done ++ rest → I s →
      (∀ y ∈ done, ∃ v, s.find? (y.key ns) = some v ∧ W y v) →
        Ensures d P (upsertAll c ns rest) s
          (fun _ s' => I s' ∧ ∀ x ∈ all, ∃ v, s'.find? (x.key ns) = some v ∧ W x v) E from
    this all [] s rfl hs fun y hy => absurd hy List.not_mem_nil
  intro rest
  induction rest with
  | nil =>
    intro done s hall hs hdone
    rw [List.append_nil] at hall
    exact ⟨hs, by rw [hall]; exact hdone⟩
  | cons x rest ih =>
    intro done s hall hs hdone
    have hx : x ∈ all := by rw [hall]; exact List.mem_append_right _ List.mem_cons_self
    unfold upsertAll
    rw [ensures_bind]
    refine ensures_upsert (show _ = some x.name from rfl) (hP _ s hs) (hP _ s hs) (hP _ s hs)
      (fun _ w s' _ hu _ _ => ?_) (fun e he => hE e s hs ?_) fun e w s' hu hw => ?_
    · obtain ⟨hs', hwx⟩ := hstep done x rest s w s' hall hs hdone hu
      refine ih (done ++ [x]) s' (by rw [hall]; simp) hs' fun y hy => ?_
      rcases List.mem_append.1 hy with hy | hy
      · -- the keys differ, so the earlier values stay
        have hne : y.key ns ≠ x.key ns := by
          rw [hall, List.map_append, List.nodup_append] at hkeys
          exact hkeys.2.2 _ (List.mem_map_of_mem hy) _ List.mem_cons_self
        rw [hu.find?_of_ne hne]
        exact hdone y hy
      · obtain rfl := List.mem_singleton.1 hy
        exact ⟨w, hu.find?_self, hwx⟩
    · rcases he with hd | ⟨v, hv, he⟩
      · exact .inl hd
      · exact .inr ⟨x, hx, v, hv, he⟩
    · obtain ⟨hs', _⟩ := hstep done x rest s w s' hall hs hdone hu
      exact hE e s' hs' (.inr ⟨x, hx, w, hu.find?_self, hw⟩)

/-! ## a pass in its steps -/

theorem upsertDeployment_eq (c : Connector) : upsertDeployment c ns =
    requireMounts c ns >>= fun _ => upsert .deployment ns ((Draft.deployment c).toObject c) :=
  (bind_assoc _ _ _).symm

def IsMount (ns : String) (k : ObjectKey) : Prop :=
  k.ns = ns ∧ (k.kind = .secret ∨ k.kind = .configMap)

theorem fetches_requireMounts {c : Connector} : Fetches (IsMount ns) (requireMounts c ns) :=
  fetches_bind (fetches_requireObject fun _ => ⟨rfl, .inr rfl⟩) fun _ =>
    fetches_requireObject fun _ => ⟨rfl, .inl rfl⟩

theorem fetches_plan {auth : ScalerConfig} {c : Connector} {scaling : Option ScalingRule} :
    Fetches (IsMount ns) (plan auth c ns scaling) := by
  cases scaling with
  | none => exact fetches_pure
  | some rule =>
    unfold plan
    dsimp only
    split
    · split
      · exact fetches_throw
      · exact fetches_pure
    · exact fetches_adapt (fetches_bind (fetches_planTriggers (fun _ => ⟨rfl, .inl rfl⟩) 0)
        fun _ => fetches_pure)

def untilPruning (settings : PassSettings) (now : String) (c : Connector) (ns : String) :
    Staged Outcome := do
  inStage .validate (ofExcept c.validate)
  let scaling ← inStage .validate (ofExcept (c.spec.effectiveScaling.mapError .conversion))
  let _ ← inStage .deployment (upsertDeployment c ns)
  scale settings now c ns scaling

def finish (settings : PassSettings) (c : Connector) (ns : String) (outcome : Outcome) :
    Staged Condition := do
  if settings.prune then
    let _ ← inStage .autoscaling (prune c ns outcome.desired)
  return outcome.condition

theorem converge_eq_untilPruning (settings : PassSettings) (now : String) (c : Connector) :
    converge settings now c ns =
      untilPruning settings now c ns >>= finish settings c ns := by
  unfold untilPruning
  simp only [bind_assoc]
  rfl

/-- before pruning: what each step ensures, the next one starts from -/
theorem ensures_untilPruning {settings : PassSettings} {now : String} {c : Connector}
    {Q : Outcome → Cluster → Prop} {E : Stage × Failure → Cluster → Prop}
    (hvalidate : ∀ e, c.validate = .error e → E (.validate, e) s)
    (hscaling : ∀ e, c.spec.effectiveScaling = .error e → E (.validate, .conversion e) s)
    (h : ∀ scaling, c.validate = .ok () → c.spec.effectiveScaling = .ok scaling →
      Ensures d P (requireMounts c ns) s (fun _ s =>
        Ensures d P (upsert .deployment ns ((Draft.deployment c).toObject c)) s (fun _ s =>
          Ensures d P (plan settings.auth c ns scaling) s (fun p s =>
            Ensures d P (upsertAll c ns p.drafts) s (fun _ => Q (p.outcome now))
              fun e => E (.autoscaling, e))
          E)
        fun e => E (.deployment, e))
      fun e => E (.deployment, e)) :
    Ensures d P (untilPruning settings now c ns) s Q E := by
  unfold untilPruning
  rw [ensures_bind]
  refine ensures_adapt.2 (ensures_ofExcept.2 ?_)
  cases hv : c.validate with
  | error e => exact hvalidate e hv
  | ok _ =>
    show Ensures d P _ s Q E
    rw [ensures_bind]
    refine ensures_adapt.2 (ensures_ofExcept.2 ?_)
    cases hs : c.spec.effectiveScaling with
    | error e => exact hscaling e hs
    | ok scaling =>
      show Ensures d P _ s Q E
      rw [ensures_bind, upsertDeployment_eq]
      refine ensures_adapt.2 (ensures_bind.2 ?_)
      refine (h scaling hv hs).mono_ok fun _ s₁ h₁ => ?_
      refine Ensures.mono_ok h₁ fun _ s₂ h₂ => ?_
      rw [scale_eq]
      refine ensures_bind.2 (Ensures.mono_ok h₂ fun p s₃ h₃ => ?_)
      exact ensures_bind.2 (ensures_adapt.2 h₃)

theorem ensures_finish {settings : PassSettings} {c : Connector} {outcome : Outcome}
    {Q : Condition → Cluster → Prop} {E : Stage × Failure → Cluster → Prop}
    (hon : settings.prune = true → Ensures d P (prune c ns outcome.desired) s
      (fun _ => Q outcome.condition) fun e => E (.autoscaling, e))
    (hoff : settings.prune = false → Q outcome.condition s) :
    Ensures d P (finish settings c ns outcome) s Q E := by
  unfold finish
  cases hp : settings.prune with
  | false => exact hoff hp
  | true =>
    show Ensures d P (inStage .autoscaling (prune c ns outcome.desired) >>= fun _ =>
      pure outcome.condition) s Q E
    rw [ensures_bind]
    exact ensures_adapt.2 (hon hp)

/-- a pass over a Connector: what each step ensures, the next one starts from -/
theorem ensures_converge {settings : PassSettings} {now : String} {c : Connector}
    {Q : Condition → Cluster → Prop} {E : Stage × Failure → Cluster → Prop}
    (hvalidate : ∀ e, c.validate = .error e → E (.validate, e) s)
    (hscaling : ∀ e, c.spec.effectiveScaling = .error e → E (.validate, .conversion e) s)
    (h : ∀ scaling, c.validate = .ok () → c.spec.effectiveScaling = .ok scaling →
      Ensures d P (requireMounts c ns) s (fun _ s =>
        Ensures d P (upsert .deployment ns ((Draft.deployment c).toObject c)) s (fun _ s =>
          Ensures d P (plan settings.auth c ns scaling) s (fun p s =>
            Ensures d P (upsertAll c ns p.drafts) s (fun _ s =>
              (settings.prune = true → Ensures d P (prune c ns (p.outcome now).desired) s
                (fun _ => Q (p.outcome now).condition) fun e => E (.autoscaling, e)) ∧
              (settings.prune = false → Q (p.outcome now).condition s))
            fun e => E (.autoscaling, e))
          E)
        fun e => E (.deployment, e))
      fun e => E (.deployment, e)) :
    Ensures d P (converge settings now c ns) s Q E := by
  rw [converge_eq_untilPruning, ensures_bind]
  refine (ensures_untilPruning (Q := fun outcome s =>
    (settings.prune = true → Ensures d P (prune c ns outcome.desired) s
      (fun _ => Q outcome.condition) fun e => E (.autoscaling, e)) ∧
    (settings.prune = false → Q outcome.condition s)) hvalidate hscaling h).mono_ok
      fun outcome s' hs' => ?_
  exact ensures_finish hs'.1 hs'.2

end Pass
end ConnectorControl
