import ConnectorControl.Proofs.Connector.Meaning
import ConnectorControl.Proofs.Pass.Calls
import ConnectorControl.Proofs.Pass.Likeness
import ConnectorControl.Proofs.Pass.Runs
import ConnectorControl.Proofs.Store.Alike

/-!
# Passes over specs that mean the same

A pass reads a spec through what it means only, so the passes over two specs that mean the same are
one program (`visit_withSpec`).  At different times a pass makes the same calls, but for the times
of what it records (`alike_visit`).  So stores that differ in the spec of a Connector at most, where
both specs mean the same, are reconciled alike (`alike_of_meansSame`).

* `reconcile_migrated`     a Connector of the first revision and its translation;
* `reconcile_withLegacy`   a Connector with a scaling rule, whatever type and scaler it has besides,
                           as long as they do not change its port.
-/

namespace ConnectorControl
namespace Pass

section
variable {settings : PassSettings} {now now' ns : String} {c : Connector} {t : ConnectorSpec}

/-! ## one program for one meaning -/

theorem upsertAll_withSpec (ds : List Draft) :
    upsertAll (c.withSpec t) ns ds = upsertAll c ns ds := by
  induction ds with
  | nil => rfl
  | cons d ds ih =>
    show (upsert d.kind ns (d.toObject c) >>= fun _ => upsertAll (c.withSpec t) ns ds) = _
    rw [ih]
    rfl

theorem plan_withSpec (h : c.spec.MeansSame t) (auth : ScalerConfig)
    (scaling : Option ScalingRule) :
    plan auth (c.withSpec t) ns scaling = plan auth c ns scaling := by
  unfold plan
  rw [show (c.withSpec t).spec.effectivePort = c.spec.effectivePort from h.port]
  rfl

theorem upsertDeployment_withSpec (h : c.spec.MeansSame t) :
    upsertDeployment (c.withSpec t) ns = upsertDeployment c ns := by
  unfold upsertDeployment
  rw [Connector.deployment_withSpec h, show (c.withSpec t).spec = t from rfl, h.configMapName_eq,
    h.secretName_eq]

theorem converge_withSpec (h : c.spec.MeansSame t) (settings : PassSettings) (now : String) :
    converge settings now (c.withSpec t) ns = converge settings now c ns := by
  have hscale : scale settings now (c.withSpec t) ns = scale settings now c ns := by
    funext scaling
    rw [scale_eq, scale_eq, plan_withSpec h]
    simp only [upsertAll_withSpec]
  unfold converge
  rw [Connector.validate_withSpec h, show (c.withSpec t).spec.effectiveScaling = _ from h.scaling,
    upsertDeployment_withSpec h, hscale]
  rfl

theorem visit_withSpec (h : c.spec.MeansSame t) (settings : PassSettings) (now : String) :
    visit settings now ns (c.withSpec t) = visit settings now ns c := by
  unfold visit
  rw [converge_withSpec h]
  rfl

/-! ## one pass at two times -/

/-- a plan whose outcome at another time differs in the time of its condition only -/
structure Timed (p : ScalePlan) : Prop where
  desired : ∀ now now', (p.outcome now').desired = (p.outcome now).desired
  condition : ∀ now now',
    (p.outcome now').condition = { (p.outcome now).condition with timestamp := now' }

theorem not_connector_of_fetches {α ε : Type} {p : ExceptT ε Program α}
    (h : Fetches (IsMount ns) p) : Asks (·.kind ≠ .connector) p := by
  refine h.asks_of fun k hk hkind => ?_
  rcases hk.2 with hmount | hmount <;> exact absurd (hmount.symm.trans hkind) nofun

theorem not_connector_of_upserts {call : Call} {x : Draft} (h : call.Upserts (x.key ns)) :
    call.kind ≠ .connector := by
  have hkind : call.kind = x.kind := congrArg ObjectKey.kind h.key
  rw [hkind]
  exact nofun

theorem alike_plan {auth : ScalerConfig} (scaling : Option ScalingRule) :
    Alike Json.withoutTimes (fun p q => p = q ∧ Timed p) (plan auth c ns scaling)
      (plan auth c ns scaling) := by
  cases scaling with
  | none => exact alike_pure ⟨rfl, ⟨fun _ _ => rfl, fun _ _ => rfl⟩⟩
  | some rule =>
    unfold plan
    dsimp only
    cases rule.mode with
    | http http =>
      dsimp only
      cases c.spec.effectivePort with
      | none => exact alike_throw
      | some port => exact alike_pure ⟨rfl, ⟨fun _ _ => rfl, fun _ _ => rfl⟩⟩
    | custom custom =>
      have htriggers : Asks (·.kind ≠ .connector)
          (planTriggers auth c.name ns 0 custom.triggers) :=
        not_connector_of_fetches (fetches_planTriggers (fun _ => ⟨rfl, .inl rfl⟩) 0)
      refine alike_adapt (alike_bind htriggers.alike fun planned planned' heq => ?_)
      subst heq
      exact alike_pure ⟨rfl, ⟨fun _ _ => rfl, fun _ _ => rfl⟩⟩

theorem alike_scale (scaling : Option ScalingRule) :
    Alike Json.withoutTimes (fun o o' => o'.desired = o.desired ∧
        o'.condition = { o.condition with timestamp := now' })
      (scale settings now c ns scaling) (scale settings now' c ns scaling) := by
  rw [scale_eq, scale_eq]
  refine alike_bind (alike_plan scaling) fun p p' hp => ?_
  obtain ⟨rfl, htimed⟩ := hp
  have hupserts : Asks (·.kind ≠ .connector) (upsertAll c ns p.drafts) :=
    (asks_upsertAll p.drafts).mono fun call ⟨_, _, hcall⟩ => not_connector_of_upserts hcall
  refine alike_bind (alike_adapt hupserts.alike) fun _ _ _ => ?_
  exact alike_pure ⟨htimed.desired now now', htimed.condition now now'⟩

/-- a pass does the same at every time, and its condition differs in the time -/
theorem alike_converge (settings : PassSettings) (now now' : String) :
    Alike Json.withoutTimes (fun cond cond' => cond' = { cond with timestamp := now' })
      (converge settings now c ns) (converge settings now' c ns) := by
  have hdeployment : Asks (·.kind ≠ .connector) (upsertDeployment c ns) := by
    have hname : ((Draft.deployment c).toObject c).metadata.name = some c.name := rfl
    rw [upsertDeployment_eq]
    exact asks_bind (not_connector_of_fetches fetches_requireMounts) fun _ =>
      (asks_upsert hname).mono fun _ hcall =>
        not_connector_of_upserts (x := .deployment c) hcall
  refine alike_bind (alike_adapt alike_ofExcept) fun _ _ _ => ?_
  refine alike_bind (alike_adapt alike_ofExcept) fun scaling scaling' heq => ?_
  subst heq
  refine alike_bind (alike_adapt hdeployment.alike) fun _ _ _ => ?_
  refine alike_bind (alike_scale scaling) fun o o' ho => ?_
  obtain ⟨hdesired, hcond⟩ := ho
  split
  · have hprune : Asks (·.kind ≠ .connector) (prune c ns o.desired) := by
      refine (asks_prune o.desired).mono fun call hcall => ?_
      obtain ⟨kind, hkind⟩ := hcall.kind
      rw [hkind]
      exact nofun
    rw [hdesired]
    exact alike_bind (alike_adapt hprune.alike) fun _ _ _ => alike_pure hcond
  · exact alike_pure hcond

theorem withoutTimes_statusPatch {cond cond' : Condition} {status status' : Status}
    (h : cond.sameObservation cond' = true) (hs : c.statusAfter cond = some status)
    (hs' : c.statusAfter cond' = some status') :
    (statusPatch status).withoutTimes = (statusPatch status').withoutTimes := by
  obtain rfl := eq_of_statusAfter hs
  obtain rfl := eq_of_statusAfter hs'
  refine Json.mapMember_congr (Json.isTable_object _) (Json.isTable_object _) ?_ fun k hk => ?_
  · have hconditions : ∀ cs : List Condition, cs ≠ [] →
        (Status.toJson ⟨cs, c.metadata.generation⟩).find? "conditions" =
          some (.arr (cs.map Condition.toJson)) := fun cs hcs =>
      Status.find?_toJson_conditions (s := ⟨cs, _⟩) hcs
    refine congrArg some (Json.mapMember_congr Status.isTable_toJson Status.isTable_toJson ?_
      fun k hk => ?_)
    · rw [hconditions _ History.push_ne_nil, hconditions _ History.push_ne_nil]
      show some (Json.arr _) = some (Json.arr _)
      rw [List.map_map, List.map_map]
      exact congrArg (fun items => some (Json.arr items))
        (History.map_push _ h (Condition.without_timestamp h))
    · unfold Status.toJson
      rw [Json.find?_objectOfSet (by simp), Json.find?_objectOfSet (by simp)]
      simp only [Entries.find?_cons, if_neg hk]
  · unfold statusPatch
    rw [Json.find?_object (by simp), Json.find?_object (by simp)]
    simp only [Entries.find?_cons, if_neg hk]

/-- observations that say the same are recorded by the same call, but for times -/
theorem alike_tryRecord {cond cond' : Condition} (h : cond.sameObservation cond' = true) :
    Program.Alike Json.withoutTimes Eq (tryRecord c ns cond) (tryRecord c ns cond') := by
  cases hs : c.statusAfter cond with
  | none =>
    rw [tryRecord_of_none hs, tryRecord_of_none ((statusAfter_congr h).1 hs)]
    exact .done rfl
  | some status =>
    obtain ⟨status', hs'⟩ : ∃ status', c.statusAfter cond' = some status' := by
      refine Option.ne_none_iff_exists'.1 fun hnone => ?_
      rw [(statusAfter_congr h).2 hnone] at hs
      cases hs
    rw [tryRecord_of_some hs, tryRecord_of_some hs']
    exact .record (withoutTimes_statusPatch h hs hs') fun _ => .done rfl

/-- a visit does the same at every time, but for the times of what it records -/
theorem alike_visit (settings : PassSettings) (now now' : String) :
    Alike Json.withoutTimes Eq (visit settings now ns c) (visit settings now' ns c) := by
  cases hd : c.metadata.deletionTimestamp with
  | some time =>
    have hsame : (Condition.terminating now).sameObservation (.terminating now') = true := rfl
    unfold visit
    rw [hd]
    exact alike_bind (alike_always (alike_tryRecord hsame)) fun _ _ _ => alike_pure rfl
  | none =>
    have hconverge : Program.Alike _ _ (converge settings now c ns).run
        (converge settings now' c ns).run := alike_converge settings now now'
    rw [visit_eq hd, visit_eq hd]
    refine alike_bind (alike_always hconverge) fun r r' hr => ?_
    have hsame : (conditionOf now r).sameObservation (conditionOf now' r') = true := by
      cases hr with
      | ok hcond =>
        subst hcond
        exact Condition.sameObservation_iff.2 ⟨rfl, rfl, rfl, rfl⟩
      | error e => exact Condition.sameObservation_iff.2 ⟨rfl, rfl, rfl, rfl⟩
    have hresult : resultOf r = resultOf r' := by
      cases hr <;> rfl
    unfold conclude
    rw [← hresult]
    exact alike_bind (alike_always (alike_tryRecord hsame)) fun _ _ _ => alike_ofExcept

end

/-! ## two reconciliations -/

/-- Two runs, at two times, that come to the same, with the same writes in the same order, where
what is recorded of a Connector may differ in times unless the two times are one; and that leave
stores which differ in their Connectors at most. -/
structure ComesToSame {α : Type} (now now' : String) (r r' : Program.Run World α) : Prop where
  result : r.result = r'.result
  writes : r.state.writes.map (Write.mapStatus Json.withoutTimes) =
    r'.state.writes.map (Write.mapStatus Json.withoutTimes)
  atOneTime : now = now' → r.state.writes = r'.state.writes
  store : r.state.cluster.Beside r'.state.cluster

section
variable {settings : PassSettings} {now now' ns name : String} {c c' : Connector}
  {t : ConnectorSpec} {v w : World} {f : Json → Json}

def BothOrNone {α : Type} (a b : α) (found found' : Option α) : Prop :=
  (found = some a ∧ found' = some b) ∨ (found = none ∧ found' = none)

/-- a Connector is fetched on both sides or on none, or the same failure comes between -/
theorem alike_get {x x' : Json} {o o' : Object} (hworlds : v.Beside f w)
    (hx : v.cluster.find? ⟨.connector, ns, name⟩ = some x) (ho : Cluster.readObject x = .ok o)
    (hx' : w.cluster.find? ⟨.connector, ns, name⟩ = some x')
    (ho' : Cluster.readObject x' = .ok o') :
    ∃ faults r r', World.answer (.get .connector ns name) v = (r, { v with faults }) ∧
      World.answer (.get .connector ns name) w = (r', { w with faults }) ∧
        EndsAlike (BothOrNone o o') r r' := by
  have hanswer : ∀ {s : Cluster} {x : Json} {o : Object},
      s.find? ⟨.connector, ns, name⟩ = some x → Cluster.readObject x = .ok o →
        Cluster.answer (.get .connector ns name) s = (.ok (some o), s) := by
    intro s x o hx ho
    simp only [Cluster.answer, hx, ho]
    rfl
  have hpass : ∀ {u : World} {x : Json} {o : Object} faults,
      u.cluster.find? ⟨.connector, ns, name⟩ = some x → Cluster.readObject x = .ok o →
        World.passOn (.get .connector ns name) { u with faults } =
          (.ok (some o), { u with faults }) := by
    intro u x o faults hx ho
    unfold World.passOn
    rw [hanswer hx ho]
    rfl
  unfold World.answer
  rw [hworlds.faults]
  rcases Fault.take (.get .connector ns name) w.faults with ⟨_ | f, faults⟩
  · exact ⟨faults, _, _, hpass faults hx ho, hpass faults hx' ho', .ok (.inl ⟨rfl, rfl⟩)⟩
  · dsimp only [Fault.hidden]
    cases f.failure with
    | some e => exact ⟨faults, _, _, rfl, rfl, .error e⟩
    | none => exact ⟨faults, _, _, rfl, rfl, .ok (.inr ⟨rfl, rfl⟩)⟩

/-- a Connector is read on both sides or on none, or the same failure comes between -/
theorem alike_read (hworlds : v.Beside f w)
    (hc : v.cluster.Holds .connector ns name Connector.decode c)
    (hc' : w.cluster.Holds .connector ns name Connector.decode c') :
    EndsAlike (BothOrNone c c')
      ((getAs .connector ns name Connector.decode).run.run World.answer v).result
      ((getAs .connector ns name Connector.decode).run.run World.answer w).result ∧
      (afterRead ns name v).Beside f (afterRead ns name w) := by
  obtain ⟨x, o, hx, ho, hread⟩ := hc
  obtain ⟨x', o', hx', ho', hread'⟩ := hc'
  obtain ⟨faults, r, r', hv, hw, hr⟩ := alike_get hworlds hx ho hx' ho'
  have hafter : World.Beside f { v with faults } { w with faults } := hworlds.withFaults faults
  have hrun : ∀ {u u' : World} {r : (Call.get .connector ns name).Reply},
      World.answer (.get .connector ns name) u = (r, u') →
        ((getAs .connector ns name Connector.decode).run.run World.answer u).result =
            (Program.run World.answer (ExceptT.bindCont (readAs Connector.decode) r) u').result ∧
          afterRead ns name u =
            (Program.run World.answer (ExceptT.bindCont (readAs Connector.decode) r) u').state := by
    intro u u' r hu
    have hask : (getAs .connector ns name Connector.decode).run.run World.answer u =
        let reply := World.answer (.get .connector ns name) u
        let rest := Program.run World.answer
          (ExceptT.bindCont (readAs Connector.decode) reply.1) reply.2
        { rest with events := .call _ reply.1 :: rest.events } := rfl
    unfold afterRead
    rw [hask, hu]
    exact ⟨rfl, rfl⟩
  have hdecoded : ∀ {o : Object} {c : Connector}, o.decodeAs Connector.decode = .ok c →
      readAs Connector.decode (some o) = pure (some c) := readAs_of_ok
  obtain ⟨hresult, hstate⟩ := hrun hv
  obtain ⟨hresult', hstate'⟩ := hrun hw
  rw [hresult, hresult', hstate, hstate']
  cases hr with
  | error e => exact ⟨.error e, hafter⟩
  | ok hfound =>
    rcases hfound with ⟨rfl, rfl⟩ | ⟨rfl, rfl⟩
    · show EndsAlike _ (Program.run World.answer (readAs Connector.decode (some o)).run _).result
        (Program.run World.answer (readAs Connector.decode (some o')).run _).result ∧
          World.Beside f (Program.run World.answer (readAs Connector.decode (some o)).run _).state
            (Program.run World.answer (readAs Connector.decode (some o')).run _).state
      rw [hdecoded hread, hdecoded hread']
      exact ⟨.ok (.inl ⟨rfl, rfl⟩), hafter⟩
    · exact ⟨.ok (.inr ⟨rfl, rfl⟩), hafter⟩

theorem run_of_alike_visit (hworlds : v.Beside f w)
    (hc : v.cluster.Holds .connector ns name Connector.decode c)
    (hc' : w.cluster.Holds .connector ns name Connector.decode c')
    (hvisit : Alike f Eq (visit settings now ns c) (visit settings now' ns c')) :
    (reconciled settings now ns name v).result = (reconciled settings now' ns name w).result ∧
      (reconciled settings now ns name v).state.Beside f
        (reconciled settings now' ns name w).state := by
  obtain ⟨hread, hafter⟩ := alike_read hworlds hc hc'
  obtain ⟨hresult, hstate⟩ := Program.Alike.run hvisit hafter
  unfold reconciled
  rw [reconcile_eq, reconcile_eq]
  generalize hr : ((getAs .connector ns name Connector.decode).run.run World.answer v).result = r
    at hread
  generalize hr' : ((getAs .connector ns name Connector.decode).run.run World.answer w).result = r'
    at hread
  cases hread with
  | error e =>
    obtain ⟨hlast, hlaststate⟩ := run_bind_of_error (f := visitFound settings now ns) hr
    obtain ⟨hlast', hlaststate'⟩ := run_bind_of_error (f := visitFound settings now' ns) hr'
    rw [hlast, hlast', hlaststate, hlaststate']
    exact ⟨rfl, hafter⟩
  | ok hfound =>
    obtain ⟨hlast, hlaststate⟩ := run_bind_of_ok (f := visitFound settings now ns) hr
    obtain ⟨hlast', hlaststate'⟩ := run_bind_of_ok (f := visitFound settings now' ns) hr'
    rw [hlast, hlast', hlaststate, hlaststate']
    rcases hfound with ⟨rfl, rfl⟩ | ⟨rfl, rfl⟩
    · exact ⟨hresult.eq, hstate⟩
    · exact ⟨rfl, hafter⟩

theorem alike_of_meansSame (hworlds : v.Beside id w)
    (hc : v.cluster.Holds .connector ns name Connector.decode c)
    (hc' : w.cluster.Holds .connector ns name Connector.decode (c.withSpec t))
    (h : c.spec.MeansSame t) (settings : PassSettings) (now now' : String) :
    ComesToSame now now' (reconciled settings now ns name v)
      (reconciled settings now' ns name w) := by
  have hvisit : Alike Json.withoutTimes Eq (visit settings now ns c)
      (visit settings now' ns (c.withSpec t)) := by
    rw [visit_withSpec h]
    exact alike_visit settings now now'
  have hwritten : v.written = w.written := by
    have hid := hworlds.written
    rwa [Write.mapStatus_id, List.map_id, List.map_id] at hid
  have htimes : v.Beside Json.withoutTimes w :=
    ⟨hworlds.cluster, hworlds.faults, by rw [hwritten]⟩
  obtain ⟨hresult, hstate⟩ := run_of_alike_visit htimes hc hc' hvisit
  refine ⟨hresult, hstate.writes, fun hnow => ?_, hstate.cluster⟩
  -- at one time both visits are the same program
  subst hnow
  have hsame : Alike id Eq (visit settings now ns c) (visit settings now ns (c.withSpec t)) := by
    rw [visit_withSpec h]
    exact (alike_visit settings now now).refl
  have hwrites := (run_of_alike_visit hworlds hc hc' hsame).2.writes
  rwa [Write.mapStatus_id, List.map_id, List.map_id] at hwrites

def replaced (w : World) (k : ObjectKey) (x : Json) : World :=
  { w with cluster := w.cluster.set k x }

theorem beside_replaced {x : Json} (hc : w.cluster.Holds .connector ns name Connector.decode c) :
    w.Beside id (replaced w ⟨.connector, ns, name⟩ x) := by
  obtain ⟨x₀, _, hx₀, _⟩ := hc
  have hself : w.cluster.set ⟨.connector, ns, name⟩ x₀ = w.cluster := Cluster.set_eq_self hx₀
  have hset : (w.cluster.set ⟨.connector, ns, name⟩ x₀).Beside
      (w.cluster.set ⟨.connector, ns, name⟩ x) :=
    Cluster.Beside.set ⟨rfl, fun _ _ => rfl, fun _ => rfl⟩ fun hk => absurd rfl hk
  rw [hself] at hset
  exact ⟨hset, rfl, rfl⟩

end

/-- A Connector that asks for scaling, in whatever fields, is reconciled as its translation into the
fields of the present revision is: in any store and under any faults, at whatever times, and whether
or not it is valid. -/
theorem reconcile_migrated {w : World} {ns name : String} {c : Connector} {rule : ScalingRule}
    {x : Json} (hc : w.cluster.Holds .connector ns name Connector.decode c)
    (hrule : c.spec.effectiveScaling = .ok (some rule))
    (hx : (replaced w ⟨.connector, ns, name⟩ x).cluster.Holds .connector ns name Connector.decode
      (c.withSpec (c.spec.migrated rule)))
    (settings : PassSettings) (now now' : String) :
    ComesToSame now now' (reconciled settings now ns name w)
      (reconciled settings now' ns name (replaced w ⟨.connector, ns, name⟩ x)) :=
  alike_of_meansSame (beside_replaced hc) hc hx (ConnectorSpec.meansSame_migrated hrule) settings
    now now'

def shopScaler : LegacyScaler where
  checkInterval := none
  cooldownPeriod := none
  maxReplicas := some 5
  minReplicas := none
  metadata := .ofList [("host", .str "shop"), ("minReplica", .int 1), ("svcPort", .str " 8080 ")]
  scalerSecret := none

/-- a Connector of the first revision, with its port in the scaler only -/
def shopConnector : Connector where
  metadata := { (default : Metadata) with name := some "shop", ns := some "apps", uid := some "u1" }
  spec := {
    image := some "shop:1", containers := [], exposePort := none, configRef := none
    secretRef := none, scalingRule := none, type := some .http, scaler := some shopScaler }
  status := none

def shopKey : ObjectKey := ⟨.connector, "apps", "shop"⟩

def shopRule : ScalingRule := ⟨some 5, some 1, .http ⟨"shop", .loadBalancer, 0⟩⟩

/-- a world with a Connector, where HTTPScaledObjects can not be created -/
def shopWorld (c : Connector) : World :=
  ⟨Cluster.empty.set shopKey c.toJson,
    [⟨.create, DerivedKind.httpScaledObject, none, some (.transient "down"), none, 0⟩], []⟩

def shopSettings : PassSettings := ⟨.empty, true⟩

/-- both passes write a Deployment and a Service before they fail -/
theorem reconcile_migrated_shop :
    (reconciled shopSettings "t0" "apps" "shop" (shopWorld shopConnector)).state.writes.map
        (fun x => (x.verb, x.kind)) = [(.create, (DerivedKind.deployment : Kind)),
          (.create, (DerivedKind.service : Kind)), (.patchStatus, .connector)] ∧
      ComesToSame "t0" "t1" (reconciled shopSettings "t0" "apps" "shop" (shopWorld shopConnector))
        (reconciled shopSettings "t1" "apps" "shop" (replaced (shopWorld shopConnector) shopKey
          (shopConnector.withSpec (shopConnector.spec.migrated shopRule)).toJson)) := by
  have hc : (shopWorld shopConnector).cluster.Holds .connector "apps" "shop" Connector.decode
      shopConnector := value_getAs.1 (by decide +kernel)
  have hx : (replaced (shopWorld shopConnector) shopKey
      (shopConnector.withSpec (shopConnector.spec.migrated shopRule)).toJson).cluster.Holds
        .connector "apps" "shop" Connector.decode
          (shopConnector.withSpec (shopConnector.spec.migrated shopRule)) :=
    value_getAs.1 (by decide +kernel)
  exact ⟨by decide +kernel,
    reconcile_migrated hc (by decide +kernel) hx shopSettings "t0" "t1"⟩

/-- A scaling rule wins over the type and the scaler of the first revision: whatever these are, they
do not show in what is checked, in the Deployment and in a reconciliation, as long as the Connector
has the same port with them and without them. -/
theorem reconcile_withLegacy {c : Connector} {rule : ScalingRule} {type : Option ConnectorType}
    {scaler : Option LegacyScaler} (hrule : c.spec.scalingRule = some rule)
    (hport : (c.spec.withLegacy type scaler).effectivePort = c.spec.effectivePort) :
    (c.withSpec (c.spec.withLegacy type scaler)).validate = c.validate ∧
      Deployment.ofConnector (c.withSpec (c.spec.withLegacy type scaler)) =
        Deployment.ofConnector c ∧
      ∀ {w : World} {ns name : String} {x : Json},
        w.cluster.Holds .connector ns name Connector.decode c →
        (replaced w ⟨.connector, ns, name⟩ x).cluster.Holds .connector ns name Connector.decode
          (c.withSpec (c.spec.withLegacy type scaler)) →
        ∀ (settings : PassSettings) (now now' : String),
          ComesToSame now now' (reconciled settings now ns name w)
            (reconciled settings now' ns name (replaced w ⟨.connector, ns, name⟩ x)) := by
  have hsame : c.spec.MeansSame (c.spec.withLegacy type scaler) :=
    ConnectorSpec.meansSame_withLegacy hrule hport
  refine ⟨Connector.validate_withSpec hsame, Connector.deployment_withSpec hsame, ?_⟩
  intro w ns name x hc hx settings now now'
  exact alike_of_meansSame (beside_replaced hc) hc hx hsame settings now now'

/-- the Connector with a rule, with or without a port of its own, and without a scaler -/
def ruledConnector (port : Option Int32) : Connector :=
  shopConnector.withSpec
    { shopConnector.spec with
      exposePort := port, scalingRule := some shopRule, type := none, scaler := none }

theorem reconcile_withLegacy_shop :
    ((ruledConnector (some 80)).withSpec ((ruledConnector (some 80)).spec.withLegacy (some .kafka)
        (some shopScaler))).validate = (ruledConnector (some 80)).validate ∧
      ComesToSame "t0" "t1" (reconciled shopSettings "t0" "apps" "shop"
          (shopWorld (ruledConnector (some 80))))
        (reconciled shopSettings "t1" "apps" "shop"
          (replaced (shopWorld (ruledConnector (some 80))) shopKey
            ((ruledConnector (some 80)).withSpec ((ruledConnector (some 80)).spec.withLegacy
              (some .kafka) (some shopScaler))).toJson)) := by
  have hport : ((ruledConnector (some 80)).spec.withLegacy (some .kafka)
      (some shopScaler)).effectivePort = (ruledConnector (some 80)).spec.effectivePort :=
    ConnectorSpec.effectivePort_withLegacy rfl
  have hc : (shopWorld (ruledConnector (some 80))).cluster.Holds .connector "apps" "shop"
      Connector.decode (ruledConnector (some 80)) := value_getAs.1 (by decide +kernel)
  obtain ⟨hvalid, _, hrun⟩ := reconcile_withLegacy (c := ruledConnector (some 80)) rfl hport
  exact ⟨hvalid, hrun hc (value_getAs.1 (by decide +kernel)) shopSettings "t0" "t1"⟩

/-- Without a port of its own, a Connector with a rule is not valid, and becomes valid by the port
in a scaler that it does not follow. -/
theorem validate_ruledConnector :
    (ruledConnector none).spec.scalingRule = some shopRule ∧
      (ruledConnector none).validate = .error SpecFault.httpWithoutPort.failure ∧
        ((ruledConnector none).withSpec ((ruledConnector none).spec.withLegacy (some .http)
          (some shopScaler))).validate = .ok () := by
  decide +kernel

end Pass
end ConnectorControl
