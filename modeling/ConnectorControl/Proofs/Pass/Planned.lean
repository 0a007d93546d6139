import Mathlib.Data.List.Nodup
import ConnectorControl.Proofs.Derived.Names
import ConnectorControl.Proofs.Derived.Specs
import ConnectorControl.Proofs.Pass.Plan

/-!
# What is planned

What a plan may be (`Planned`), and what all plans have in common: their objects have different
names, which are names of the Connector, and specs of their kinds; and what is planned is what the
outcome wants to keep.
-/

namespace ConnectorControl

structure Draft.Fits (i : Identity) (d : Draft) : Prop where
  names : i.Names d.kind d.name
  isSpec : i.IsSpec d.kind d.spec

namespace Pass

variable {d : Disturbance} {P : Call → Cluster → Prop} {s : Cluster} {ns connector : String}
  {auth : ScalerConfig} {c : Connector} {scaling : Option ScalingRule} {p : ScalePlan}

/-! ## triggers -/

theorem Plans.names {index : Nat} {ts : List Trigger} {ps : List PlannedTrigger}
    (h : Plans s auth connector ns index ts ps) : (ScalePlan.auths ps).map (·.name) =
      (List.range' index (ScalePlan.auths ps).length).map (Derived.triggerAuthName connector) := by
  induction h with
  | nil => rfl
  | plain hs rest ih => exact ih
  | @secret index t ts ps name sets secret keys hs hsets hsecret hkeys rest ih =>
    have : ScalePlan.auths (⟨t, some ⟨Derived.triggerAuthName connector index, name, keys⟩⟩ :: ps) =
        ⟨Derived.triggerAuthName connector index, name, keys⟩ :: ScalePlan.auths ps := rfl
    rw [this, List.map_cons, ih, List.length_cons, List.range'_succ, List.map_cons]

theorem Plans.nodup {index : Nat} {ts : List Trigger} {ps : List PlannedTrigger}
    (h : Plans s auth connector ns index ts ps) :
    ((ScalePlan.auths ps).map (·.name)).Nodup := by
  rw [h.names]
  exact List.Nodup.map (fun _ _ hmn => Derived.triggerAuthName_inj hmn) List.nodup_range'

/-! ## plans -/

/-- what is planned for a scaling rule on a cluster -/
inductive Planned (s : Cluster) (auth : ScalerConfig) (c : Connector) (ns : String) :
    Option ScalingRule → ScalePlan → Prop
  | none : Planned s auth c ns none (.none c)
  | http {rule : ScalingRule} {http : HttpScaling} {port : Int32} (hm : rule.mode = .http http)
    (hport : c.spec.effectivePort = some port) :
    Planned s auth c ns (some rule) (.http c rule http port)
  | custom {rule : ScalingRule} {custom : CustomScaling} {ps : List PlannedTrigger}
    (hm : rule.mode = .custom custom) (hps : Plans s auth c.name ns 0 custom.triggers ps) :
    Planned s auth c ns (some rule) (.custom c rule custom ps)

theorem ensures_plan {E : Stage × Failure → Cluster → Prop}
    (hP : ∀ name, P (.get .secret ns name) s) (hE : ∀ e, E e s) :
    Ensures d P (plan auth c ns scaling) s
      (fun p s' => s' = s ∧ Planned s auth c ns scaling p) E := by
  cases scaling with
  | none => exact ⟨rfl, .none⟩
  | some rule =>
    unfold plan
    cases hm : rule.mode with
    | http http =>
      simp only [hm]
      cases hport : c.spec.effectivePort with
      | none => exact hE _
      | some port => exact ⟨rfl, .http hm hport⟩
    | custom custom =>
      simp only [hm]
      refine ensures_adapt.2 (ensures_bind.2 ?_)
      refine (ensures_planTriggers hP (fun e => hE _) 0).mono_ok fun ps s' h => ?_
      exact ⟨h.1, .custom hm h.2⟩

theorem planned_of_value (h : (plan auth c ns scaling).run.value s = .ok p) :
    Planned s auth c ns scaling p := by
  obtain ⟨s', hs'⟩ := Program.Ensures.value (ensures_plan (d := .none) (P := fun _ _ => True)
    (E := fun _ _ => True) (fun _ => trivial) fun _ => trivial)
  rw [h] at hs'
  exact hs'.2

theorem Planned.eq_custom {x : Draft} (h : Planned s auth c ns scaling p) (hx : x ∈ p.drafts)
    (hk : x.kind = .scaledObject) : ∃ rule custom ps, p = .custom c rule custom ps := by
  cases h with
  | none => cases hx
  | http hm hport =>
    rcases List.mem_cons.1 hx with rfl | hx
    · cases hk
    · obtain rfl := List.mem_singleton.1 hx
      cases hk
  | custom hm hps => exact ⟨_, _, _, rfl⟩

theorem Planned.eq_http {x : Draft} (h : Planned s auth c ns scaling p) (hx : x ∈ p.drafts)
    (hk : x.kind = .httpScaledObject) : ∃ rule http port, p = .http c rule http port := by
  cases h with
  | none => cases hx
  | http hm hport => exact ⟨_, _, _, rfl⟩
  | custom hm hps =>
    rcases List.mem_append.1 hx with hx | hx
    · obtain ⟨a, _, rfl⟩ := List.mem_map.1 hx
      cases hk
    · obtain rfl := List.mem_singleton.1 hx
      cases hk

theorem Planned.nodup (h : Planned s auth c ns scaling p) :
    (p.drafts.map fun d => (d.kind, d.name)).Nodup := by
  cases h with
  | none => exact List.nodup_nil
  | http hm hport =>
    show [_, _].Nodup
    simp [Draft.service, Draft.httpScaledObject]
  | @custom rule custom ps hm hps =>
    show (((ScalePlan.auths ps).map Draft.triggerAuth ++ [_]).map
      fun d : Draft => (d.kind, d.name)).Nodup
    rw [List.map_append, List.map_map, List.nodup_append]
    refine ⟨?_, List.nodup_singleton _, ?_⟩
    · have : ((fun d : Draft => (d.kind, d.name)) ∘ Draft.triggerAuth) =
          (fun name => (DerivedKind.triggerAuthentication, name)) ∘ TriggerAuth.name := rfl
      rw [this, ← List.map_map]
      exact hps.nodup.map fun _ _ h => (Prod.mk.inj h).2
    · intro a ha b hb hab
      obtain ⟨x, _, rfl⟩ := List.mem_map.1 ha
      obtain rfl := List.mem_singleton.1 hb
      cases (Prod.mk.inj hab).1

theorem Planned.keys_nodup (h : Planned s auth c ns scaling p) :
    (p.drafts.map (·.key ns)).Nodup := by
  have : p.drafts.map (·.key ns) =
      (p.drafts.map fun d => (d.kind, d.name)).map fun n => (⟨n.1, ns, n.2⟩ : ObjectKey) := by
    rw [List.map_map]
    rfl
  rw [this]
  refine List.Nodup.map (fun a b hab => ?_) h.nodup
  simp only [ObjectKey.mk.injEq, Kind.derived.injEq, true_and] at hab
  exact Prod.ext hab.1 hab.2

/-- what is planned is what is to be kept -/
theorem Planned.mem_desired (h : Planned s auth c ns scaling p) (now : String) {kind : DerivedKind}
    {name : String} : (kind, name) ∈ (p.outcome now).desired ↔
      ∃ d ∈ p.drafts, d.kind = kind ∧ d.name = name := by
  cases h with
  | none => simp [ScalePlan.none, Outcome.ofDeployment]
  | http hm hport =>
    simp [ScalePlan.http, Outcome.ofHttp, Draft.service, Draft.httpScaledObject,
      Identity.objectName_service, eq_comm]
  | @custom rule custom ps hm hps =>
    simp only [ScalePlan.custom, Outcome.ofCustom, List.mem_cons, List.mem_append, List.mem_map,
      Prod.mk.injEq, List.not_mem_nil, or_false]
    constructor
    · rintro (⟨rfl, rfl⟩ | ⟨a, ⟨x, hx, rfl⟩, rfl, rfl⟩)
      · exact ⟨_, .inr rfl, rfl, rfl⟩
      · exact ⟨_, .inl ⟨x, hx, rfl⟩, rfl, rfl⟩
    · rintro ⟨_, ⟨x, hx, rfl⟩ | rfl, rfl, rfl⟩
      · exact .inr ⟨_, ⟨x, hx, rfl⟩, rfl, rfl⟩
      · exact .inl ⟨rfl, rfl⟩

theorem Planned.kind_ne (h : Planned s auth c ns scaling p) {d : Draft} (hd : d ∈ p.drafts) :
    d.kind ≠ .deployment := by
  cases h with
  | none => cases hd
  | http hm hport =>
    rcases List.mem_cons.1 hd with rfl | hd
    · exact nofun
    · obtain rfl := List.mem_singleton.1 hd
      exact nofun
  | custom hm hps =>
    rcases List.mem_append.1 hd with hd | hd
    · obtain ⟨a, _, rfl⟩ := List.mem_map.1 hd
      exact nofun
    · obtain rfl := List.mem_singleton.1 hd
      exact nofun

theorem Planned.key_ne (h : Planned s auth c ns scaling p) {d : Draft} (hd : d ∈ p.drafts) :
    d.key ns ≠ (Draft.deployment c).key ns := fun hk =>
  h.kind_ne hd (Kind.derived.inj (congrArg ObjectKey.kind hk))

/-! ## what is written -/

/-- a list in a spec is in the store as it was planned, whatever was there before -/
theorem Upserted.get_spec {x : Draft} {s' : Cluster} {w : Json} {k : String} {items : List Json}
    (h : Upserted x.kind ns x.name (x.toObject c) s w s') (hx : x.spec.IsTable)
    (hk : x.spec.find? k = some (.arr items)) (hs : (Json.arr items).Stripped) :
    (w.get "spec").get k = .arr items := by
  have hnull : x.spec.isNull = false := by
    have := hx.isObject
    cases hv : x.spec with
    | obj ms => rfl
    | _ => rw [hv] at this; cases this
  have hobject : x.toObject c =
      .ofSpec ⟨(x.kind : Kind).apiVersion, (x.kind : Kind).name⟩ (Derived.metadata c x.name)
        x.spec := rfl
  rw [Json.get_eq, Json.get_eq]
  cases h with
  | created h =>
    rw [hobject, Object.stripNulls_ofSpec hnull]
    show ((((Object.ofSpec _ _ x.spec.stripNulls).toJson.find? "spec").getD .null).find? k).getD _ =
      _
    rw [Object.find?_ofSpec]
    show (x.spec.stripNulls.find? k).getD .null = _
    rw [Json.find?_stripNulls hx.ordered, hk]
    show Json.stripNulls (.arr items) = _
    exact Json.stripNulls_of_stripped hs
  | patched v h hread' =>
    rw [hobject, Json.find?_merge v Object.isTable_ofSpec, Object.find?_ofSpec]
    show ((Option.getD (if x.spec.isNull then none else some (Json.merge _ x.spec)) .null).find?
      k).getD .null = _
    rw [hnull]
    show ((Json.merge ((v.find? "spec").getD .null) x.spec).find? k).getD .null = _
    rw [Json.find?_merge _ hx, hk]
    show Json.merge ((((v.find? "spec").getD .null).find? k).getD .null) (.arr items) = _
    exact Json.merge_of_not_object rfl _

variable {i : Identity}

section
variable (hi : i.Describes c)
include hi

theorem key_deployment : (Draft.deployment c).key i.ns = i.key .deployment i.name := by
  rw [← hi.connector_name]
  rfl

theorem key_service {port : Int32} {type : ServiceType} :
    (Draft.service c port type).key i.ns = i.key .service i.name := by
  rw [← hi.connector_name]
  rfl

theorem key_httpScaledObject {rule : ScalingRule} {http : HttpScaling} {port : Int32} :
    (Draft.httpScaledObject c rule http port).key i.ns =
      i.key .httpScaledObject (i.name ++ "-vhso") := by
  rw [← hi.connector_name]
  rfl

theorem key_scaledObject {rule : ScalingRule} {custom : CustomScaling}
    {planned : List PlannedTrigger} : (Draft.scaledObject c rule custom planned).key i.ns =
      i.key .scaledObject (i.name ++ "-vso") := by
  rw [← hi.connector_name]
  rfl

end

theorem fits_deployment (hi : i.Describes c) : Draft.Fits i (.deployment c) := by
  refine ⟨?_, Deployment.ofConnector c, ?_, ?_, rfl⟩
  · show i.Names .deployment c.name
    rw [hi.connector_name]
    exact Identity.names_deployment
  · show Derived.selectorLabels c.name = _
    rw [hi.connector_name]
  · show Derived.podLabels c.name = _
    rw [hi.connector_name]

theorem Planned.fits (h : Planned s auth c ns scaling p) (hi : i.Describes c) {d : Draft}
    (hd : d ∈ p.drafts) : d.Fits i := by
  cases h with
  | none => cases hd
  | @http rule http port hm hport =>
    rcases List.mem_cons.1 hd with rfl | hd
    · refine ⟨?_, Service.ofConnector c port http.serviceType, ?_, rfl⟩
      · show i.Names .service c.name
        rw [hi.connector_name]
        exact Identity.names_service
      · show Derived.selectorLabels c.name = _
        rw [hi.connector_name]
    · obtain rfl := List.mem_singleton.1 hd
      refine ⟨?_, HttpScaledObject.ofConnector c rule http port, rfl⟩
      show Derived.objectName .httpScaledObject c.name = Derived.objectName .httpScaledObject i.name
      rw [hi.connector_name]
  | @custom rule custom ps hm hps =>
    rcases List.mem_append.1 hd with hd | hd
    · obtain ⟨a, ha, rfl⟩ := List.mem_map.1 hd
      refine ⟨?_, a, rfl⟩
      have hname : a.name ∈ (ScalePlan.auths ps).map (·.name) := List.mem_map_of_mem ha
      rw [hps.names] at hname
      obtain ⟨index, _, hname⟩ := List.mem_map.1 hname
      exact ⟨index, by rw [← hi.connector_name]; exact hname.symm⟩
    · obtain rfl := List.mem_singleton.1 hd
      refine ⟨?_, ScaledObject.ofConnector c rule custom (ps.map PlannedTrigger.scaleTrigger), rfl⟩
      show Derived.objectName .scaledObject c.name = Derived.objectName .scaledObject i.name
      rw [hi.connector_name]

end Pass
end ConnectorControl
