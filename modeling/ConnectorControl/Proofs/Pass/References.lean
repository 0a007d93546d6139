import ConnectorControl.Proofs.Pass.Planned
import ConnectorControl.Proofs.Pass.Prune
import ConnectorControl.Proofs.Pass.Visit

/-!
# References of custom scaling

Once a pass with custom scaling succeeds, the ScaledObject in the store has a trigger for each of
the declared ones (`StoredFor`), and a trigger with a Secret refers to a TriggerAuthentication in
the store that hands it the keys of the first key set that the Secret holds (`Authenticates`).

All of this is about lists in specs.  A patch replaces a list as a whole, so it makes no difference
which objects were there before (`Upserted.get_spec`).
-/

namespace ConnectorControl

/-- the name of the TriggerAuthentication that a stored trigger refers to -/
def Json.authenticationName (v : Json) : Option String :=
  ((v.get "authenticationRef").get "name").string?

/-- the first of some key sets that a Secret holds wholly -/
def FirstHeld (secret : Secret) (sets : List (List String)) (keys : List String) : Prop :=
  ∃ before after, sets = before ++ keys :: after ∧ (∀ key ∈ keys, secret.hasKey key = true) ∧
    ∀ set ∈ before, ∃ key ∈ set, secret.hasKey key = false

theorem firstHeld_of_matching {secret : Secret} {sets : List (List String)} {keys : List String}
    (h : KeySets.matching secret.hasKey sets = some keys) : FirstHeld secret sets keys := by
  obtain ⟨hkeys, before, after, hsets, hbefore⟩ := List.find?_eq_some_iff_append.1 h
  refine ⟨before, after, hsets, List.all_eq_true.1 hkeys, fun set hset => ?_⟩
  have := hbefore set hset
  simpa [KeySets.satisfied] using this

/-- the TriggerAuthentication of a name hands a trigger the keys of its Secret -/
def Authenticates (s : Cluster) (auth : ScalerConfig) (ns : String) (t : Trigger) (name : String) :
    Prop :=
  ∃ secretName secret sets keys v, t.secretRef = some secretName ∧
    s.Holds .secret ns secretName Secret.decode secret ∧ auth.keySets? t.type = some sets ∧
    FirstHeld secret sets keys ∧ s.find? ⟨.derived .triggerAuthentication, ns, name⟩ = some v ∧
    (v.get "spec").get "secretTargetRef" = .arr (keys.map fun key =>
      .object [("parameter", .str key), ("name", .str secretName), ("key", .str key)])

/-- a stored trigger is the declared one, with an authentication if that names a Secret -/
structure StoredFor (s : Cluster) (auth : ScalerConfig) (ns : String) (t : Trigger) (v : Json) :
    Prop where
  type : v.find? "type" = some (.str t.type)
  metadata : v.find? "metadata" = some (.ofStringTable t.metadata)
  refers : (v.find? "authenticationRef").isSome ↔ ∃ secret, t.secretRef = some secret ∧ secret ≠ ""
  authenticated : ∀ r, v.find? "authenticationRef" = some r →
    ∃ name, r = .object [("name", .str name)] ∧ Authenticates s auth ns t name

namespace Pass

variable {s s' : Cluster} {auth : ScalerConfig} {connector ns : String}

theorem find?_scaleTrigger (t : ScaleTrigger) (k : String) : t.toJson.find? k =
    (Entries.find? k [
      ("type", some (Json.str t.type)),
      ("metadata", some (.ofStringTable t.metadata)),
      ("authenticationRef",
        t.authentication.map fun name => .object [("name", .str name)])]).join :=
  Json.find?_objectOfSet (by simp) k

theorem authenticationName_scaleTrigger (t : ScaleTrigger) :
    t.toJson.authenticationName = t.authentication := by
  unfold Json.authenticationName
  rw [Json.get_eq t.toJson, find?_scaleTrigger]
  show (((t.authentication.map fun name => Json.object [("name", .str name)]).getD .null).get
    "name").string? = _
  cases t.authentication with
  | none => rfl
  | some name => rfl

theorem Plans.storedFor {index : Nat} {ts : List Trigger} {ps : List PlannedTrigger}
    (h : Plans s auth connector ns index ts ps)
    (hsecret : ∀ name, s'.find? ⟨.secret, ns, name⟩ = s.find? ⟨.secret, ns, name⟩)
    (hauth : ∀ a ∈ ScalePlan.auths ps, ∃ v,
      s'.find? ⟨.derived .triggerAuthentication, ns, a.name⟩ = some v ∧
        (v.get "spec").get "secretTargetRef" = .arr (a.keys.map fun key =>
          .object [("parameter", .str key), ("name", .str a.secret), ("key", .str key)])) :
    List.Forall₂ (StoredFor s' auth ns) ts (ps.map fun p => p.scaleTrigger.toJson) := by
  induction h with
  | nil => exact .nil
  | @plain index t ts ps hs rest ih =>
    refine .cons ⟨?_, ?_, ?_, ?_⟩ (ih hauth)
    · rw [find?_scaleTrigger]
      rfl
    · rw [find?_scaleTrigger]
      rfl
    · rw [find?_scaleTrigger]
      refine ⟨fun h => (by cases h), fun ⟨name, hr, hne⟩ => ?_⟩
      unfold Trigger.secretName at hs
      rw [hr] at hs
      simp [hne] at hs
    · intro r hr
      rw [find?_scaleTrigger] at hr
      cases hr
  | @secret index t ts ps name sets secret keys hs hsets hheld hkeys rest ih =>
    have hs' : t.secretRef = some name ∧ name ≠ "" := by
      unfold Trigger.secretName at hs
      obtain ⟨h₁, h₂⟩ := Option.filter_eq_some_iff.1 hs
      exact ⟨h₁, by simpa using h₂⟩
    refine .cons ⟨?_, ?_, ?_, ?_⟩ (ih fun a ha => hauth a (List.mem_cons_of_mem _ ha))
    · rw [find?_scaleTrigger]
      rfl
    · rw [find?_scaleTrigger]
      rfl
    · rw [find?_scaleTrigger]
      exact ⟨fun _ => ⟨name, hs'⟩, fun _ => rfl⟩
    · intro r hr
      rw [find?_scaleTrigger] at hr
      obtain ⟨v, hv, hrefs⟩ := hauth _ List.mem_cons_self
      refine ⟨Derived.triggerAuthName connector index, (Option.some.inj hr).symm, name, secret,
        sets, keys, v, hs'.1, ?_, hsets, firstHeld_of_matching hkeys, hv, hrefs⟩
      obtain ⟨sv, so, hsv, hread⟩ := hheld
      exact ⟨sv, so, by rw [hsecret, hsv], hread⟩

/-! ## passes -/

section
variable {d : Disturbance} {settings : PassSettings} {now name : String} {c : Connector}
  {rule : ScalingRule} {custom : CustomScaling}

/-- the ScaledObject of a Connector is in the store as its triggers declare -/
def ScaledBy (s : Cluster) (auth : ScalerConfig) (ns connector : String)
    (declared : List Trigger) : Prop :=
  ∃ v triggers, s.find? ⟨.derived .scaledObject, ns, connector ++ "-vso"⟩ = some v ∧
    (v.get "spec").get "triggers" = .arr triggers ∧
    List.Forall₂ (StoredFor s auth ns) declared triggers ∧
    (triggers.filterMap Json.authenticationName).Nodup

def HasLists (x : Draft) (v : Json) : Prop :=
  ∀ k items, x.spec.find? k = some (.arr items) → (Json.arr items).Stripped →
    (v.get "spec").get k = .arr items

theorem isTable_of_custom {planned : List PlannedTrigger} {x : Draft}
    (hx : x ∈ (ScalePlan.custom c rule custom planned).drafts) : x.spec.IsTable := by
  rcases List.mem_append.1 hx with hx | hx
  · obtain ⟨a, _, rfl⟩ := List.mem_map.1 hx
    exact Json.isTable_object _
  · obtain rfl := List.mem_singleton.1 hx
    exact Json.isTable_object _

/-- the objects of a custom plan are in the store, beside the Secrets that it was made with -/
structure CustomWritten (c : Connector) (rule : ScalingRule) (custom : CustomScaling)
    (planned : List PlannedTrigger) (s₀ : Cluster) (ns : String) (s : Cluster) : Prop where
  secrets : ∀ name, s.find? ⟨.secret, ns, name⟩ = s₀.find? ⟨.secret, ns, name⟩
  objects : ∀ x ∈ (ScalePlan.custom c rule custom planned).drafts,
    ∃ v, s.find? (x.key ns) = some v ∧ HasLists x v

theorem CustomWritten.congr {s₀ : Cluster} {planned : List PlannedTrigger}
    (h : CustomWritten c rule custom planned s₀ ns s)
    (hsecret : ∀ name, s'.find? ⟨.secret, ns, name⟩ = s.find? ⟨.secret, ns, name⟩)
    (hobject : ∀ x ∈ (ScalePlan.custom c rule custom planned).drafts,
      s'.find? (x.key ns) = s.find? (x.key ns)) : CustomWritten c rule custom planned s₀ ns s' :=
  ⟨fun name => (hsecret name).trans (h.secrets name), fun x hx => by
    rw [hobject x hx]
    exact h.objects x hx⟩

/-- once the objects of a custom plan are there, they refer to each other as they should -/
theorem CustomWritten.scaledBy {s₀ : Cluster} {planned : List PlannedTrigger}
    (hw : CustomWritten c rule custom planned s₀ ns s)
    (hps : Plans s₀ auth c.name ns 0 custom.triggers planned) :
    ScaledBy s auth ns c.name custom.triggers := by
  obtain ⟨v, hv, hlists⟩ := hw.objects (.scaledObject c rule custom planned)
    (List.mem_append_right _ (List.mem_singleton.2 rfl))
  refine ⟨v, (planned.map PlannedTrigger.scaleTrigger).map ScaleTrigger.toJson, hv, ?_, ?_, ?_⟩
  · exact hlists "triggers" _ (ScaledObject.find?_triggers _)
      (Json.clean_list ScaleTrigger.clean_toJson _).stripped
  · rw [List.map_map]
    refine hps.storedFor hw.secrets fun a ha => ?_
    obtain ⟨va, hva, hlists⟩ := hw.objects (.triggerAuth a)
      (List.mem_append_left _ (List.mem_map_of_mem ha))
    exact ⟨va, hva, hlists "secretTargetRef" _ a.find?_targets a.clean_targets.stripped⟩
  · rw [List.map_map, List.filterMap_map]
    have hnames : (planned.filterMap (Json.authenticationName ∘ fun p => p.scaleTrigger.toJson)) =
        (ScalePlan.auths planned).map (·.name) := by
      rw [ScalePlan.auths, List.map_filterMap]
      refine List.filterMap_congr fun p _ => ?_
      exact authenticationName_scaleTrigger p.scaleTrigger
    show (planned.filterMap (Json.authenticationName ∘ fun p => p.scaleTrigger.toJson)).Nodup
    rw [hnames]
    exact hps.nodup

/-- a pass with custom scaling, whatever is in the store and whatever comes between, leaves the
ScaledObject as declared if it succeeds -/
theorem ensures_visit_custom (hd : c.metadata.deletionTimestamp = none)
    (hrule : c.spec.effectiveScaling = .ok (some rule)) (hmode : rule.mode = .custom custom) :
    Ensures d (fun _ _ => True) (visit settings now ns c) s
      (fun _ s' => ScaledBy s' settings.auth ns c.name custom.triggers) fun _ _ => True := by
  have hfailed : ∀ (p : Program Unit) s, Program.Ensures d (fun _ _ => True) p s fun _ _ => True :=
    Program.ensures_trivial
  refine ensures_visit (fun h => by rw [hd] at h; cases h) fun _ => ?_
  refine Ensures.mono (Q := fun _ s => ∃ s₀ planned,
    Plans s₀ settings.auth c.name ns 0 custom.triggers planned ∧
      CustomWritten c rule custom planned s₀ ns s) (E := fun _ _ => True) ?_ ?_
    fun e s' _ => hfailed _ s'
  · refine ensures_converge (fun _ _ => trivial) (fun _ _ => trivial) fun scaling _ hs => ?_
    obtain rfl : scaling = some rule := by
      rw [hrule] at hs
      exact (Except.ok.inj hs).symm
    refine (ensures_trivial _).mono_ok fun _ s₁ _ => ?_
    refine (ensures_trivial _).mono_ok fun _ s₂ _ => ?_
    refine (ensures_plan (fun _ => trivial) fun _ => trivial).mono_ok fun p s₃ h => ?_
    obtain ⟨rfl, hp⟩ := h
    have hkeys := hp.keys_nodup
    have hdesired : ∀ kind name, (kind, name) ∈ (p.outcome now).desired ↔
        ∃ x ∈ p.drafts, x.kind = kind ∧ x.name = name := fun _ _ => hp.mem_desired now
    cases hp with
    | http hm hport =>
      rw [hmode] at hm
      cases hm
    | @custom _ custom' planned hm hps =>
      obtain rfl : custom = custom' := by
        rw [hmode] at hm
        exact ScalingMode.custom.inj hm
      have hstep : ∀ done x rest s w s',
          (ScalePlan.custom c rule custom planned).drafts = done ++ x :: rest →
          (∀ name, s.find? ⟨.secret, ns, name⟩ = s₃.find? ⟨.secret, ns, name⟩) →
          (∀ y ∈ done, ∃ v, s.find? (y.key ns) = some v ∧ HasLists y v) →
          Upserted x.kind ns x.name (x.toObject c) s w s' →
          (∀ name, s'.find? ⟨.secret, ns, name⟩ = s₃.find? ⟨.secret, ns, name⟩) ∧ HasLists x w := by
        intro done x rest s w s' hall hs _ hu
        have hx : x ∈ (ScalePlan.custom c rule custom planned).drafts := by
          rw [hall]
          exact List.mem_append_right _ List.mem_cons_self
        refine ⟨fun name => ?_,
          fun k items hk hitems => hu.get_spec (isTable_of_custom hx) hk hitems⟩
        exact (hu.find?_of_ne (k := ⟨.secret, ns, name⟩) nofun).trans (hs name)
      refine (ensures_upsertAll hkeys (fun _ _ _ => trivial) hstep (fun _ _ _ _ => trivial)
        fun _ => rfl).mono_ok fun _ s₄ h => ?_
      have hw : CustomWritten c rule custom planned s₃ ns s₄ := ⟨h.1, h.2⟩
      refine ⟨fun _ => ?_, fun _ => ⟨s₃, planned, hps, hw⟩⟩
      refine (ensures_prune (fun _ _ _ => trivial) (fun kind _ name s hm hs => ?_)
        (fun _ _ _ => trivial) hw).mono_ok fun _ s₅ h => ⟨s₃, planned, hps, h⟩
      refine hs.congr (fun n => ?_) fun x hx => ?_
      · exact (Cluster.find?_remove _ _ _).trans (if_neg nofun)
      · rw [Cluster.find?_remove, if_neg fun hk => hm ?_]
        obtain ⟨hkind, hname⟩ : x.kind = kind ∧ x.name = name := by
          simpa [Draft.key] using hk
        exact (hdesired kind name).2 ⟨x, hx, hkind, hname⟩
  · rintro cond s' ⟨s₀, planned, hps, hw⟩
    refine (ensures_tryRecord fun _ => trivial).mono fun _ s'' hr => ?_
    exact (hw.congr (fun n => hr.find?_of_ne nofun) fun x _ => hr.find?_of_ne nofun).scaledBy hps

/-- Custom scaling refers as declared: whatever is in the store and whatever faults come between,
when the pass over a Connector with custom scaling succeeds, the ScaledObject has the declared
triggers, and those with a Secret refer to TriggerAuthentications that hand them its keys. -/
theorem scaledBy_of_reconcile {w : World} {a : Action}
    (hc : ((getAs .connector ns name Connector.decode).run.run World.answer w).result =
      .ok (some c))
    (hd : c.metadata.deletionTimestamp = none)
    (hrule : c.spec.effectiveScaling = .ok (some rule)) (hmode : rule.mode = .custom custom)
    (hok : ((reconcile settings now ns name).run.run World.answer w).result = .ok a) :
    ScaledBy ((reconcile settings now ns name).run.run World.answer w).state.cluster settings.auth
      ns c.name custom.triggers := by
  obtain ⟨w', hresult, hstate⟩ := run_reconcile_of_read settings now hc
  rw [hresult] at hok
  rw [hstate]
  have h : Ensures .any (fun _ _ => True) (visit settings now ns c) w'.cluster
      (fun _ s' => ScaledBy s' settings.auth ns c.name custom.triggers) fun _ _ => True :=
    ensures_visit_custom hd hrule hmode
  have hend := (Program.Ensures.run h w'.within_any).2.1
  rw [hok] at hend
  exact hend

/-- a Connector with two triggers, the second of which has a Secret -/
def mixedConnector : Connector where
  metadata := { (default : Metadata) with name := some "mq", ns := some "apps", uid := some "u1" }
  spec := {
    image := some "mq:1", containers := [], exposePort := none, configRef := none
    secretRef := none, type := none, scaler := none
    scalingRule := some ⟨none, none, .custom ⟨none, none,
      [⟨"cron", .ofList [("start", "8")], none⟩, ⟨"mysql", .ofList [("query", "q")], some "db"⟩]⟩⟩ }
  status := none

/-- a store with the Connector, with the Secret, and with a ScaledObject that is there already -/
def mixedWorld : World where
  cluster := Cluster.empty
    |>.set ⟨.connector, "apps", "mq"⟩ mixedConnector.toJson
    |>.set ⟨.secret, "apps", "db"⟩
      (.object [("stringData", .object [("user", .str "u"), ("pass", .str "p")])])
    |>.set ⟨.derived .scaledObject, "apps", "mq-vso"⟩
      (.object [("spec", .object [("triggers", .arr [.null, .null, .null])])])
  faults := []
  written := []

/-- of the key sets for `mysql`, the Secret holds the second one -/
def mixedSettings : PassSettings where
  auth := ScalerConfig.empty |>.register "cron" [] |>.register "mysql" [["token"], ["user", "pass"]]
  prune := true

theorem scaledBy_of_reconcile_mixed :
    ((reconcile mixedSettings "t" "apps" "mq").run.run World.answer mixedWorld).result =
      .ok (.requeue resyncInterval) ∧
    ScaledBy
      ((reconcile mixedSettings "t" "apps" "mq").run.run World.answer mixedWorld).state.cluster
      mixedSettings.auth "apps" "mq"
      [⟨"cron", .ofList [("start", "8")], none⟩,
        ⟨"mysql", .ofList [("query", "q")], some "db"⟩] := by
  have hok : ((reconcile mixedSettings "t" "apps" "mq").run.run World.answer mixedWorld).result =
      .ok (.requeue resyncInterval) := by decide +kernel
  have hc :
      ((getAs .connector "apps" "mq" Connector.decode).run.run World.answer mixedWorld).result =
        .ok (some mixedConnector) := by decide +kernel
  exact ⟨hok, scaledBy_of_reconcile hc rfl rfl rfl hok⟩

end

end Pass
end ConnectorControl
