import ConnectorControl.Proofs.Pass.Deletions
import ConnectorControl.Proofs.Pass.Twins

/-!
# Passes of different Connectors

The passes of two Connectors may be run in either order (`reconcile_comm`): each comes to the same,
and the stores that they end with tell the same.

* `abreast_converge`, `abreast_reconcile`   on stores that are level for a Connector, its pass does
                                            the same;
* `reconciled_of_level`                     so it does on a store that another pass has tended, by
                                            `Tended.level`;
* `tellsSame_of_finished`                   where neither pass touches what the other one has made.
-/

namespace ConnectorControl
namespace Pass

structure Finished (i : Identity) (s₀ t₀ s t : Cluster) : Prop extends
    Parallel i (fun _ => True) s₀ t₀ s t where
  connector : (s.find? i.connectorKey).map Json.withoutTimes =
    (t.find? i.connectorKey).map Json.withoutTimes

section
variable {i : Identity} {c : Connector} {W : ObjectKey → Prop} {s₀ t₀ s t s' t' : Cluster}
  {settings : PassSettings} {now now' : String}

/-! ## a pass over the Connector -/

theorem abreast_upsertDeployment (h₀ : Level i s t) (hi : i.Describes c) :
    Abreast (upsertDeployment c i.ns) (upsertDeployment c i.ns) s t
      (fun _ _ => Writing i (fun k => False ∨ k = (Draft.deployment c).key i.ns) s t)
      (Midway i (fun _ => True) s t) := by
  have hx := fits_deployment hi
  rw [upsertDeployment_eq]
  refine abreast_bind (fetches_requireMounts.abreast h₀.mounts (fun _ _ => ?_)
    h₀.writing.anywhere)
  exact abreast_upsert h₀.writing hi hx not_false (h₀.owned _ ⟨_, _, rfl, hx.names⟩)

/-- nothing is pruned that a pass has written, so both sides prune the same -/
theorem abreast_finish {s₁ : Cluster} {scaling : Option ScalingRule} {p : ScalePlan}
    (h : Midway i (fun k => ∃ x, OfPlan c p x ∧ x.key i.ns = k) s₀ t₀ s t) (h₀ : Level i s₀ t₀)
    (hi : i.Describes c) (hcomma : ',' ∉ i.name.toList)
    (hp : Planned s₁ settings.auth c i.ns scaling p) :
    Abreast (finish settings c i.ns (p.outcome now)) (finish settings c i.ns (p.outcome now')) s t
      (fun cond cond' s' t' => cond' = { cond with timestamp := now' } ∧
        Midway i (fun _ => True) s₀ t₀ s' t') (Midway i (fun _ => True) s₀ t₀) := by
  have hcond := hp.condition_eq now now'
  unfold finish
  cases hon : settings.prune with
  | false => exact ⟨hcond, h.anywhere⟩
  | true =>
    have hdesired : ∀ kind ∈ Derived.prunable, ∀ name,
        (∃ x, OfPlan c p x ∧ x.key i.ns = i.key kind name) →
          (kind, name) ∈ (p.outcome now).desired := by
      rintro kind hkind name ⟨x, hx, hk⟩
      by_contra hno
      exact (besidesPlan_of_not_mem hp hon hkind hno).2 x hx hk
    show Abreast (inStage .autoscaling (prune c i.ns (p.outcome now).desired) >>= fun _ =>
        pure (p.outcome now).condition)
      (inStage .autoscaling (prune c i.ns (p.outcome now').desired) >>= fun _ =>
        pure (p.outcome now').condition) s t _ _
    rw [hp.desired_eq now now']
    exact abreast_bind (abreast_adapt ((abreast_prune h h₀ hi hcomma hdesired).mono
      (fun _ _ _ _ h' => ⟨hcond, h'⟩) fun _ _ => id))

/-- a pass over the Connector comes to the same on both sides, but for the time -/
theorem abreast_converge (h₀ : Level i s t) (hi : i.Describes c) (hcomma : ',' ∉ i.name.toList) :
    Abreast (converge settings now c i.ns) (converge settings now' c i.ns) s t
      (fun cond cond' s' t' => cond' = { cond with timestamp := now' } ∧
        Midway i (fun _ => True) s t s' t') (Midway i (fun _ => True) s t) := by
  have hstart : Midway i (fun _ => True) s t s t := h₀.writing.anywhere
  rw [converge_eq, converge_eq]
  refine abreast_bind (abreast_adapt (abreast_ofExcept (fun _ _ => ?_) hstart))
  refine abreast_bind (abreast_adapt (abreast_ofExcept (fun scaling _ => ?_) hstart))
  refine abreast_bind (abreast_adapt ((abreast_upsertDeployment h₀ hi).mono
    (fun _ _ s₁ t₁ h₁ => ?_) fun _ _ => id))
  rw [scale_eq, scale_eq, bind_assoc, bind_assoc]
  refine abreast_bind (fetches_plan.abreast (fun k hk => h₁.mounts h₀ hk) (fun p hp => ?_)
    h₁.anywhere)
  have hp := planned_of_value hp
  rw [bind_assoc, bind_assoc]
  have hdrafts : ∀ x ∈ p.drafts, x.Fits i ∧
      ¬(False ∨ x.key i.ns = (Draft.deployment c).key i.ns) := fun x hx =>
    ⟨hp.fits hi hx, by rw [false_or]; exact hp.key_ne hx⟩
  refine abreast_bind (abreast_adapt ((abreast_upsertAll h₀ h₁ hi hdrafts hp.keys_nodup).mono
    (fun _ _ s₂ t₂ h₂ => ?_) fun _ _ => id))
  rw [pure_bind, pure_bind]
  refine abreast_finish (h₂.mono ?_) h₀ hi hcomma hp
  rintro k ((hf | rfl) | hk)
  · exact hf.elim
  · exact ⟨_, .inl rfl, rfl⟩
  · obtain ⟨x, hx, rfl⟩ := List.mem_map.1 hk
    exact ⟨x, .inr hx, rfl⟩

/-! ## the end of a pass -/

theorem Midway.finished (h : Midway i (fun _ => True) s₀ t₀ s t) : Finished i s₀ t₀ s t :=
  ⟨h.toParallel, congrArg _ h.connector⟩

theorem Midway.recorded {v : Json} {status status' : Status}
    (h : Midway i (fun _ => True) s₀ t₀ s t) (hv : s.find? i.connectorKey = some v)
    (hpatch : (Cluster.patchedStatus v status).withoutTimes =
      (Cluster.patchedStatus v status').withoutTimes) :
    Finished i s₀ t₀ (s.set i.connectorKey (Cluster.patchedStatus v status))
      (t.set i.connectorKey (Cluster.patchedStatus v status')) := by
  have hv' : t.find? i.connectorKey = some v := h.connector ▸ hv
  refine ⟨⟨h.left.recorded hv status, h.right.recorded hv' status', fun k hk => ?_, h.created⟩, ?_⟩
  · rw [Cluster.find?_set, Cluster.find?_set, if_neg (hk.ne_connector i),
      if_neg (hk.ne_connector i)]
    exact h.twins k hk
  · rw [Cluster.find?_set, Cluster.find?_set, if_pos rfl, if_pos rfl]
    exact congrArg some hpatch

theorem ensures_tryRecord_of_none {ns : String} {cond : Condition}
    (hnone : s.find? ⟨.connector, ns, c.name⟩ = none) :
    Program.Ensures .none (fun _ _ => True) (tryRecord c ns cond) s fun _ s' => s' = s := by
  refine (ensures_tryRecord fun _ => trivial).mono fun _ s' hr => ?_
  cases hr with
  | skipped => rfl
  | patched v status hv =>
    rw [hnone] at hv
    cases hv

theorem abreast_tryRecord {cond cond' : Condition} (h : Midway i (fun _ => True) s₀ t₀ s t)
    (hi : i.Describes c) (hsame : cond.sameObservation cond' = true) :
    Program.Abreast (tryRecord c i.ns cond) (tryRecord c i.ns cond') s t
      fun _ _ => Finished i s₀ t₀ := by
  have hkey : (⟨.connector, i.ns, c.name⟩ : ObjectKey) = i.connectorKey := by
    rw [hi.connector_name]
    rfl
  cases hs : c.statusAfter cond with
  | none =>
    rw [tryRecord_of_none hs, tryRecord_of_none ((statusAfter_congr hsame).1 hs)]
    exact h.finished
  | some status =>
    obtain ⟨status', hs'⟩ : ∃ status', c.statusAfter cond' = some status' := by
      refine Option.ne_none_iff_exists'.1 fun hnone => ?_
      rw [(statusAfter_congr hsame).2 hnone] at hs
      cases hs
    cases hv : s.find? i.connectorKey with
    | none =>
      refine ((ensures_tryRecord_of_none (hkey ▸ hv)).abreast
        (ensures_tryRecord_of_none (hkey ▸ h.connector ▸ hv))).mono fun _ _ s' t' hr => ?_
      obtain ⟨rfl, rfl⟩ := hr
      exact h.finished
    | some v =>
      have hpatch : ∀ {cond status s}, c.statusAfter cond = some status →
          s.find? i.connectorKey = some v → Program.Ensures .none (fun _ _ => True)
            (tryRecord c i.ns cond) s fun _ s' =>
              s' = s.set i.connectorKey (Cluster.patchedStatus v status) := by
        intro cond status s hs hv
        rw [← hkey] at hv ⊢
        exact ensures_tryRecord_of_some hs hv trivial rfl
      refine ((hpatch hs hv).abreast (hpatch hs' (h.connector ▸ hv))).mono fun _ _ s' t' hr => ?_
      obtain ⟨rfl, rfl⟩ := hr
      exact h.recorded hv
        (withoutTimes_recorded (h.left.filed.canonical _ v hv) hsame hs hs')

theorem abreast_visit (h₀ : Level i s t) (hi : i.Describes c) (hcomma : ',' ∉ i.name.toList) :
    Abreast (visit settings now i.ns c) (visit settings now' i.ns c) s t
      (fun a b s' t' => a = b ∧ Finished i s t s' t') (Finished i s t) := by
  cases hd : c.metadata.deletionTimestamp with
  | some time =>
    have hstart : Midway i (fun _ => True) s t s t := h₀.writing.anywhere
    have hrecord : (Condition.terminating now).sameObservation (.terminating now') = true := rfl
    unfold visit
    rw [hd]
    refine abreast_bind (abreast_always.2 ((abreast_tryRecord hstart hi hrecord).mono
      fun _ _ _ _ h => ?_))
    exact ⟨rfl, h⟩
  | none =>
    have hpass : Program.Abreast (converge settings now c i.ns).run
        (converge settings now' c i.ns).run s t _ := abreast_converge h₀ hi hcomma
    rw [visit_eq hd, visit_eq hd]
    refine abreast_bind (abreast_always.2 (hpass.mono fun r r' s₁ t₁ hr => ?_))
    unfold conclude
    cases r with
    | ok cond =>
      cases r' with
      | error e => exact hr.elim
      | ok cond' =>
        obtain ⟨rfl, h₁⟩ := hr
        have hrecord : cond.sameObservation { cond with timestamp := now' } = true :=
          Condition.sameObservation_iff.2 ⟨rfl, rfl, rfl, rfl⟩
        refine abreast_bind (abreast_always.2 ((abreast_tryRecord h₁ hi hrecord).mono
          fun _ _ _ _ h => ?_))
        exact ⟨rfl, h⟩
    | error e =>
      cases r' with
      | ok cond' => exact hr.elim
      | error e' =>
        obtain ⟨rfl, h₁⟩ := hr
        have hrecord : (Condition.ofFailure now e.1 e.2).sameObservation
            (.ofFailure now' e.1 e.2) = true :=
          Condition.sameObservation_iff.2 ⟨rfl, rfl, rfl, rfl⟩
        refine abreast_bind (abreast_always.2 ((abreast_tryRecord h₁ hi hrecord).mono
          fun _ _ _ _ h => ?_))
        exact ⟨rfl, h⟩

/-- on level stores a reconciliation comes to the same and makes the same of both -/
theorem abreast_reconcile (h₀ : Level i s t) (hcomma : ',' ∉ i.name.toList)
    (huid : i.KnownIn s) : Abreast (reconcile settings now i.ns i.name)
      (reconcile settings now' i.ns i.name) s t
      (fun a b s' t' => a = b ∧ Finished i s t s' t') (Finished i s t) := by
  have hstart : Finished i s t s t := h₀.writing.anywhere.finished
  have hread : Fetches (fun k => k = i.connectorKey)
      (getAs .connector i.ns i.name Connector.decode) := fetches_getAs rfl
  unfold reconcile
  refine abreast_bind (hread.abreast (fun k hk => hk ▸ h₀.connector) (fun found hfound => ?_)
    hstart)
  cases found with
  | none => exact ⟨rfl, hstart⟩
  | some c =>
    have hc := value_getAs.1 hfound
    have hi : i.Describes c := by
      have hdescribes := h₀.filed.1.describes hc
      rw [huid c hc] at hdescribes
      exact hdescribes
    exact abreast_visit h₀ hi hcomma

end

/-! ## two Connectors -/

def reconciledBoth (settings : PassSettings) (now now' : String) (a b : Identity) (w : World) :
    Program.Run World (Except Failure Action) :=
  reconciled settings now' b.ns b.name (reconciled settings now a.ns a.name w).state

section
variable {a b i : Identity} {s sa sb sab sba : Cluster} {v w : World}

/-- reconciliations of a Connector in worlds whose stores are level for it -/
theorem reconciled_of_level (hv : v.faults = []) (hw : w.faults = [])
    (h₀ : Level i v.cluster w.cluster) (hi : i.KnownIn v.cluster) (hcomma : ',' ∉ i.name.toList)
    (settings : PassSettings) (now now' : String) :
    (reconciled settings now i.ns i.name v).result =
        (reconciled settings now' i.ns i.name w).result ∧
      Finished i v.cluster w.cluster (reconciled settings now i.ns i.name v).state.cluster
        (reconciled settings now' i.ns i.name w).state.cluster := by
  have hpass : Abreast (reconcile settings now i.ns i.name) (reconcile settings now' i.ns i.name)
      v.cluster w.cluster _ _ := abreast_reconcile h₀ hcomma hi
  obtain ⟨hresult, hcluster, _⟩ := Program.run_of_noFaults
    (reconcile settings now i.ns i.name).run hv
  obtain ⟨hresult', hcluster', _⟩ := Program.run_of_noFaults
    (reconcile settings now' i.ns i.name).run hw
  unfold reconciled
  rw [hresult, hresult', hcluster, hcluster']
  exact EndAlike.result_eq hpass

/-- what the passes of two Connectors make of a store, one after the other, in either order -/
theorem tellsSame_of_finished (ha : Finished a s sb sa sba) (hb : Finished b s sa sb sab)
    (hne : (a.ns, a.name) ≠ (b.ns, b.name)) : s.TellsSame sab sba := by
  -- the second pass leaves alone what the first one has made
  have hsab : ∀ k, k ≠ b.connectorKey → ¬b.Owns k → sab.find? k = sa.find? k := hb.right.others
  have hsba : ∀ k, k ≠ a.connectorKey → ¬a.Owns k → sba.find? k = sb.find? k := ha.right.others
  have htwins : ∀ k : ObjectKey, k.kind ≠ .connector →
      ∃ i, Twins i s (fun _ => True) k (sab.find? k) (sba.find? k) := by
    intro k hk
    have hka : k ≠ a.connectorKey := fun h => hk (by rw [h]; rfl)
    have hkb : k ≠ b.connectorKey := fun h => hk (by rw [h]; rfl)
    by_cases howns : a.Owns k
    · refine ⟨a, ?_⟩
      rw [hsab k hkb fun hother => hne (howns.eq hother)]
      exact ha.twins k howns
    · rw [hsba k hka howns]
      by_cases hother : b.Owns k
      · exact ⟨b, (hb.twins k hother).symm⟩
      · refine ⟨a, ?_⟩
        rw [hsab k hkb hother, ha.left.others k hka howns, hb.left.others k hkb hother]
        exact .same _
  have hcreated := ha.created
  have hcreated' := hb.created
  refine ⟨by omega, fun k v hk hv => ?_, fun k hk _ => ?_, fun k hk => ?_⟩
  · obtain ⟨i, h⟩ := htwins k hk
    exact h.eq hv
  · obtain ⟨i, h⟩ := htwins k hk
    exact h.withoutUid
  · have hno : ∀ i : Identity, ¬i.Owns k := by
      rintro i ⟨_, _, rfl, _⟩
      cases hk
    by_cases hka : k = a.connectorKey
    · subst hka
      rw [hsab _ (Identity.connectorKey_ne hne) (hno b)]
      exact ha.connector
    · rw [hsba k hka (hno a)]
      by_cases hkb : k = b.connectorKey
      · subst hkb
        exact hb.connector.symm
      · rw [hsab k hkb (hno b), ha.left.others k hka (hno a), hb.left.others k hkb (hno b)]

end

/-- Without faults the passes of two Connectors commute: at whatever times they are run, each comes
to the same alone and after the other, and in either order they end with stores that tell the same.
The names need to differ in one namespace only, and may begin with one another.  What has the label
of one of them and has it as its controller must have been created for it. -/
theorem reconcile_comm {w : World} (hw : w.faults = []) (hs : w.cluster.Filed) {a b : Identity}
    (hne : (a.ns, a.name) ≠ (b.ns, b.name)) (ha : a.KnownIn w.cluster)
    (hb : b.KnownIn w.cluster)
    (hacomma : ',' ∉ a.name.toList) (hbcomma : ',' ∉ b.name.toList) (haown : a.NamesOwn w.cluster)
    (hbown : b.NamesOwn w.cluster) (settings : PassSettings) (t₁ t₂ t₃ t₄ : String) :
    (reconciled settings t₁ a.ns a.name w).result =
        (reconciledBoth settings t₃ t₄ b a w).result ∧
      (reconciledBoth settings t₁ t₂ a b w).result =
        (reconciled settings t₃ b.ns b.name w).result ∧
      w.cluster.TellsSame (reconciledBoth settings t₁ t₂ a b w).state.cluster
        (reconciledBoth settings t₃ t₄ b a w).state.cluster := by
  have hafirst := (reconciled_of_level hw hw (.refl hs haown) ha hacomma settings t₁ t₁).2.left
  have hbfirst := (reconciled_of_level hw hw (.refl hs hbown) hb hbcomma settings t₃ t₃).2.left
  have hafaults : (reconciled settings t₁ a.ns a.name w).state.faults = [] :=
    (Program.run_of_noFaults _ hw).2.2
  have hbfaults : (reconciled settings t₃ b.ns b.name w).state.faults = [] :=
    (Program.run_of_noFaults _ hw).2.2
  -- each pass is compared with the one on the store that the other pass has left
  obtain ⟨haresult, hafinished⟩ := reconciled_of_level hw hbfaults
    (hbfirst.level hs haown hne.symm) ha hacomma settings t₁ t₄
  obtain ⟨hbresult, hbfinished⟩ := reconciled_of_level hw hafaults
    (hafirst.level hs hbown hne) hb hbcomma settings t₃ t₂
  exact ⟨haresult, hbresult.symm, tellsSame_of_finished hafinished hbfinished hne⟩

/-- a Connector that is named as a TriggerAuthentication of `portal` would be -/
def namesake : Identity := ⟨"apps", "portal-vta", some "u3"⟩

/-- a world with both Connectors and a Service of `portal`, which is stale -/
def portals : World := ⟨portalStore.set namesake.connectorKey (portal.merge (.object
  [("metadata", .object [("name", .str "portal-vta"), ("uid", .str "u3")])])), [], []⟩

theorem filed_portals : portals.cluster.Filed := by
  have hname : (Json.object [("metadata", .object [("name", .str "portal-vta"),
      ("uid", .str "u3")])]).Canonical := by
    refine (Json.clean_object (List.forall_mem_singleton.2 (Json.clean_object ?_))).canonical
    simp only [List.forall_mem_cons]
    exact ⟨Json.clean_str _, Json.clean_str _, List.forall_mem_nil _⟩
  have hportal : portal.Canonical := kept_portal.canonical portalIdentity.connectorKey _ rfl
  exact filed_portalStore.set (Json.canonical_merge hportal hname) rfl

theorem eq_of_find?_portals {i : Identity} {kind : DerivedKind} {name : String} {v : Json}
    (hv : portals.cluster.find? (i.key kind name) = some v) :
    i.key kind name = portalIdentity.key .service "portal" ∧
      v = portalIdentity.stored .service "portal" "u2" (.object []) := by
  have hv : ((portalWorld.cluster.set _ _).set namesake.connectorKey _).find? _ = some v := hv
  rw [Cluster.find?_set, if_neg (i.key_ne_connectorKey namesake), Cluster.find?_set] at hv
  split at hv
  next hk => exact ⟨hk, (Option.some.inj hv).symm⟩
  · have hv : (Cluster.empty.set portalIdentity.connectorKey _).find? _ = some v := hv
    rw [Cluster.find?_set, if_neg (i.key_ne_connectorKey portalIdentity)] at hv
    cases hv

theorem reconcile_comm_portals :
    ((reconciledBoth portalSettings "t1" "t2" portalIdentity namesake portals).state.cluster.find?
        (namesake.key .deployment "portal-vta")).isSome = true ∧
      (reconciled portalSettings "t1" "apps" "portal" portals).result =
        (reconciledBoth portalSettings "t3" "t4" namesake portalIdentity portals).result ∧
      (reconciledBoth portalSettings "t1" "t2" portalIdentity namesake portals).result =
        (reconciled portalSettings "t3" "apps" "portal-vta" portals).result ∧
      portals.cluster.TellsSame
        (reconciledBoth portalSettings "t1" "t2" portalIdentity namesake portals).state.cluster
        (reconciledBoth portalSettings "t3" "t4" namesake portalIdentity
          portals).state.cluster := by
  have hfirst : portalIdentity.KnownIn portals.cluster := by
    obtain ⟨c, hc, huid⟩ : ∃ c, (getAs .connector "apps" "portal" Connector.decode).run.value
        portals.cluster = .ok (some c) ∧ c.metadata.uid = some "u1" := ⟨_, rfl, rfl⟩
    intro c' hc'
    rw [holds_unique hc' (value_getAs.1 hc)]
    exact huid
  have hsecond : namesake.KnownIn portals.cluster := by
    obtain ⟨c, hc, huid⟩ : ∃ c, (getAs .connector "apps" "portal-vta" Connector.decode).run.value
        portals.cluster = .ok (some c) ∧ c.metadata.uid = some "u3" := ⟨_, rfl, rfl⟩
    intro c' hc'
    rw [holds_unique hc' (value_getAs.1 hc)]
    exact huid
  refine ⟨by decide +kernel, ?_⟩
  refine reconcile_comm rfl filed_portals (a := portalIdentity) (b := namesake) (by decide) hfirst
    hsecond (by decide) (by decide) (fun kind name v hv hlabel howner => ?_)
    (fun kind name v hv hlabel howner => ?_) portalSettings "t1" "t2" "t3" "t4"
  · obtain ⟨hk, rfl⟩ := eq_of_find?_portals hv
    exact Identity.owns_key.1 ⟨.service, "portal", hk, Identity.names_service⟩
  · -- the Service has the label of `portal`
    obtain ⟨hk, rfl⟩ := eq_of_find?_portals hv
    have hname := Identity.name_eq_of_labels hlabel Identity.labels_stored
    exact absurd hname (by decide)

end Pass
end ConnectorControl
