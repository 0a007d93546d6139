import ConnectorControl.Proofs.Pass.Planned
import ConnectorControl.Proofs.Pass.Prune
import ConnectorControl.Proofs.Store.Settling

/-!
# A pass over a Connector settles

What one pass over a Connector leaves, the next one finds as it wants it: each upsert patches its
object to what it is, or fails as the first one did (`settles_upsert`), and pruning finds nothing
stale (`settles_pruneKind`).  The parts change different keys, so they settle together
(`settles_converge`).
-/

namespace ConnectorControl
namespace Pass

variable {s t : Cluster} {ns name : String} {c : Connector} {i : Identity}

/-! ## upserts -/

section
variable {kind : DerivedKind} {o o' : Object} {w : Json}

theorem gentle_create (hn : o.metadata.name = some name)
    (hv : s.find? ⟨kind, ns, name⟩ = some w) : (Call.create kind ns o.stripNulls).Gentle s s := by
  refine ⟨rfl, fun y hy => ?_⟩
  have hname : o.stripNulls.metadata.name.getD "" = name := by
    show o.metadata.name.getD "" = name
    rw [hn]
    rfl
  unfold Cluster.write? at hy
  simp only [Call.verb, Call.kind, Call.ns, Call.name, hname, Cluster.contains_of_find? hv] at hy
  cases hy

theorem gentle_patch {body : Json} : (Call.patch kind ns name body).Gentle s s := by
  refine ⟨rfl, fun y hy => ?_⟩
  unfold Cluster.write? at hy
  cases hc : s.objects.contains ⟨kind, ns, name⟩ <;>
    simp [Call.verb, Call.kind, Call.ns, Call.name, hc] at hy
  rw [← hy]
  exact ⟨rfl, kind, rfl⟩

theorem settled_upsert_ok (hn : o.metadata.name = some name)
    (hv : s.find? ⟨kind, ns, name⟩ = some w) (hread : Cluster.readObject w = .ok o')
    (hfix : w.merge o.toJson = w) :
    Settled (fun k => k = ⟨kind, ns, name⟩) (upsert kind ns o) (.ok .patched) s := by
  refine settled_of_ensures fun t ht => ?_
  have hv : t.find? ⟨kind, ns, name⟩ = some w := by rw [ht _ rfl, hv]
  refine ensures_upsert hn (gentle_create hn hv) (Call.Gentle.of_get rfl) gentle_patch
    (fun a w' t' _ hu _ ha => ⟨ha (by rw [hv]; exact nofun), ?_⟩) (fun e he => ?_)
    fun e w' t' hu hw' => ?_
  · cases hu with
    | created h =>
      rw [hv] at h
      cases h
    | patched v h hread' =>
      obtain rfl := Option.some.inj (hv.symm.trans h)
      rw [hfix]
      exact Cluster.set_eq_self hv
  · rcases he with hq | ⟨v, h, he⟩
    · exact hq Disturbance.quiet_none
    · obtain rfl := Option.some.inj (hv.symm.trans h)
      rw [hread] at he
      cases he
  · cases hu with
    | created h =>
      rw [hv] at h
      cases h
    | patched v h hread' =>
      obtain rfl := Option.some.inj (hv.symm.trans h)
      rw [hfix, hread] at hw'
      cases hw'

theorem settled_upsert_error {e : Failure} (hn : o.metadata.name = some name)
    (hv : s.find? ⟨kind, ns, name⟩ = some w) (hread : Cluster.readObject w = .error e) :
    Settled (fun k => k = ⟨kind, ns, name⟩) (upsert kind ns o) (.error e) s := by
  refine settled_error_of_ensures fun t ht => ?_
  have hv : t.find? ⟨kind, ns, name⟩ = some w := by rw [ht _ rfl, hv]
  have hnever : ∀ {w' t'}, Upserted kind ns name o t w' t' → False := by
    intro w' t' hu
    cases hu with
    | created h =>
      rw [hv] at h
      cases h
    | patched v h hread' =>
      obtain rfl := Option.some.inj (hv.symm.trans h)
      obtain ⟨o', hread'⟩ := hread'
      rw [hread] at hread'
      cases hread'
  refine ensures_upsert hn (gentle_create hn hv) (Call.Gentle.of_get rfl) gentle_patch
    (fun _ _ _ _ hu _ _ => hnever hu) (fun e' he => ⟨?_, rfl⟩) fun _ _ _ hu _ => (hnever hu).elim
  rcases he with hq | ⟨v, h, he⟩
  · exact absurd Disturbance.quiet_none hq
  · obtain rfl := Option.some.inj (hv.symm.trans h)
    rw [hread] at he
    exact (Except.error.inj he).symm

end

/-- an upsert leaves its object as it wants it, or it fails on it again -/
theorem settles_upsert {x : Draft} (hs : s.Canonical) (hi : i.Describes c) (hx : x.Fits i) :
    Settles (fun k => k = x.key i.ns) (fun k => k = x.key i.ns)
      (upsert x.kind i.ns (x.toObject c)) (upsert x.kind i.ns (x.toObject c)) (fun _ => .patched)
      s := by
  have hn : (x.toObject c).metadata.name = some x.name := rfl
  have hbody : (x.toObject c).toJson.Canonical := Derived.canonical_toJson hx.isSpec.canonical
  -- whatever was there, what is there now is its own patch
  have hfix : ∀ {w s'}, Upserted x.kind i.ns x.name (x.toObject c) s w s' →
      s'.Canonical ∧ w.merge (x.toObject c).toJson = w := by
    intro w s' hu
    cases hu with
    | created h =>
      have hw : (s.stamp i.ns (x.toObject c).stripNulls).toJson = _ :=
        hi.stored_of_create s hx.isSpec.isNull
      rw [hw]
      have hspec := Json.canonical_stripNulls hx.isSpec.canonical
      refine ⟨hs.add (Identity.canonical_stored hspec), ?_⟩
      refine (hi.merge_stored hx.isSpec.isNull).trans ?_
      rw [hx.isSpec.merge_self]
    | patched v h _ =>
      exact ⟨hs.set (Json.canonical_merge (hs _ v h) hbody), Json.merge_merge (hs _ v h) hbody⟩
  have hchanges : ∀ {w s'}, Upserted x.kind i.ns x.name (x.toObject c) s w s' →
      s.ChangesOnly (fun k => k = x.key i.ns) s' :=
    fun hu => ⟨fun k hk => hu.find?_of_ne hk, (hfix hu).1⟩
  refine settles_of_ensures (ensures_upsert hn trivial trivial trivial (fun _ w s' _ hu hw _ => ?_)
    (fun e he => ?_) fun e w s' hu hw => ?_)
  · exact ⟨hchanges hu, settled_upsert_ok hn hu.find?_self hw (hfix hu).2⟩
  · rcases he with hq | ⟨v, hv, he⟩
    · exact absurd Disturbance.quiet_none hq
    · exact ⟨.refl hs, settled_upsert_error hn hv he⟩
  · exact ⟨hchanges hu, settled_upsert_error hn hu.find?_self hw⟩

/-- objects under different keys are settled one after the other -/
theorem settles_upsertAll {xs : List Draft} (hs : s.Canonical) (hi : i.Describes c)
    (hxs : ∀ x ∈ xs, x.Fits i) (hkeys : (xs.map (·.key i.ns)).Nodup) :
    Settles (fun k => k ∈ xs.map (·.key i.ns)) (fun k => k ∈ xs.map (·.key i.ns))
      (upsertAll c i.ns xs) (upsertAll c i.ns xs) id s := by
  induction xs generalizing s with
  | nil => exact settles_pure rfl hs
  | cons x xs ih =>
    rw [List.map_cons, List.nodup_cons] at hkeys
    refine (settles_upsert hs hi (hxs x List.mem_cons_self)).bind
      (V := fun k => k ∈ xs.map (·.key i.ns)) (fun _ s' hs' => ?_) (fun k hk => ?_) (fun k hk => ?_)
      fun k hk => List.mem_cons_of_mem _ hk
    · exact (ih hs'.canonical (fun y hy => hxs y (List.mem_cons_of_mem _ hy)) hkeys.2).mono
        (fun k hk => List.mem_cons_of_mem _ hk) fun _ hk => hk
    · subst hk
      exact ⟨List.mem_cons_self, hkeys.1⟩
    · subst hk
      exact List.mem_cons_self

/-! ## pruning -/

section
variable {desired : List (DerivedKind × String)} {uid selector : String} {kind : DerivedKind}

theorem gentle_list {selector : String} {kind : Kind} :
    (Call.list kind ns selector).Gentle s s := by
  refine ⟨rfl, fun y hy => ?_⟩
  simp [Cluster.write?, Call.verb] at hy

theorem gentle_delete {kind : Kind} (h : s.find? ⟨kind, ns, name⟩ = none) :
    (Call.delete kind ns name).Gentle s s := by
  refine ⟨rfl, fun y hy => ?_⟩
  have hno : s.objects.contains ⟨kind, ns, name⟩ = false := by
    rw [Cluster.contains_eq, h]
    rfl
  simp [Cluster.write?, Call.verb, Call.kind, Call.ns, Call.name, hno] at hy

theorem ensures_deleteStale_again {os : List Object}
    (h : ∀ o ∈ os, isStale desired uid kind o = true →
      s.find? ⟨kind, ns, o.metadata.nameAny⟩ = none) :
    Ensures .none (Call.Gentle s) (deleteStale desired uid ns kind os) s
      (fun n s' => n = 0 ∧ s' = s) fun _ _ => False := by
  induction os with
  | nil => exact ⟨rfl, rfl⟩
  | cons o os ih =>
    have ih := ih fun o' ho' => h o' (List.mem_cons_of_mem _ ho')
    unfold deleteStale
    by_cases hst : isStale desired uid kind o = true
    · rw [if_pos hst, ensures_bind]
      have hgone := h o List.mem_cons_self hst
      refine ensures_call.2 ⟨gentle_delete hgone, fun r s' hr => ?_⟩
      rcases hr.of_delete with ⟨_, _, _, hf⟩ | ⟨_, _, hh⟩ | ⟨rfl, rfl⟩
      · exact hf.elim
      · exact hh.elim
      · rw [Cluster.remove_eq_self hgone]
        show Ensures _ _ (deleteStale desired uid ns kind os >>= _) s _ _
        rw [ensures_bind]
        refine ih.mono_ok fun n s' hn => ?_
        obtain ⟨rfl, rfl⟩ := hn
        rw [Cluster.contains_eq, hgone]
        exact ⟨rfl, rfl⟩
    · rw [if_neg hst]
      exact ih

theorem select_of_settled {t : Cluster} {selector : String}
    (ht : ∀ k : ObjectKey, k.kind = kind ∧ k.ns = ns → t.find? k = s.find? k) :
    t.select kind ns selector = s.select kind ns selector :=
  Cluster.select_congr fun _ => ht _ ⟨rfl, rfl⟩

/-- When what a listing has shown as stale is gone, and nothing is new, a listing shows nothing
stale. -/
theorem settled_pruneKind {s' : Cluster} {found : List Object}
    (hfound : (s.select kind ns selector).mapM Cluster.readObject = .ok found)
    (hsub : ∀ k v, s'.find? k = some v → s.find? k = some v)
    (hgone : ∀ o ∈ found, isStale desired uid kind o = true →
      s'.find? ⟨kind, ns, o.metadata.nameAny⟩ = none) :
    Settled (fun k => k.kind = kind ∧ k.ns = ns)
      (list kind ns selector >>= deleteStale desired uid ns kind) (.ok 0) s' := by
  refine settled_of_ensures fun t ht => ?_
  -- what is listed now was listed before
  have hlisted : ∀ v ∈ t.select kind ns selector, v ∈ s.select kind ns selector := by
    intro v hv
    rw [select_of_settled ht] at hv
    obtain ⟨name, hv, hsel⟩ := Cluster.mem_select.1 hv
    exact Cluster.mem_select.2 ⟨name, hsub _ v hv, hsel⟩
  have hread : ∀ v ∈ t.select kind ns selector, ∃ o ∈ found, Cluster.readObject v = .ok o :=
    fun v hv => mem_mapM_of_mem hfound (hlisted v hv)
  refine ensures_bind.2 (ensures_list gentle_list (fun found' hfound' => ?_) (fun hh => hh.elim)
    fun e he => ?_)
  · refine ensures_deleteStale_again fun o ho hst => ?_
    obtain ⟨v, hv, ho⟩ := exists_of_mem_mapM hfound' ho
    obtain ⟨o', ho', hread⟩ := hread v hv
    obtain rfl := Except.ok.inj (ho.symm.trans hread)
    rw [ht _ ⟨rfl, rfl⟩]
    exact hgone o ho' hst
  · rcases he with hq | he
    · exact hq Disturbance.quiet_none
    · obtain ⟨v, hv, he⟩ := mapM_error he
      obtain ⟨o, _, hread⟩ := hread v hv
      rw [he] at hread
      cases hread

theorem settled_pruneKind_error {e : Failure}
    (he : (s.select kind ns selector).mapM Cluster.readObject = .error e) :
    Settled (fun k => k.kind = kind ∧ k.ns = ns)
      (list kind ns selector >>= deleteStale desired uid ns kind) (.error e) s := by
  refine settled_error_of_ensures fun t ht => ?_
  -- the reply to the listing depends on the objects of the kind alone
  refine ensures_bind.2 (ensures_list gentle_list (fun found hfound => ?_) (fun hh => hh.elim)
    fun e' he' => ?_)
  · rw [select_of_settled ht, he] at hfound
    cases hfound
  · rcases he' with hq | he'
    · exact absurd Disturbance.quiet_none hq
    · rw [select_of_settled ht, he] at he'
      exact ⟨(Except.error.inj he').symm, rfl⟩

theorem settles_pruneKind (hs : s.Canonical) :
    Settles (fun k => k.kind = kind ∧ k.ns = ns)
      (fun k => k.kind = kind ∧ k.ns = ns ∧ (kind, k.name) ∉ desired)
      (list kind ns selector >>= deleteStale desired uid ns kind)
      (list kind ns selector >>= deleteStale desired uid ns kind) (fun _ => 0) s := by
  refine settles_of_ensures (ensures_bind.2 (ensures_list trivial (fun found hfound => ?_)
    (fun hh => hh.elim) fun e he => ⟨.refl hs, ?_⟩))
  · let J : Cluster → Prop := fun s' =>
      s.ChangesOnly (fun k => k.kind = kind ∧ k.ns = ns ∧ (kind, k.name) ∉ desired) s' ∧
        ∀ k v, s'.find? k = some v → s.find? k = some v
    refine (ensures_deleteStale (J := J) (fun _ _ _ _ _ => trivial) (fun o _ hst s' hJ => ?_)
      (fun e s' hq _ => absurd Disturbance.quiet_none hq) ⟨.refl hs, fun _ _ hv => hv⟩).mono_ok
      fun _ s' hJ => ⟨hJ.1.1, settled_pruneKind hfound hJ.1.2 (hJ.2 fun _ => not_false)⟩
    refine ⟨⟨fun k hk => ?_, hJ.1.canonical.remove⟩,
      fun k v hv => hJ.2 k v (Cluster.find?_of_find?_remove hv)⟩
    rw [Cluster.find?_remove, if_neg, hJ.1.same k hk]
    rintro rfl
    exact hk ⟨rfl, rfl, (isStale_iff.1 hst).1⟩
  · rcases he with hq | he
    · exact absurd Disturbance.quiet_none hq
    · exact settled_pruneKind_error he

def IsOfKinds (kinds : List DerivedKind) (k : ObjectKey) : Prop :=
  ∃ kind ∈ kinds, k.kind = .derived kind

def IsUndesired (desired : List (DerivedKind × String)) (ns : String) (kinds : List DerivedKind)
    (k : ObjectKey) : Prop :=
  ∃ kind ∈ kinds, k.kind = .derived kind ∧ k.ns = ns ∧ (kind, k.name) ∉ desired

/-- kinds are pruned one after the other, and none of them has to do with another -/
theorem settles_pruneKinds {kinds : List DerivedKind} (hs : s.Canonical) (hkinds : kinds.Nodup) :
    Settles (IsOfKinds kinds) (IsUndesired desired ns kinds)
      (pruneKinds desired uid ns selector kinds) (pruneKinds desired uid ns selector kinds)
      (fun _ => 0) s := by
  induction kinds generalizing s with
  | nil => exact settles_pure rfl hs
  | cons kind kinds ih =>
    rw [List.nodup_cons] at hkinds
    have hsplit : pruneKinds desired uid ns selector (kind :: kinds) =
        (list kind ns selector >>= deleteStale desired uid ns kind) >>= fun n =>
          pruneKinds desired uid ns selector kinds >>= fun m => pure (n + m) := by
      rw [bind_assoc]
      rfl
    rw [hsplit]
    refine (settles_pruneKind hs).bind (V := IsUndesired desired ns kinds)
      (fun n s' hs' => ?_) (fun k hk => ?_) (fun k hk => ?_) fun k hk => ?_
    · refine (ih hs'.canonical hkinds.2).bind (V := fun _ => False)
        (fun m s'' hs'' => settles_pure rfl hs''.canonical)
        (fun k hk => ⟨?_, not_false⟩) (fun _ hk => hk) fun _ hk => hk.elim
      obtain ⟨kind', hkind', hk⟩ := hk
      exact ⟨kind', List.mem_cons_of_mem _ hkind', hk⟩
    · refine ⟨⟨kind, List.mem_cons_self, hk.1⟩, ?_⟩
      rintro ⟨kind', hkind', hk', _⟩
      rw [hk.1] at hk'
      obtain rfl := Kind.derived.inj hk'
      exact hkinds.1 hkind'
    · exact ⟨kind, List.mem_cons_self, hk⟩
    · obtain ⟨kind', hkind', hk⟩ := hk
      exact ⟨kind', List.mem_cons_of_mem _ hkind', hk⟩

theorem settles_prune (hs : s.Canonical) :
    Settles (IsOfKinds Derived.prunable) (IsUndesired desired ns Derived.prunable)
      (prune c ns desired) (prune c ns desired) (fun _ => 0) s := by
  unfold prune
  cases c.metadata.uid with
  | none => exact settles_pure rfl hs
  | some uid => exact settles_pruneKinds hs (by decide)

end

/-! ## a pass over a Connector -/

variable {settings : PassSettings} {now now' : String}

theorem Planned.desired_eq {auth : ScalerConfig} {scaling : Option ScalingRule} {p : ScalePlan}
    (h : Planned s auth c ns scaling p) (now now' : String) :
    (p.outcome now').desired = (p.outcome now).desired := by
  cases h <;> rfl

theorem Planned.condition_eq {auth : ScalerConfig} {scaling : Option ScalingRule} {p : ScalePlan}
    (h : Planned s auth c ns scaling p) (now now' : String) :
    (p.outcome now').condition = { (p.outcome now).condition with timestamp := now' } := by
  cases h <;> rfl

theorem converge_eq (settings : PassSettings) (now : String) (c : Connector) (ns : String) :
    converge settings now c ns = (do
      inStage .validate (ofExcept c.validate)
      let scaling ← inStage .validate (ofExcept (c.spec.effectiveScaling.mapError .conversion))
      let _ ← inStage .deployment (upsertDeployment c ns)
      let outcome ← scale settings now c ns scaling
      finish settings c ns outcome) := rfl

section
variable {auth : ScalerConfig} {scaling : Option ScalingRule} {p : ScalePlan} {s₀ : Cluster}

theorem settles_finish (hs : s.Canonical) (hp : Planned s₀ auth c i.ns scaling p) :
    Settles (IsOfKinds Derived.prunable) (IsUndesired (p.outcome now).desired i.ns Derived.prunable)
      (finish settings c i.ns (p.outcome now)) (finish settings c i.ns (p.outcome now'))
      (fun cond => { cond with timestamp := now' }) s := by
  unfold finish
  cases settings.prune with
  | false => exact settles_pure (hp.condition_eq now now') hs
  | true =>
    have hprune : Settles (IsOfKinds Derived.prunable)
        (IsUndesired (p.outcome now).desired i.ns Derived.prunable)
        (prune c i.ns (p.outcome now).desired) (prune c i.ns (p.outcome now').desired)
        (fun _ => 0) s := by
      rw [hp.desired_eq now now']
      exact settles_prune hs
    exact (hprune.adapt _).bind (V := fun _ => False)
      (fun _ s' hs' => settles_pure (hp.condition_eq now now') hs'.canonical)
      (fun _ hk => ⟨hk, not_false⟩) (fun _ hk => hk) fun _ hk => hk.elim

/-- What is planned is upserted before the rest is pruned, and pruning leaves it alone. -/
theorem settles_planned (hs : s.Canonical) (hi : i.Describes c)
    (hp : Planned s₀ auth c i.ns scaling p) :
    Settles (fun k => k.kind ≠ .connector)
      (fun k => ∃ kind : DerivedKind, k.kind = kind ∧ kind ≠ .deployment)
      (inStage .autoscaling (upsertAll c i.ns p.drafts) >>= fun _ =>
        finish settings c i.ns (p.outcome now))
      (inStage .autoscaling (upsertAll c i.ns p.drafts) >>= fun _ =>
        finish settings c i.ns (p.outcome now'))
      (fun cond => { cond with timestamp := now' }) s := by
  have hupserts := settles_upsertAll hs hi (fun x hx => hp.fits hi hx) hp.keys_nodup
  refine (hupserts.adapt _).bind (V := IsUndesired (p.outcome now).desired i.ns Derived.prunable)
    (fun _ s' hs' => ?_) (fun k hk => ⟨?_, ?_⟩) (fun k hk => ?_) fun k hk => ?_
  · refine (settles_finish hs'.canonical hp).mono (fun k hk => ?_) fun _ hk => hk
    obtain ⟨kind, _, hk⟩ := hk
    rw [hk]
    exact nofun
  · obtain ⟨x, hx, rfl⟩ := List.mem_map.1 hk
    exact nofun
  · obtain ⟨x, hx, rfl⟩ := List.mem_map.1 hk
    rintro ⟨kind, _, hkind, _, hno⟩
    exact hno ((hp.mem_desired now).2 ⟨x, hx, Kind.derived.inj hkind, rfl⟩)
  · obtain ⟨x, hx, rfl⟩ := List.mem_map.1 hk
    exact ⟨x.kind, rfl, hp.kind_ne hx⟩
  · obtain ⟨kind, hmem, hkind, _⟩ := hk
    refine ⟨kind, hkind, ?_⟩
    rintro rfl
    revert hmem
    decide

end

/-- A pass over a Connector at another time finds everything settled, but for the time. -/
theorem settles_converge (hs : s.Canonical) (hi : i.Describes c) :
    Settles (fun k => k.kind ≠ .connector) (fun k => ∃ kind : DerivedKind, k.kind = kind)
      (converge settings now c i.ns) (converge settings now' c i.ns)
      (fun cond => { cond with timestamp := now' }) s := by
  have hno : ∀ k : ObjectKey, False → k.kind ≠ .connector ∧ ¬∃ kind : DerivedKind, k.kind = kind :=
    fun _ h => h.elim
  -- Secrets and ConfigMaps are not written
  have hmount : ∀ k, IsMount i.ns k →
      k.kind ≠ .connector ∧ ¬∃ kind : DerivedKind, k.kind = kind := by
    rintro k ⟨_, hk | hk⟩ <;> rw [hk] <;> exact ⟨nofun, nofun⟩
  rw [converge_eq, converge_eq]
  refine settles_fetch_bind (G := fun _ => False) (fetches_adapt trivial) hs (fun _ _ => ?_) hno
  refine settles_fetch_bind (G := fun _ => False) (fetches_adapt trivial) hs
    (fun scaling _ => ?_) hno
  rw [upsertDeployment_eq, inStage_bind, bind_assoc, bind_assoc]
  refine settles_fetch_bind (fetches_adapt fetches_requireMounts) hs (fun _ _ => ?_) hmount
  refine ((settles_upsert hs hi (fits_deployment hi)).adapt _).bind
    (V := fun k => ∃ kind : DerivedKind, k.kind = kind ∧ kind ≠ .deployment) (fun _ s' hs' => ?_)
    (fun k hk => ⟨?_, ?_⟩) (fun k hk => ?_) fun k hk => ?_
  · rw [scale_eq, scale_eq]
    simp only [bind_assoc, pure_bind]
    refine settles_fetch_bind fetches_plan hs'.canonical
      (fun p hp => settles_planned hs'.canonical hi (planned_of_value hp)) fun k hk => ?_
    refine ⟨(hmount k hk).1, ?_⟩
    rintro ⟨kind, hkind, _⟩
    exact (hmount k hk).2 ⟨kind, hkind⟩
  · subst hk
    exact nofun
  · subst hk
    rintro ⟨kind, hkind, hne⟩
    exact hne (Kind.derived.inj hkind).symm
  · subst hk
    exact ⟨_, rfl⟩
  · obtain ⟨kind, hkind, _⟩ := hk
    exact ⟨kind, hkind⟩

end Pass
end ConnectorControl
