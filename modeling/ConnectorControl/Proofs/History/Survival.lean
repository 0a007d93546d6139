import ConnectorControl.Proofs.History.Runs
import ConnectorControl.Proofs.Pass.Deletions
import ConnectorControl.Proofs.Pass.Recording
import ConnectorControl.Proofs.Store.Written

/-!
# Objects of other owners

Pruning looks at the owner of an object when it deletes it, and not at who has put it there.  What
the Connector does not control when a pass begins is not deleted in that pass
(`controls_of_deleted`) and changes only by being patched, which takes a name of the Connector
(`patched_of_changed`).  So an object that has another owner before a run of passes is there after
it, unless a pass has made it the Connector's own before another one deletes it
(`patched_before_deleted`); and then it may be gone (`deleted_once_patched`).
-/

namespace ConnectorControl
namespace Pass

variable {d : Disturbance} {i : Identity} {c : Connector} {s s' : Cluster} {k : ObjectKey}
  {v : Json} {settings : PassSettings} {now : String}

/-! ## a pass -/

/-- a deletion of what the Connector controls and does not want -/
def Call.DeletesOwn (i : Identity) (desired : List (DerivedKind × String)) (s : Cluster)
    (call : Call) : Prop :=
  call.verb = .delete → ∃ kind ∈ Derived.prunable, ∃ name v, call.key = i.key kind name ∧
    (kind, name) ∉ desired ∧ s.find? (i.key kind name) = some v ∧ i.controls v = true

theorem ensures_prune_controlled {desired : List (DerivedKind × String)} (hi : i.Describes c)
    (hs : s.Filed) : Ensures d (fun call _ => Call.DeletesOwn i desired s call)
      (prune c i.ns desired) s (fun _ _ => True) fun _ _ => True := by
  unfold prune
  cases huid : c.metadata.uid with
  | none => trivial
  | some uid =>
    have hi' : i.uid = some uid := by rw [← hi.uid, huid]
    -- all that happens to the store meanwhile is that objects go
    let J : List DerivedKind → Cluster → Prop := fun kinds s' =>
      (∀ kind ∈ kinds, kind ∈ Derived.prunable) ∧ ∀ k v, s'.find? k = some v → s.find? k = some v
    refine (ensures_pruneKinds (J := J) (fun kind kinds s₁ hJ => ?_)
      ⟨fun _ hk => hk, fun _ _ hv => hv⟩).mono_ok fun _ _ _ => trivial
    obtain ⟨hkinds, hkept⟩ := hJ
    have hrest : ∀ kind' ∈ kinds, kind' ∈ Derived.prunable := fun kind' hk =>
      hkinds kind' (List.mem_cons_of_mem _ hk)
    refine ensures_list (fun he => nomatch he) (fun found hfound => ?_) (fun _ => ⟨hrest, hkept⟩)
      fun _ _ => trivial
    refine (ensures_deleteStale (J := fun s' => ∀ k v, s'.find? k = some v → s.find? k = some v)
      (fun o ho hstale _ _ _ => ?_)
      (fun _ _ _ _ h k v hv => h k v (Cluster.find?_of_find?_remove hv))
      (fun _ _ _ _ => trivial) hkept).mono_ok fun _ _ h => ⟨hrest, h.1⟩
    obtain ⟨v, hmem, hread⟩ := exists_of_mem_mapM hfound ho
    obtain ⟨name, hv, _⟩ := Cluster.mem_select.1 hmem
    have hv := hkept _ v hv
    obtain ⟨hno, howner⟩ := isStale_iff.1 hstale
    rw [show o.metadata.nameAny = name from hs.nameAny hv hread] at hno ⊢
    exact ⟨kind, hkinds kind List.mem_cons_self, name, v, rfl, hno, hv,
      Identity.controls_of_read hi' hread howner⟩

def Call.DeletesControlled (i : Identity) (s : Cluster) (call : Call) : Prop :=
  call.verb = .delete → ∃ kind name v, call.key = i.key kind name ∧
    s.find? call.key = some v ∧ i.controls v = true

theorem ensures_converge_controlled (hi : i.Describes c) (hs : s.Filed) :
    Ensures d (fun call _ => Call.DeletesControlled i s call) (converge settings now c i.ns) s
      (fun _ _ => True) fun _ _ => True := by
  rw [converge_eq_untilPruning, ensures_bind]
  have hfirst :=
    (ensures_untilPruning_framed (d := d) settings now hi hs).and_asks asks_untilPruning
  refine (hfirst.mono_calls fun call _ hcall hdelete => absurd hdelete hcall.2).mono
    (fun outcome s₁ h₁ => ?_) fun _ _ _ => trivial
  obtain ⟨scaling, p, _, hp, rfl, h₁⟩ := h₁
  refine ensures_finish (fun hon => ?_) fun _ => trivial
  refine (ensures_prune_controlled hi h₁.filed).mono_calls fun call _ hcall hdelete => ?_
  obtain ⟨kind, hkind, name, v, hkey, hno, hv, howner⟩ := hcall hdelete
  -- what is not desired has not been written in this pass, so it is as the pass has found it
  have hsame : s₁.find? (i.key kind name) = s.find? (i.key kind name) :=
    (h₁.fate _).eq nofun (besidesPlan_of_not_mem hp hon hkind hno).2 not_false
  exact ⟨kind, name, v, hkey, by rw [hkey, ← hsame]; exact hv, howner⟩

/-- a reconciliation deletes nothing but what the Connector controls when it begins -/
theorem ensures_reconcile_controlled (hs : s.Filed) (hfixed : i.Fixed s) :
    Ensures d (fun call _ => Call.DeletesControlled i s call) (reconcile settings now i.ns i.name) s
      (fun _ _ => True) fun _ _ => True := by
  have hrecord : ∀ (c : Connector) cond s₁, Program.Ensures d
      (fun call _ => Call.DeletesControlled i s call) (tryRecord c i.ns cond) s₁
        fun _ _ => True := fun c cond s₁ =>
    (asks_tryRecord cond).ensures.mono_calls fun call _ hcall hdelete =>
      nomatch hcall.verb.symm.trans hdelete
  refine ensures_reconcile (fun hdelete => nomatch hdelete) (fun c hc => ?_) trivial
    fun _ => trivial
  refine ensures_visit (fun _ => hrecord c _ s) fun _ => ?_
  exact (ensures_converge_controlled (hfixed c hc) hs).mono (fun _ s₁ _ => hrecord c _ s₁)
    fun _ s₁ _ => hrecord c _ s₁

end Pass

namespace Identity

open Pass

variable {i : Identity} {s s₀ : Cluster} {k : ObjectKey} {v : Json} {passes : List (List Write)}

/-- what is deleted in a pass is what the Connector controls when it begins -/
theorem controls_of_deleted (hs : s.Filed) (hfixed : i.Fixed s) {settings : PassSettings}
    {now : String} {faults : List Fault}
    (h : Deleted (i.pass settings now faults s).state k) :
    ∃ kind name v, k = i.key kind name ∧ s.find? k = some v ∧ i.controls v = true := by
  obtain ⟨x, hx, hdelete, rfl⟩ := h
  obtain ⟨call, _, hcall, hwrite⟩ := Program.written_of_ensures (w := ⟨s, faults, []⟩)
    (ensures_reconcile_controlled (d := .any) hs hfixed) (World.within_any _) rfl x hx
  obtain ⟨rfl, _⟩ := Cluster.write_of_write? hwrite
  exact hcall hdelete

/-- an object that the Connector does not control changes only by being patched, under a name of
the Connector -/
theorem patched_of_changed (hs : s.Filed) (hfixed : i.Fixed s) {settings : PassSettings}
    {now : String} {faults : List Fault} {kind : DerivedKind} (hk : k.kind = kind)
    (hv : s.find? k = some v) (hno : i.controls v = false)
    (hchanged : (i.pass settings now faults s).state.cluster.find? k ≠ some v) :
    i.Owns k ∧ ∃ x ∈ (i.pass settings now faults s).state.writes, x.verb = .patch ∧ x.key = k := by
  have hkept : ¬Deleted (i.pass settings now faults s).state k := by
    intro hdeleted
    obtain ⟨_, _, v', _, hv', hcontrols⟩ := controls_of_deleted hs hfixed hdeleted
    obtain rfl := Option.some.inj (hv.symm.trans hv')
    exact nomatch hno.symm.trans hcontrols
  constructor
  · -- a pass changes an object by writing what the Connector asks for, or by deleting it
    have hconfined := (confined_of_reconcile hs settings now i.ns i.name faults).2
    rcases hconfined.fate k with hsame | ⟨c, hc, hfate⟩
    · exact absurd (hsame.trans hv) hchanged
    · rw [(hfixed c hc).uid, hv] at hfate
      generalize hend :
        (reconciled settings now i.ns i.name ⟨s, faults, []⟩).state.cluster.find? k = new at hfate
      cases hfate with
      | kept => exact absurd hend hchanged
      | recorded hk' _ _ => exact nomatch hk.symm.trans (congrArg ObjectKey.kind hk')
      | written _ hk' hname _ _ => exact ⟨_, _, hk'.symm, hname⟩
      | pruned _ hv' _ hcontrols =>
        obtain rfl := Option.some.inj hv'
        exact nomatch hno.symm.trans hcontrols
  · obtain ⟨x, hx, hkey, hcreate⟩ := Program.exists_write_of_changed hv hchanged
    refine ⟨x, hx, ?_, hkey⟩
    obtain ⟨call, _, hcall, hwrite⟩ := Program.written_of_ensures (w := ⟨s, faults, []⟩)
      (d := .any) asks_reconcile.ensures (World.within_any _) rfl x hx
    obtain ⟨rfl, hget, hlist⟩ := Cluster.write_of_write? hwrite
    have hdelete : call.verb ≠ .delete := fun hdelete => hkept ⟨_, hx, hdelete, hkey⟩
    have hkind : call.kind = kind := (congrArg ObjectKey.kind hkey).trans hk
    rcases hcall with (h | h | h) | ⟨_, h⟩
    · exact absurd h hget
    · rcases h.verb with h | h | h
      · exact absurd h hcreate
      · exact absurd h hget
      · exact h
    · rcases h.verb with h | h
      · exact absurd h hlist
      · exact absurd h hdelete
    · exact nomatch hkind.symm.trans (congrArg ObjectKey.kind h.key)

/-! ## a run of passes -/

/-- What passes over a Connector have written, pass by pass, up to a store.  Between passes whatever
may change but the object under a key, as long as the Connector that passes read is this one. -/
inductive Logged (i : Identity) (k : ObjectKey) (s₀ : Cluster) : List (List Write) → Cluster → Prop
  | start : Logged i k s₀ [] s₀
  | edited {passes : List (List Write)} {s s' : Cluster} (h : Logged i k s₀ passes s)
    (hkeep : s'.find? k = s.find? k) (hfiled : s'.Filed) : Logged i k s₀ passes s'
  | passed {passes : List (List Write)} {s : Cluster} (h : Logged i k s₀ passes s)
    (hfixed : i.Fixed s) (settings : PassSettings) (now : String) (faults : List Fault) :
    Logged i k s₀ (passes ++ [(i.pass settings now faults s).state.writes])
      (i.pass settings now faults s).state.cluster

def Did (verb : Verb) (k : ObjectKey) (writes : List Write) : Prop :=
  ∃ x ∈ writes, x.verb = verb ∧ x.key = k

/-- no pass deletes an object unless an earlier one has patched it -/
def PatchedFirst (i : Identity) (k : ObjectKey) (passes : List (List Write)) : Prop :=
  ∀ before writes after, passes = before ++ writes :: after → Did .delete k writes →
    i.Owns k ∧ ∃ earlier ∈ before, Did .patch k earlier

theorem PatchedFirst.concat {writes : List Write} (h : i.PatchedFirst k passes)
    (hlast : Did .delete k writes → i.Owns k ∧ ∃ earlier ∈ passes, Did .patch k earlier) :
    i.PatchedFirst k (passes ++ [writes]) := by
  intro before writes' after hsplit hdelete
  rcases List.eq_nil_or_concat after with rfl | ⟨after', last, rfl⟩
  · obtain ⟨rfl, hwrites⟩ := List.append_inj' hsplit rfl
    obtain rfl := List.singleton_inj.1 hwrites
    exact hlast hdelete
  · rw [List.concat_eq_append, ← List.cons_append, ← List.append_assoc] at hsplit
    exact h before writes' after' (List.append_inj' hsplit rfl).1 hdelete

/-- What holds of an object while passes are run: if one has patched it, it is under a name of the
Connector; otherwise it is as it was, unless it is of a kind that passes never delete. -/
structure Spared (i : Identity) (k : ObjectKey) (v : Json) (passes : List (List Write))
    (s : Cluster) : Prop where
  filed : s.Filed
  first : i.PatchedFirst k passes
  kept : (∀ kind : DerivedKind, k.kind ≠ kind) ∨ s.find? k = some v ∨
    i.Owns k ∧ ∃ earlier ∈ passes, Did .patch k earlier

theorem Spared.passed (h : i.Spared k v passes s) (hno : i.controls v = false)
    (hfixed : i.Fixed s) (settings : PassSettings) (now : String) (faults : List Fault) :
    i.Spared k v (passes ++ [(i.pass settings now faults s).state.writes])
      (i.pass settings now faults s).state.cluster := by
  have hfiled : (i.pass settings now faults s).state.cluster.Filed :=
    filed_reconciled settings now i.ns i.name h.filed
  have hlast : Did .delete k (i.pass settings now faults s).state.writes →
      i.Owns k ∧ ∃ earlier ∈ passes, Did .patch k earlier := by
    intro hdelete
    obtain ⟨kind, _, v', rfl, hv', hcontrols⟩ := controls_of_deleted h.filed hfixed hdelete
    rcases h.kept with hkind | hv | hpatched
    · exact absurd rfl (hkind kind)
    · obtain rfl := Option.some.inj (hv.symm.trans hv')
      exact nomatch hno.symm.trans hcontrols
    · exact hpatched
  refine ⟨hfiled, h.first.concat hlast, ?_⟩
  rcases h.kept with hkind | hv | ⟨howns, earlier, hearlier, hpatch⟩
  · exact .inl hkind
  · by_cases hsame : (i.pass settings now faults s).state.cluster.find? k = some v
    · exact .inr (.inl hsame)
    · by_cases hkind : ∃ kind : DerivedKind, k.kind = kind
      · obtain ⟨kind, hkind⟩ := hkind
        obtain ⟨howns, hpatch⟩ := patched_of_changed h.filed hfixed hkind hv hno hsame
        exact .inr (.inr ⟨howns, _, List.mem_append_right _ (List.mem_singleton.2 rfl), hpatch⟩)
      · exact .inl fun kind hk => hkind ⟨kind, hk⟩
  · exact .inr (.inr ⟨howns, earlier, List.mem_append_left _ hearlier, hpatch⟩)

theorem Logged.spared (h : i.Logged k s₀ passes s) (hs : s₀.Filed) (hv : s₀.find? k = some v)
    (hno : i.controls v = false) : i.Spared k v passes s := by
  induction h with
  | start => exact ⟨hs, fun _ _ _ hsplit _ => by simp at hsplit, .inr (.inl hv)⟩
  | edited h hkeep hfiled ih =>
    refine ⟨hfiled, ih.first, ih.kept.imp_right (.imp_left fun hv => ?_)⟩
    exact hkeep.trans hv
  | passed h hfixed settings now faults ih => exact ih.passed hno hfixed settings now faults

/-- Objects of other owners survive: over any run of passes, whatever else changes in between and
whatever faults there are, an object that does not have the Connector as an owner at the start is
not deleted, unless it is under a name of the Connector and an earlier pass has patched it. -/
theorem patched_before_deleted (hs : s₀.Filed) (hv : s₀.find? k = some v)
    (hforeign : i.owns v = false) (h : i.Logged k s₀ passes s) : i.PatchedFirst k passes :=
  (h.spared hs hv (controls_of_owns hforeign)).first

/-! ## a Service of an earlier Connector -/

/-- what is filed under a Connector that has the UID if it can be read -/
theorem fixed_of_filed (hs : s.Filed) (h : i.KnownIn s) : i.Fixed s := by
  intro c hc
  have hi := hs.describes hc
  rw [h c hc] at hi
  exact hi

def formerPortal : Identity := ⟨"apps", "portal", some "u0"⟩

def routedPortal : Json := portal.merge (.object [("spec", .object [
  ("exposePort", .int 80),
  ("scalingRule", .object [
    ("customScaling", .null),
    ("httpScaling", .object [("host", .str "portal.local")])])])])

/-- a store with the Connector, which scales on requests, and with a Service of the former one -/
def inheritedStore (service : String) : Cluster :=
  portalWorld.cluster
    |>.set portalIdentity.connectorKey routedPortal
    |>.set (portalIdentity.key .service service)
      (formerPortal.stored .service service "u5" (.object []))

theorem filed_inherited (service : String) : (inheritedStore service).Filed := by
  have hrouted : routedPortal.Canonical := by
    have hportal : portal.Canonical := kept_portal.canonical portalIdentity.connectorKey _ rfl
    refine Json.canonical_merge hportal (Json.canonical_object (List.forall_mem_singleton.2 ?_))
    refine Json.canonical_object (List.forall_mem_cons.2 ⟨trivial, List.forall_mem_singleton.2 ?_⟩)
    refine Json.canonical_object (List.forall_mem_cons.2 ⟨trivial, List.forall_mem_singleton.2 ?_⟩)
    exact Json.canonical_object (List.forall_mem_singleton.2 trivial)
  refine (filed_portal.set hrouted rfl).set ?_ Identity.stated?_stored
  exact Identity.canonical_stored (Json.canonical_object (List.forall_mem_nil _))

def inheritedEdited (service : String) : Cluster :=
  (portalIdentity.pass portalSettings "t0" [] (inheritedStore service)).state.cluster
    |>.set portalIdentity.connectorKey portal

def inheritedPasses (service : String) : List (List Write) :=
  [(portalIdentity.pass portalSettings "t0" [] (inheritedStore service)).state.writes,
    (portalIdentity.pass portalSettings "t1" [] (inheritedEdited service)).state.writes]

theorem logged_inherited (service : String) :
    portalIdentity.Logged (portalIdentity.key .service service) (inheritedStore service)
      (inheritedPasses service)
      (portalIdentity.pass portalSettings "t1" [] (inheritedEdited service)).state.cluster := by
  have hportal : portal.Canonical := kept_portal.canonical portalIdentity.connectorKey _ rfl
  have hfiled := filed_inherited service
  have hedited : (inheritedEdited service).Filed :=
    (filed_reconciled portalSettings "t0" _ _ (w := ⟨inheritedStore service, [], []⟩) hfiled).set
      hportal rfl
  have hknown : ∀ {s : Cluster} {v : Json}, s.find? portalIdentity.connectorKey = some v →
      ((Cluster.readObject v).map fun o => (o.decodeAs Connector.decode).map
        (·.metadata.uid)) = .ok (.ok (some "u1")) → portalIdentity.KnownIn s := by
    intro s v hv hread c hc
    obtain ⟨w, o, hw, ho, hc⟩ := hc
    obtain rfl := Option.some.inj (hv.symm.trans hw)
    rw [ho] at hread
    have hread : (o.decodeAs Connector.decode).map (·.metadata.uid) = .ok (some "u1") :=
      Except.ok.inj hread
    rw [hc] at hread
    exact Except.ok.inj hread
  refine .passed (.edited (.passed .start (fixed_of_filed hfiled ?_) _ _ _) ?_ hedited)
    (fixed_of_filed hedited ?_) _ _ _
  · refine hknown (v := routedPortal) ?_ (by decide +kernel)
    exact (Cluster.find?_set _ _ _ _).trans ((if_neg nofun).trans
      ((Cluster.find?_set _ _ _ _).trans (if_pos rfl)))
  · exact (Cluster.find?_set _ _ _ _).trans (if_neg nofun)
  · exact hknown (v := portal) ((Cluster.find?_set _ _ _ _).trans (if_pos rfl)) (by decide +kernel)

/-- A Service that the former Connector controls, and that the present one does not own, is deleted
all the same: its name is the Connector's, so the first pass makes it the Connector's own, and the
second one finds it stale. -/
theorem deleted_once_patched :
    (inheritedStore "portal").find? (portalIdentity.key .service "portal") =
      some (formerPortal.stored .service "portal" "u5" (.object [])) ∧
    formerPortal.controls (formerPortal.stored .service "portal" "u5" (.object [])) = true ∧
    portalIdentity.owns (formerPortal.stored .service "portal" "u5" (.object [])) = false ∧
    ∃ passes s, portalIdentity.Logged (portalIdentity.key .service "portal")
        (inheritedStore "portal") passes s ∧
      ∃ writes ∈ passes, Did .delete (portalIdentity.key .service "portal") writes := by
  refine ⟨by decide +kernel, by decide +kernel, by decide +kernel, _, _, logged_inherited "portal",
    _, List.mem_cons_of_mem _ (List.mem_singleton.2 rfl), ?_⟩
  unfold Did
  decide +kernel

/-- under another name the Service survives both passes -/
theorem patched_before_deleted_inherited :
    portalIdentity.owns (formerPortal.stored .service "door" "u5" (.object [])) = false ∧
    ∀ writes ∈ inheritedPasses "door",
      ¬Did .delete (portalIdentity.key .service "door") writes := by
  have hforeign : portalIdentity.owns (formerPortal.stored .service "door" "u5" (.object [])) =
      false := by decide +kernel
  refine ⟨hforeign, fun writes hwrites hdelete => ?_⟩
  have hfirst := patched_before_deleted (filed_inherited "door")
    ((Cluster.find?_set _ _ _ _).trans (if_pos rfl)) hforeign (logged_inherited "door")
  obtain ⟨before, after, hsplit⟩ := List.append_of_mem hwrites
  obtain ⟨⟨kind, name, hkey, hname⟩, _⟩ := hfirst before writes after hsplit hdelete
  obtain ⟨hkind, rfl⟩ : DerivedKind.service = kind ∧ "door" = name := by
    simpa [Identity.key] using hkey
  subst hkind
  have hname : "door" = Derived.objectName .service "portal" := hname
  exact absurd hname (by decide)

end Identity
end ConnectorControl
