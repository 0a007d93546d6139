import ConnectorControl.Proofs.Connector.History
import ConnectorControl.Proofs.Pass.Deletions
import ConnectorControl.Proofs.Pass.Outcomes
import ConnectorControl.Proofs.Pass.Recording
import ConnectorControl.Proofs.Store.Written

/-!
# Conditions over a run of passes

Every pass notes one condition (`Pass.Notes`): how it went, or that the Connector is being
deleted.  A Connector remembers conditions when its status has just these (`Json.Remembers`), and it
is read with the conditions that it remembers (`Remembers.conditions_of_decodeAs`).  A pass adds to
them what it notes (`remembers_reconciled`), as long as the status can be patched.  So after any
number of passes a Connector that has started without status remembers the latest news among what
they have noted (`history_of_observed`).
-/

namespace ConnectorControl

/-! ## conditions in the store -/

/-- a status with these conditions, as they are written; without conditions, no status -/
inductive Json.Remembers (v : Json) : List Condition → Prop
  | nothing (h : v.get "status" = .null) : Remembers v []
  | conditions {cs : List Condition} (hne : cs ≠ [])
    (h : (v.get "status").get "conditions" = .arr (cs.map Condition.toJson)) : Remembers v cs

namespace Json

variable {v w : Json} {cs : List Condition}

theorem Remembers.congr (h : v.Remembers cs) (hw : w.get "status" = v.get "status") :
    w.Remembers cs := by
  cases h with
  | nothing h => exact .nothing (hw.trans h)
  | conditions hne h => exact .conditions hne (by rw [hw, h])

theorem find?_of_get {k : String} {x : Json} (h : v.get k = x) (hx : x.isNull = false) :
    v.find? k = some x := by
  rw [get_eq] at h
  cases hk : v.find? k with
  | some y =>
    rw [hk] at h
    exact congrArg some h
  | none =>
    rw [hk] at h
    subst h
    cases hx

theorem Remembers.conditions_of_decodeAs {o : Object} {c : Connector} (h : v.Remembers cs)
    (hv : v.Canonical) (ho : Object.decode v = .ok o) (hc : o.decodeAs Connector.decode = .ok c) :
    (c.status.getD default).conditions = cs := by
  obtain ⟨ms, _, rfl, _, _⟩ := Object.decode_eq_ok ho
  obtain ⟨st, hst, hsame⟩ := Connector.status_of_decodeAs hv.1 ho hc
  have hread := (Status.decode_obj.1 hst).1
  cases h with
  | nothing h =>
    rw [h] at hread hsame
    rw [← hsame nofun]
    exact (Except.ok.inj hread).symm
  | conditions hne h =>
    have hstatus : ((Json.obj ms).get "status").Canonical := canonical_getD hv "status"
    have hfind : Entries.find? "conditions" ((Json.obj ms).get "status").members =
        some (.arr (cs.map Condition.toJson)) := find?_of_get h rfl
    -- a list has no conditions among its members
    have hlist : ∀ items, (Json.obj ms).get "status" ≠ .arr items := by
      intro items hitems
      rw [hitems] at hfind
      cases hfind
    rw [Decode.withDefault_eq (ordered_members hstatus), hfind] at hread
    change (fun a => a.getD []) <$> some <$> Decode.list Condition.decode (.arr _) = _ at hread
    rw [Decode.list_map fun c _ => c.decode_toJson] at hread
    rw [← hsame hlist]
    exact (Except.ok.inj hread).symm

theorem remembers_patchedStatus {status : Status} (hne : status.conditions ≠ []) (v : Json) :
    (Cluster.patchedStatus v status).Remembers status.conditions := by
  refine .conditions hne ?_
  have hpatch : (Json.object [("status", status.toJson)]).Canonical :=
    canonical_object (List.forall_mem_singleton.2 Status.canonical_toJson)
  have hconditions : (Json.object [("status", status.toJson)]).at? ["status", "conditions"] =
      some (.arr (status.conditions.map Condition.toJson)) := by
    have hstatus : (Json.object [("status", status.toJson)]).find? "status" =
        some status.toJson := rfl
    rw [at?_cons_of_find? hstatus, at?_cons_of_find? (Status.find?_toJson_conditions hne)]
    rfl
  rw [get_get]
  unfold Cluster.patchedStatus
  rw [at?_merge_of_leaf hpatch hconditions rfl rfl]
  rfl

end Json

/-! ## one pass -/

/-- fetches of Connectors and patches of statuses are left alone -/
def Disturbance.besidesConnectors : Disturbance where
  fails c := c.verb ≠ .patchStatus ∧ ¬(c.verb = .get ∧ c.kind = .connector)
  hides c := c.verb ≠ .patchStatus ∧ ¬(c.verb = .get ∧ c.kind = .connector)

/-- a fault that concerns neither fetches of Connectors nor patches of statuses -/
structure Fault.BesidesConnectors (f : Fault) : Prop where
  status : f.verb ≠ .patchStatus
  fetch : ¬(f.verb = .get ∧ f.kind = .connector)

theorem Fault.BesidesConnectors.within {f : Fault} (h : f.BesidesConnectors) :
    f.Within .besidesConnectors := by
  intro c hc
  unfold concerns at hc
  simp only [Bool.and_eq_true, decide_eq_true_eq] at hc
  obtain ⟨⟨hverb, hkind⟩, _⟩ := hc
  have hspared : c.verb ≠ .patchStatus ∧ ¬(c.verb = .get ∧ c.kind = .connector) := by
    rw [← hverb, ← hkind]
    exact ⟨h.status, h.fetch⟩
  exact ⟨fun _ => hspared, fun _ _ => hspared⟩

namespace Pass

variable {d : Disturbance} {s s' : Cluster} {ns name : String} {settings : PassSettings}
  {now : String} {c : Connector} {v : Json} {w : World} {cs : List Condition}

/-- a condition that is recorded is added to those that are remembered -/
theorem ensures_tryRecord_remembers {cond : Condition}
    (hspares : ∀ body, d.Spares (.patchStatus .connector ns c.name body))
    (hv : s.find? ⟨.connector, ns, c.name⟩ = some v) (h : v.Remembers cs)
    (hcs : (c.status.getD default).conditions = cs) :
    Program.Ensures d (fun _ _ => True) (tryRecord c ns cond) s fun _ s' =>
      ∃ v', s'.find? ⟨.connector, ns, c.name⟩ = some v' ∧
        v'.Remembers (History.push cs cond) := by
  refine (ensures_tryRecord_status fun _ => trivial).mono fun _ s' hs' => ?_
  rcases hs' with ⟨rfl, hnone⟩ | ⟨v', status, hv', hafter, rfl⟩
  · have hnone := hnone hspares (by rw [hv]; rfl)
    have hrepeats := (statusAfter_eq_none.1 hnone).1
    rw [hcs] at hrepeats
    rw [History.push_of_repeats hrepeats]
    exact ⟨v, hv, h⟩
  · obtain rfl := eq_of_statusAfter hafter
    rw [← hcs]
    exact ⟨_, (Cluster.find?_set _ _ _ _).trans (if_pos rfl),
      Json.remembers_patchedStatus History.push_ne_nil v'⟩

theorem connector_of_converge (hw : w.written = [])
    (hv : w.cluster.find? ⟨.connector, ns, name⟩ = some v) :
    ((converge settings now c ns).run.run World.answer w).state.cluster.find?
      ⟨.connector, ns, name⟩ = some v := by
  refine Decidable.byContradiction fun hchanged => ?_
  obtain ⟨x, hx, hkey, _⟩ := Program.exists_write_of_changed hv hchanged
  obtain ⟨call, _, hcall, hwrite⟩ := Program.written_of_ensures (d := .any)
    asks_converge_calls.ensures (World.within_any w) hw x hx
  obtain ⟨rfl, hget, _⟩ := Cluster.write_of_write? hwrite
  obtain ⟨kind, hkind⟩ := hcall.derived hget
  exact nomatch hkind.symm.trans (congrArg ObjectKey.kind hkey)

theorem exists_tryRecord_of_visit (settings : PassSettings) (now : String)
    (hw : w.written = []) (hd : w.Within d)
    (hv : w.cluster.find? ⟨.connector, ns, c.name⟩ = some v) :
    ∃ w' : World, w'.cluster.find? ⟨.connector, ns, c.name⟩ = some v ∧ w'.Within d ∧
      ((visit settings now ns c).run.run World.answer w).state =
        ((tryRecord c ns (observation settings now ns c w)).run World.answer w').state := by
  unfold observation
  cases hdeleted : c.metadata.deletionTimestamp with
  | some t =>
    refine ⟨w, hv, hd, ?_⟩
    obtain ⟨hresult, hstate⟩ := run_always (p := tryRecord c ns (.terminating now))
      (h := World.answer) (x := w)
    unfold visit
    rw [hdeleted]
    exact (run_bind_of_ok hresult).2.trans hstate
  | none =>
    refine ⟨_, connector_of_converge hw hv, ?_, (run_visit hdeleted).2⟩
    exact (Program.Ensures.run (Program.ensures_trivial _ _) hd).2.2

section
variable {faults : List Fault} (hfaults : ∀ f ∈ faults, f.BesidesConnectors)
include hfaults

theorem read_of_besides (hc : s.Holds .connector ns name Connector.decode c) :
    ((getAs .connector ns name Connector.decode).run.run World.answer ⟨s, faults, []⟩).result =
        .ok (some c) ∧
      (afterRead ns name ⟨s, faults, []⟩).cluster = s ∧
      (afterRead ns name ⟨s, faults, []⟩).Within .besidesConnectors := by
  refine run_read_of_spares ?_ (fun f hf => (hfaults f hf).within) hc
  exact ⟨fun hf => hf.2 ⟨rfl, rfl⟩, fun hh => hh.2 ⟨rfl, rfl⟩⟩

theorem notes_reconciled_iff (hc : s.Holds .connector ns name Connector.decode c)
    {cond : Condition} :
    Notes now ns c (afterRead ns name ⟨s, faults, []⟩)
        (reconciled settings now ns name ⟨s, faults, []⟩).result cond.toJson ↔
      cond = observation settings now ns c (afterRead ns name ⟨s, faults, []⟩) := by
  rw [(run_reconcile settings now (read_of_besides hfaults hc).1).1]
  exact notes_iff

/-- a pass adds what it notes to what the Connector remembers -/
theorem remembers_reconciled {cond : Condition} (hs : s.Filed)
    (hc : s.Holds .connector ns name Connector.decode c)
    (hcond : Notes now ns c (afterRead ns name ⟨s, faults, []⟩)
      (reconciled settings now ns name ⟨s, faults, []⟩).result cond.toJson)
    (hv : s.find? ⟨.connector, ns, name⟩ = some v) (h : v.Remembers cs) :
    ∃ v', (reconciled settings now ns name ⟨s, faults, []⟩).state.cluster.find?
      ⟨.connector, ns, name⟩ = some v' ∧ v'.Remembers (History.push cs cond) := by
  obtain rfl := (notes_reconciled_iff hfaults hc).1 hcond
  obtain ⟨hread, hcluster, hwithin⟩ := read_of_besides hfaults hc
  obtain rfl : c.name = name := (hs.describes hc).connector_name
  obtain ⟨v₁, o, hv₁, ho, hdecode⟩ := id hc
  obtain rfl := Option.some.inj (hv.symm.trans hv₁)
  have hconditions := h.conditions_of_decodeAs (hs.canonical _ v hv)
    (Cluster.decode_of_readObject ho) hdecode
  obtain ⟨w', hv', hwithin', hvisit⟩ := exists_tryRecord_of_visit settings now
    written_afterRead hwithin (show _ = some v by rw [hcluster]; exact hv)
  rw [(run_reconcile settings now hread).2, hvisit]
  have hspares : ∀ body,
      Disturbance.besidesConnectors.Spares (.patchStatus .connector ns c.name body) := fun _ =>
    ⟨fun hf => hf.1 rfl, fun hh => hh.1 rfl⟩
  exact ((ensures_tryRecord_remembers hspares hv' h hconditions).run hwithin').2.1

end

end Pass

/-! ## a run of passes -/

/-- What the passes over a Connector have noted up to a store.  Between passes whatever may
change but the status of the Connector; a pass can read the Connector, and patch its status. -/
inductive Observed (ns name : String) (s₀ : Cluster) : List Condition → Cluster → Prop
  | start : Observed ns name s₀ [] s₀
  | edited {cs : List Condition} {s s' : Cluster} {v v' : Json} (h : Observed ns name s₀ cs s)
    (hfiled : s'.Filed) (hv : s.find? ⟨.connector, ns, name⟩ = some v)
    (hv' : s'.find? ⟨.connector, ns, name⟩ = some v') (hstatus : v'.get "status" = v.get "status") :
    Observed ns name s₀ cs s'
  | passed {cs : List Condition} {s : Cluster} {c : Connector} {cond : Condition}
    (h : Observed ns name s₀ cs s) (hc : s.Holds .connector ns name Connector.decode c)
    (settings : PassSettings) (now : String) (faults : List Fault)
    (hfaults : ∀ f ∈ faults, f.BesidesConnectors)
    (hcond : Pass.Notes now ns c (Pass.afterRead ns name ⟨s, faults, []⟩)
      (Pass.reconciled settings now ns name ⟨s, faults, []⟩).result cond.toJson) :
    Observed ns name s₀ (cs ++ [cond])
      (Pass.reconciled settings now ns name ⟨s, faults, []⟩).state.cluster

namespace Observed

open Pass

variable {ns name : String} {s₀ s : Cluster} {cs : List Condition} {v : Json}

/-- every pass adds what it notes -/
theorem remembers (h : Observed ns name s₀ cs s) (hs : s₀.Filed)
    (hv : s₀.find? ⟨.connector, ns, name⟩ = some v) (hnone : v.get "status" = .null) :
    s.Filed ∧ ∃ v', s.find? ⟨.connector, ns, name⟩ = some v' ∧
      v'.Remembers (cs.foldl History.push []) := by
  induction h with
  | start => exact ⟨hs, v, hv, .nothing hnone⟩
  | edited h hfiled hv₁ hv₂ hstatus ih =>
    obtain ⟨_, v', hv', hremembers⟩ := ih
    obtain rfl := Option.some.inj (hv₁.symm.trans hv')
    exact ⟨hfiled, _, hv₂, hremembers.congr hstatus⟩
  | passed h hc settings now faults hfaults hcond ih =>
    obtain ⟨hfiled, v', hv', hremembers⟩ := ih
    rw [List.foldl_append]
    exact ⟨filed_reconciled settings now ns name hfiled,
      remembers_reconciled hfaults hfiled hc hcond hv' hremembers⟩

end Observed

/-- The history of a Connector: after any number of passes over a Connector that has started without
status, whatever else has changed in between and whatever faults there were but those of the status,
it has the sixteen latest of the news among the noted conditions, as they are in the store and as
they are read, and the last of them says what was noted last.  Whatever pass comes next notes just
one condition. -/
theorem history_of_observed {ns name : String} {s₀ s : Cluster} {cs : List Condition} {v : Json}
    (hs : s₀.Filed) (hv : s₀.find? ⟨.connector, ns, name⟩ = some v)
    (hnone : v.get "status" = .null) (h : Observed ns name s₀ cs s) :
    let kept := (History.news cs).drop ((History.news cs).length - 16)
    (∃ v', s.find? ⟨.connector, ns, name⟩ = some v' ∧ v'.Remembers kept) ∧
    (∀ c, s.Holds .connector ns name Connector.decode c →
      (c.status.getD default).conditions = kept) ∧
    kept.length ≤ 16 ∧
    (∀ last, cs.getLast? = some last → ∃ c, kept.getLast? = some c ∧ c.type = last.type ∧
      c.status = last.status ∧ c.reason = last.reason ∧ c.message = last.message) ∧
    ∀ settings now faults c, (∀ f ∈ faults, f.BesidesConnectors) →
      s.Holds .connector ns name Connector.decode c →
        ∃! cond : Condition, Pass.Notes now ns c (Pass.afterRead ns name ⟨s, faults, []⟩)
          (Pass.reconciled settings now ns name ⟨s, faults, []⟩).result cond.toJson := by
  intro kept
  have hkept : History.latest (History.news cs) = kept := rfl
  obtain ⟨hfiled, v', hv', hremembers⟩ := h.remembers hs hv hnone
  have hrepeats := History.repeats_foldl_push cs
  rw [History.foldl_push, hkept] at hremembers hrepeats
  refine ⟨⟨v', hv', hremembers⟩, fun c hc => ?_, History.length_latest _, fun last hlast => ?_,
    fun settings now faults c hfaults hc => ?_⟩
  · obtain ⟨w, o, hw, ho, hdecode⟩ := hc
    obtain rfl := Option.some.inj (hv'.symm.trans hw)
    exact hremembers.conditions_of_decodeAs (hfiled.canonical _ _ hv')
      (Cluster.decode_of_readObject ho) hdecode
  · have hsame : History.repeats kept last = true := by
      rw [hrepeats, hlast]
      exact Condition.sameObservation_iff.2 ⟨rfl, rfl, rfl, rfl⟩
    unfold History.repeats at hsame
    split at hsame
    next c hc => exact ⟨c, hc, Condition.sameObservation_iff.1 hsame⟩
    · cases hsame
  · exact ⟨_, (Pass.notes_reconciled_iff hfaults hc).2 rfl,
      fun cond hcond => (Pass.notes_reconciled_iff hfaults hc).1 hcond⟩

/-! ## a run of passes over a Connector -/

section
open Pass

def portalObservation (settings : PassSettings) (now : String) (s : Cluster) : Condition :=
  match (getAs .connector "apps" "portal" Connector.decode).run.value s with
  | .ok (some c) => observation settings now "apps" c (afterRead "apps" "portal" ⟨s, [], []⟩)
  | _ => .terminating now

def portalAfter (settings : PassSettings) (now : String) (s : Cluster) : Cluster :=
  (reconciled settings now "apps" "portal" ⟨s, [], []⟩).state.cluster

def ReadsPortal (s : Cluster) : Prop :=
  ((getAs .connector "apps" "portal" Connector.decode).run.value s).map Option.isSome = .ok true

instance (s : Cluster) : Decidable (ReadsPortal s) := inferInstanceAs (Decidable (_ = _))

theorem observed_portalAfter {s₀ s : Cluster} {cs : List Condition} (settings : PassSettings)
    (now : String) (h : Observed "apps" "portal" s₀ cs s) (hread : ReadsPortal s) :
    Observed "apps" "portal" s₀ (cs ++ [portalObservation settings now s])
      (portalAfter settings now s) := by
  obtain ⟨c, hc⟩ : ∃ c, (getAs .connector "apps" "portal" Connector.decode).run.value s =
      .ok (some c) := by
    unfold ReadsPortal at hread
    cases hvalue : (getAs .connector "apps" "portal" Connector.decode).run.value s with
    | error e =>
      rw [hvalue] at hread
      cases hread
    | ok found =>
      rw [hvalue] at hread
      obtain ⟨c, rfl⟩ := Option.isSome_iff_exists.1 (Except.ok.inj hread)
      exact ⟨c, rfl⟩
  unfold portalObservation
  rw [hc]
  have hholds := value_getAs.1 hc
  exact h.passed hholds settings now [] (List.forall_mem_nil _)
    ((notes_reconciled_iff (List.forall_mem_nil _) hholds).2 rfl)

/-- the type of the trigger is not configured in two passes, and in a third one it is -/
def portalFailed : Cluster := portalAfter ⟨.empty, true⟩ "t0" portalWorld.cluster

def portalFailedAgain : Cluster := portalAfter ⟨.empty, true⟩ "t1" portalFailed

def portalScaled : Cluster := portalAfter portalSettings "t2" portalFailedAgain

def portalStored : Json := (portalScaled.find? ⟨.connector, "apps", "portal"⟩).getD .null

def portalDeletion : Json := .object [
  ("metadata", .object [("deletionTimestamp", .str "2024-05-01T00:00:00Z")])]

def portalTerminating : Cluster :=
  portalScaled.set ⟨.connector, "apps", "portal"⟩ (portalStored.merge portalDeletion)

def portalConditions : List Condition :=
  [portalObservation ⟨.empty, true⟩ "t0" portalWorld.cluster,
    portalObservation ⟨.empty, true⟩ "t1" portalFailed,
    portalObservation portalSettings "t2" portalFailedAgain,
    portalObservation portalSettings "t3" portalTerminating]

-- all of the run is evaluated at once, as its steps share their stores
theorem portal_run : (ReadsPortal portalWorld.cluster ∧ ReadsPortal portalFailed ∧
      ReadsPortal portalFailedAgain ∧ ReadsPortal portalTerminating) ∧
    ObjectKey.stated? .connector (portalStored.merge portalDeletion) =
      some ⟨.connector, "apps", "portal"⟩ ∧
    History.latest (History.news portalConditions) = [
      ⟨"t0", .error, .false, some .errorCreatingScaledObject,
        some "Unknown trigger type \"queue\": no scaler auth configured"⟩,
      ⟨"t2", .created, .true, some .scaledObjectCreated,
        some "ScaledObject portal-vso has 1 trigger(s)"⟩,
      .terminating "t3"] := by
  decide +kernel

theorem observed_portal : Observed "apps" "portal" portalWorld.cluster portalConditions
    (portalAfter portalSettings "t3" portalTerminating) := by
  obtain ⟨⟨hstart, hfailed, hagain, hterminating⟩, hstated, -⟩ := portal_run
  have hscaled : Observed "apps" "portal" portalWorld.cluster (portalConditions.take 3)
      portalScaled :=
    observed_portalAfter _ _ (observed_portalAfter _ _
      (observed_portalAfter _ _ .start hstart) hfailed) hagain
  have hportal : portalWorld.cluster.find? ⟨.connector, "apps", "portal"⟩ = some portal := rfl
  obtain ⟨hfiled, v, hv, -⟩ := hscaled.remembers filed_portal hportal rfl
  have hstored : portalStored = v := congrArg (·.getD .null) hv
  rw [hstored] at hstated
  have hcanonical : (v.merge portalDeletion).Canonical :=
    Json.canonical_merge (hfiled.canonical _ v hv) (Json.canonical_object
      (List.forall_mem_singleton.2 (Json.canonical_object (List.forall_mem_singleton.2 trivial))))
  have hset : portalTerminating.find? ⟨.connector, "apps", "portal"⟩ =
      some (v.merge portalDeletion) := by
    unfold portalTerminating
    rw [Cluster.find?_set, if_pos rfl, hstored]
  have hstatus : (v.merge portalDeletion).get "status" = v.get "status" := by
    have hdeletion : portalDeletion.IsTable := Json.isTable_object _
    rw [Json.get_eq, Json.get_eq, Json.find?_merge v hdeletion]
    rfl
  have hedited : portalTerminating.Filed := by
    unfold portalTerminating
    rw [hstored]
    exact hfiled.set hcanonical hstated
  exact observed_portalAfter _ _ (hscaled.edited hedited hv hset hstatus) hterminating

/-- the first failure, the success and the deletion are remembered -/
theorem history_of_observed_portal : ∃ v,
    (portalAfter portalSettings "t3" portalTerminating).find? ⟨.connector, "apps", "portal"⟩ =
        some v ∧
      (v.get "status").get "conditions" = .arr [
        Condition.written "t0" "Error" "False" "ErrorCreatingAppScaledObject"
          "Unknown trigger type \"queue\": no scaler auth configured",
        Condition.written "t2" "Created" "True" "AppScaledObjectCreated"
          "ScaledObject portal-vso has 1 trigger(s)",
        Condition.written "t3" "Terminating" "True" "TerminatingResources"
          "Derived objects are removed with the Connector"] := by
  have hportal : portalWorld.cluster.find? ⟨.connector, "apps", "portal"⟩ = some portal := rfl
  obtain ⟨⟨v, hv, hremembers⟩, -⟩ := history_of_observed filed_portal hportal rfl observed_portal
  have hkept := portal_run.2.2
  unfold History.latest History.limit at hkept
  rw [hkept] at hremembers
  refine ⟨v, hv, ?_⟩
  cases hremembers with
  | conditions _ h => exact h

end

end ConnectorControl
