import ConnectorControl.Proofs.Pass.Calls
import ConnectorControl.Proofs.Pass.Runs
import ConnectorControl.Proofs.Store.Cuts

/-!
# A pass that a fault cuts short

A pass gives up at the first create or patch that fails (`givesUp_reconcile`): what it wanted to
write and to prune after that is left, the failure is recorded, and it is what the pass comes to.
So under faults on creates and patches a pass writes what it writes without faults, up to a call
that a fault takes (`cut_of_reconcile`).
-/

namespace ConnectorControl
namespace Pass

variable {α β ε ε' : Type} {g : ε → Failure}

/-! ## programs that may fail -/

/-- After a create or a patch that failed, the program does nothing but record conditions and fails
for that reason, which `g` reads off. -/
def GivesUp (g : ε → Failure) (p : ExceptT ε Program α) : Prop :=
  p.run.GivesUp fun e r => ∃ e', r = .error e' ∧ g e' = e

theorem givesUp_bind {p : ExceptT ε Program α} {f : α → ExceptT ε Program β} (hp : GivesUp g p)
    (hf : ∀ a, GivesUp g (f a)) : GivesUp g (p >>= f) := by
  refine Program.givesUp_bind hp (fun r => ?_) fun e r hr s => ?_
  · cases r with
    | ok a => exact hf a
    | error e => trivial
  · obtain ⟨e', rfl, he⟩ := hr
    exact ⟨e', rfl, he⟩

theorem givesUp_adapt {p : ExceptT ε Program α} {f : ε → ε'} {g' : ε' → Failure}
    (hp : GivesUp g p) (hg : ∀ e, g' (f e) = g e) : GivesUp g' (p.adapt f) := by
  refine Program.givesUp_bind hp (fun r => trivial) fun e r hr s => ?_
  obtain ⟨e', rfl, he⟩ := hr
  exact ⟨f e', rfl, (hg e').trans he⟩

theorem givesUp_of_asks {p : ExceptT ε Program α} (h : Asks (fun c => ¬c.Upserting) p) :
    GivesUp g p := Program.Asks.givesUp h

theorem not_upserting_of_verb {c : Call} {v : Verb} (h : c.verb = v)
    (hv : v ≠ .create ∧ v ≠ .patch) : ¬c.Upserting := by
  rintro (hc | hc)
  · exact hv.1 (h.symm.trans hc)
  · exact hv.2 (h.symm.trans hc)

theorem givesUp_fetch {K : ObjectKey → Prop} {p : ExceptT ε Program α} (h : Fetches K p) :
    GivesUp g p :=
  givesUp_of_asks (h.asks.mono fun _ hc => not_upserting_of_verb hc (by decide))

/-! ## a pass -/

section
variable {kind : DerivedKind} {ns name : String} {o : Object} {c : Connector}
  {settings : PassSettings} {now : String}

theorem givesUp_patchOver : GivesUp id (patchOver kind ns name o) := by
  have hget : Fetches (fun _ => True) (get kind ns name) :=
    fetches_get (k := ⟨kind, ns, name⟩) trivial
  have hpatch : GivesUp id (patch kind ns name o.toJson) :=
    ⟨fun _ e _ _ => ⟨e, rfl, rfl⟩, fun _ => trivial⟩
  refine givesUp_bind (givesUp_fetch hget) fun found => ?_
  cases found with
  | none => exact givesUp_of_asks asks_throw
  | some _ => exact givesUp_bind hpatch fun _ => givesUp_of_asks asks_pure

/-- a failure of the server is not taken for an object that is there -/
theorem givesUp_upsert : GivesUp id (upsert kind ns o) := by
  unfold upsert
  cases o.metadata.name with
  | none => exact givesUp_of_asks asks_throw
  | some name =>
    refine ⟨fun _ e he s => ?_, fun r => ?_⟩
    · cases e with
      | api e => exact ⟨.api e, rfl, rfl⟩
      | _ => exact he.elim
    · cases r with
      | ok _ => trivial
      | error e =>
        cases e with
        | alreadyExists kind' name' => exact givesUp_patchOver
        | _ => trivial

theorem givesUp_upsertAll (xs : List Draft) : GivesUp id (upsertAll c ns xs) := by
  induction xs with
  | nil => exact givesUp_of_asks asks_pure
  | cons x xs ih => exact givesUp_bind givesUp_upsert fun _ => ih

theorem givesUp_converge : GivesUp Prod.snd (converge settings now c ns) := by
  have hpure : ∀ {α : Type} (r : Except Failure α), GivesUp id (ofExcept r) := fun _ =>
    givesUp_of_asks asks_ofExcept
  have hdeployment : GivesUp id (upsertDeployment c ns) := by
    rw [upsertDeployment_eq]
    exact givesUp_bind (givesUp_fetch fetches_requireMounts) fun _ => givesUp_upsert
  have hprune : ∀ desired, GivesUp id (prune c ns desired) := fun desired => by
    refine givesUp_of_asks ((asks_prune desired).mono fun call hcall => ?_)
    rcases hcall.verb with hverb | hverb
    · exact not_upserting_of_verb hverb (by decide)
    · exact not_upserting_of_verb hverb (by decide)
  refine givesUp_bind (givesUp_adapt (hpure _) fun _ => rfl) fun _ => ?_
  refine givesUp_bind (givesUp_adapt (hpure _) fun _ => rfl) fun scaling => ?_
  refine givesUp_bind (givesUp_adapt hdeployment fun _ => rfl) fun _ => ?_
  rw [scale_eq]
  refine givesUp_bind (givesUp_bind (givesUp_fetch fetches_plan) fun p => ?_) fun outcome => ?_
  · exact givesUp_bind (givesUp_adapt (givesUp_upsertAll p.drafts) fun _ => rfl) fun _ =>
      givesUp_of_asks asks_pure
  · split
    · exact givesUp_bind (givesUp_adapt (hprune _) fun _ => rfl) fun _ =>
        givesUp_of_asks asks_pure
    · exact givesUp_of_asks asks_pure

theorem onlyRecords_tryRecord (cond : Condition) :
    (tryRecord c ns cond).OnlyRecords fun _ => True := fun _ =>
  ((asks_tryRecord cond).mono fun _ h => h.verb).ensures

theorem givesUp_visit : GivesUp id (visit settings now ns c) := by
  have hrecord : ∀ cond, GivesUp (α := Unit) id (always (tryRecord c ns cond)) := fun cond =>
    givesUp_of_asks (asks_always ((asks_tryRecord cond).mono fun _ h =>
      not_upserting_of_verb h.verb (by decide)))
  cases hd : c.metadata.deletionTimestamp with
  | some time =>
    unfold visit
    rw [hd]
    exact givesUp_bind (hrecord _) fun _ => givesUp_of_asks asks_pure
  | none =>
    rw [visit_eq hd]
    -- the pass over the Connector gives up, and what follows records the failure and fails with it
    refine Program.givesUp_bind (T := fun e r => ∃ e', r = .ok (.error e') ∧ e'.2 = e) ?_
      (fun r => ?_) fun e r hr s => ?_
    · refine Program.givesUp_bind givesUp_converge (fun _ => trivial) fun e r hr s => ?_
      obtain ⟨e', rfl, he⟩ := hr
      exact ⟨e', rfl, he⟩
    · cases r with
      | error e => trivial
      | ok r => exact givesUp_bind (hrecord _) fun _ => givesUp_of_asks asks_ofExcept
    · obtain ⟨e', rfl, he⟩ := hr
      show Program.Ensures .any _ (conclude now ns c (.error e')).run s _
      unfold conclude
      refine ensures_run.2 (ensures_bind.2 (ensures_always.2 ?_))
      exact (onlyRecords_tryRecord _ s).mono fun _ _ _ => ⟨e'.2, rfl, he⟩

/-- a reconciliation gives up at the first create or patch that fails -/
theorem givesUp_reconcile : GivesUp id (reconcile settings now ns name) := by
  have hread : Fetches (fun k => k = ⟨.connector, ns, name⟩)
      (getAs .connector ns name Connector.decode) := fetches_getAs rfl
  rw [reconcile_eq]
  refine givesUp_bind (givesUp_fetch hread) fun found => ?_
  cases found with
  | none => exact givesUp_of_asks asks_pure
  | some c => exact givesUp_visit

end

/-! ## two runs -/

/-- A fault cuts a pass short.  Under faults that make creates or patches fail for a reason of the
server, a pass over whatever Connector, in whatever store, writes besides conditions what it writes
without faults, up to some point.  It stops before the end only at a call that a fault takes, up to
which both make the same calls; then it does nothing more but record the failure, which is what it
comes to and for which it can be run again.  And while no fault takes a call, both are the same. -/
theorem cut_of_reconcile (s : Cluster) {faults : List Fault} (hfaults : ∀ f ∈ faults, f.Cuts)
    (settings : PassSettings) (now ns name : String) :
    (reconciled settings now ns name ⟨s, faults, []⟩).state.objectWrites <+:
        (reconciled settings now ns name ⟨s, [], []⟩).state.objectWrites ∧
      ((reconciled settings now ns name ⟨s, faults, []⟩).state.objectWrites ≠
          (reconciled settings now ns name ⟨s, [], []⟩).state.objectWrites →
        ∃ before m after e, Program.CutShort (fun e r => r = .error e)
            (reconcile settings now ns name).run ⟨s, faults, []⟩ before m after e ∧
          m.2.objectWrites = (reconciled settings now ns name ⟨s, faults, []⟩).state.objectWrites ∧
            e.isRetryable = true) ∧
      ((∀ m ∈ (reconcile settings now ns name).run.calls World.answer ⟨s, faults, []⟩,
          World.failure? m.1 m.2 = none) →
        (reconciled settings now ns name ⟨s, faults, []⟩).result =
            (reconciled settings now ns name ⟨s, [], []⟩).result ∧
          (reconciled settings now ns name ⟨s, faults, []⟩).state.writes =
            (reconciled settings now ns name ⟨s, [], []⟩).state.writes) := by
  have hgives : (reconcile settings now ns name).run.GivesUp fun e r => r = .error e := by
    refine Program.GivesUp.mono givesUp_reconcile fun e r hr => ?_
    obtain ⟨e', rfl, rfl⟩ := hr
    rfl
  rcases hgives.run (w := ⟨s, faults, []⟩) hfaults with
    ⟨hresult, hstate⟩ | ⟨before, m, after, e, hcut⟩
  · have hwrites : (reconciled settings now ns name ⟨s, faults, []⟩).state.writes =
        (reconciled settings now ns name ⟨s, [], []⟩).state.writes :=
      (congrArg World.writes hstate).symm
    have hobjects : (reconciled settings now ns name ⟨s, faults, []⟩).state.objectWrites =
        (reconciled settings now ns name ⟨s, [], []⟩).state.objectWrites :=
      congrArg (List.filter _) hwrites
    exact ⟨⟨[], (List.append_nil _).trans hobjects⟩, fun hne => absurd hobjects hne,
      fun _ => ⟨hresult.symm, hwrites⟩⟩
  · refine ⟨hcut.isPrefix, fun _ => ?_, fun hnone => ?_⟩
    · exact ⟨before, m, after, e, hcut, hcut.objectWrites_eq.symm, hcut.outage.isRetryable⟩
    · have hm : m ∈ (reconcile settings now ns name).run.calls World.answer ⟨s, faults, []⟩ := by
        rw [hcut.calls]
        exact List.mem_append_right _ List.mem_cons_self
      exact absurd (hcut.taken.symm.trans (hnone m hm)) nofun

def outage (verb : Verb) (kind : DerivedKind) : Fault :=
  ⟨verb, kind, none, some (.api ⟨"Failure", "injected", "InternalError", 500⟩), none, 0⟩

def queueing : PassSettings := ⟨ScalerConfig.empty |>.register "queue" [], true⟩

/-- the Deployment is created, and the ScaledObject is not -/
theorem cut_of_reconcile_portal :
    (reconciled queueing "t" "apps" "portal" ⟨portalWorld.cluster,
        [outage .patch .deployment, outage .create .scaledObject], []⟩).state.objectWrites.map
          Write.key = [⟨DerivedKind.deployment, "apps", "portal"⟩] ∧
      ∃ before m after e, Program.CutShort (fun e r => r = .error e)
          (reconcile queueing "t" "apps" "portal").run ⟨portalWorld.cluster,
            [outage .patch .deployment, outage .create .scaledObject], []⟩ before m after e ∧
        m.2.objectWrites = (reconciled queueing "t" "apps" "portal" ⟨portalWorld.cluster,
          [outage .patch .deployment, outage .create .scaledObject], []⟩).state.objectWrites ∧
          e.isRetryable = true := by
  have hcuts : ∀ f ∈ [outage .patch .deployment, outage .create .scaledObject], f.Cuts := by
    have houtage : ∀ verb kind, verb = .create ∨ verb = .patch → (outage verb kind).Cuts :=
      fun _ _ hverb => ⟨hverb, _, rfl, Nat.le_refl 500⟩
    simp only [List.forall_mem_cons]
    exact ⟨houtage _ _ (.inr rfl), houtage _ _ (.inl rfl), List.forall_mem_nil _⟩
  refine ⟨by decide +kernel, ?_⟩
  exact (cut_of_reconcile portalWorld.cluster hcuts queueing "t" "apps" "portal").2.1
    (by decide +kernel)

end Pass
end ConnectorControl
