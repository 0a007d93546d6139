import ConnectorControl.Proofs.Pass.Plan

/-!
# From a pass over a Connector to a reconciliation

A reconciliation reads the Connector, runs a pass over it, and records how that went.  Recording is
the patch of a status or nothing (`ensures_record`), so what it may change is the Connector's status
(`Recorded`).
-/

namespace ConnectorControl
namespace Pass

variable {d : Disturbance} {P : Call → Cluster → Prop} {s s' : Cluster} {ns name : String}
  {settings : PassSettings} {now : String} {c : Connector}

/-- the status of a Connector was patched, or nothing was done -/
inductive Recorded (ns name : String) (s : Cluster) : Cluster → Prop
  | skipped : Recorded ns name s s
  | patched (v status : Json) (h : s.find? ⟨.connector, ns, name⟩ = some v) :
    Recorded ns name s (s.set ⟨.connector, ns, name⟩ (v.merge (.object [("status", status)])))

theorem Recorded.find?_of_ne (h : Recorded ns name s s') {k : ObjectKey}
    (hk : k ≠ ⟨.connector, ns, name⟩) : s'.find? k = s.find? k := by
  cases h with
  | skipped => rfl
  | patched v status h => rw [Cluster.find?_set, if_neg hk]

theorem Recorded.of_replies {d : Disturbance} {body : Json} {r : Except Failure Unit}
    (h : Cluster.Replies d (.patchStatus .connector ns name body) s r s') :
    Recorded ns name s s' := by
  rcases h.of_patchStatus with ⟨_, _, rfl, _⟩ | ⟨_, _, rfl⟩ | ⟨v, hv, _, rfl⟩
  · exact .skipped
  · exact .skipped
  · exact .patched v _ hv

/-- recording patches the status that follows, and does nothing if there is none -/
theorem ensures_record {cond : Condition} {Q : Bool → Cluster → Prop}
    {E : Failure → Cluster → Prop} (hnone : c.statusAfter cond = none → Q false s)
    (hsome : ∀ status, c.statusAfter cond = some status → Ensures d P
      (patchStatus .connector ns c.name (statusPatch status)) s (fun _ => Q true) E) :
    Ensures d P (record c ns cond) s Q E := by
  unfold record
  cases hafter : c.statusAfter cond with
  | none => exact hnone hafter
  | some status =>
    show Ensures d P (patchStatus .connector ns c.name (statusPatch status) >>= fun _ => pure true)
      s Q E
    rw [ensures_bind]
    exact hsome status hafter

theorem ensures_tryRecord_iff {cond : Condition} {Q : Unit → Cluster → Prop} :
    Program.Ensures d P (tryRecord c ns cond) s Q ↔
      Ensures d P (record c ns cond) s (fun _ => Q ()) fun _ => Q () := by
  unfold tryRecord
  show Program.Ensures d P (Program.bind _ _) s _ ↔ _
  rw [Program.ensures_bind]
  exact ensures_run

theorem ensures_tryRecord {cond : Condition}
    (hP : ∀ body, P (.patchStatus .connector ns c.name body) s) :
    Program.Ensures d P (tryRecord c ns cond) s fun _ s' => Recorded ns c.name s s' := by
  refine ensures_tryRecord_iff.2 (ensures_record (fun _ => .skipped) fun status _ => ?_)
  refine ensures_call.2 ⟨hP _, fun r s' hr => ?_⟩
  cases r with
  | error e => exact .of_replies hr
  | ok _ => exact .of_replies hr

/-- a visit leaves a Connector that is being deleted alone, and records how a pass went -/
theorem ensures_visit {Q : Action → Cluster → Prop} {E : Failure → Cluster → Prop}
    (hterminating : c.metadata.deletionTimestamp.isSome → Program.Ensures d P
      (tryRecord c ns (.terminating now)) s fun _ => Q .awaitChange)
    (hpass : c.metadata.deletionTimestamp = none → Ensures d P (converge settings now c ns) s
      (fun cond s => Program.Ensures d P (tryRecord c ns cond) s
        fun _ => Q (.requeue resyncInterval))
      (fun e s => Program.Ensures d P (tryRecord c ns (.ofFailure now e.1 e.2)) s fun _ => E e.2)) :
    Ensures d P (visit settings now ns c) s Q E := by
  unfold visit
  cases hd : c.metadata.deletionTimestamp with
  | some t =>
    show Ensures d P
      (always (tryRecord c ns (.terminating now)) >>= fun _ => pure .awaitChange) s Q E
    rw [ensures_bind, ensures_always]
    exact hterminating (by rw [hd]; rfl)
  | none =>
    show Ensures d P (always (converge settings now c ns).run >>= _) s Q E
    rw [ensures_bind, ensures_always, ensures_run]
    refine (hpass hd).mono (fun cond s' h => ?_) fun e s' h => ?_
    · show Ensures d P
        (always (tryRecord c ns cond) >>= fun _ => pure (.requeue resyncInterval)) s' Q E
      rw [ensures_bind, ensures_always]
      exact h
    · show Ensures d P
        (always (tryRecord c ns (.ofFailure now e.1 e.2)) >>= fun _ => throw e.2) s' Q E
      rw [ensures_bind, ensures_always]
      exact h

/-- a reconciliation fetches the Connector and visits it, if it is there and can be read -/
theorem ensures_reconcile {Q : Action → Cluster → Prop} {E : Failure → Cluster → Prop}
    (hP : P (.get .connector ns name) s)
    (hvisit : ∀ c, s.Holds .connector ns name Connector.decode c →
      Ensures d P (visit settings now ns c) s Q E)
    (hnone : Q .awaitChange s) (hE : ∀ e, E e s) :
    Ensures d P (reconcile settings now ns name) s Q E := by
  unfold reconcile
  rw [ensures_bind]
  exact ensures_getAs hP hvisit hnone hE

/-- a reconciliation that reads a Connector ends as the visit of it does -/
theorem run_reconcile_of_read (settings : PassSettings) (now : String) {w : World}
    (hc : ((getAs .connector ns name Connector.decode).run.run World.answer w).result =
      .ok (some c)) :
    ∃ w', ((reconcile settings now ns name).run.run World.answer w).result =
        ((visit settings now ns c).run.run World.answer w').result ∧
      ((reconcile settings now ns name).run.run World.answer w).state =
        ((visit settings now ns c).run.run World.answer w').state := by
  unfold reconcile
  exact ⟨_, run_bind_of_ok hc⟩

end Pass
end ConnectorControl
