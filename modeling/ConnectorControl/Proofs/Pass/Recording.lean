import ConnectorControl.Proofs.Pass.Framing
import ConnectorControl.Proofs.Pass.Tending

/-!
# What recording a condition does

Recording patches the status that follows, or it does nothing: when there is nothing to record, when
the Connector is not there, or when the call is disturbed (`ensures_tryRecord_status`).  In either
case objects stay where they say, so a reconciliation keeps a store filed
(`ensures_reconcile_filed`).
-/

namespace ConnectorControl
namespace Pass

variable {d : Disturbance} {P : Call → Cluster → Prop} {s s' : Cluster} {ns name : String}
  {settings : PassSettings} {now : String} {c : Connector} {v : Json}

theorem ensures_tryRecord_status {cond : Condition}
    (hP : ∀ status, P (.patchStatus .connector ns c.name (statusPatch status)) s) :
    Program.Ensures d P (tryRecord c ns cond) s fun _ s' =>
      (s' = s ∧ ((∀ body, d.Spares (.patchStatus .connector ns c.name body)) →
        (s.find? ⟨.connector, ns, c.name⟩).isSome → c.statusAfter cond = none)) ∨
      ∃ v status, s.find? ⟨.connector, ns, c.name⟩ = some v ∧ c.statusAfter cond = some status ∧
        s' = s.set ⟨.connector, ns, c.name⟩ (Cluster.patchedStatus v status) := by
  refine ensures_tryRecord_iff.2 (ensures_record (fun hnone => .inl ⟨rfl, fun _ _ => hnone⟩)
    fun status hsome => ensures_call.2 ⟨hP _, fun r s' hr => ?_⟩)
  rcases hr.of_patchStatus with ⟨e, rfl, rfl, hf⟩ | ⟨hnone, rfl, rfl⟩ | ⟨v, hv, rfl, rfl⟩
  · exact .inl ⟨rfl, fun hspares _ => absurd hf (hspares _).1⟩
  · refine .inl ⟨rfl, fun _ hthere => ?_⟩
    rw [hnone] at hthere
    cases hthere
  · exact .inr ⟨v, status, hv, hsome, rfl⟩

theorem filed_recorded {i : Identity} (hs : s.Filed) (hv : s.find? i.connectorKey = some v)
    (status : Status) : (s.set i.connectorKey (Cluster.patchedStatus v status)).Filed :=
  ((Tended.refl (i := i) hs).recorded hv status).filed

theorem ensures_tryRecord_filed {cond : Condition} (hs : s.Filed) :
    Program.Ensures d (fun _ _ => True) (tryRecord c ns cond) s fun _ s' => s'.Filed := by
  refine (ensures_tryRecord_status fun _ => trivial).mono fun _ s' h => ?_
  rcases h with ⟨rfl, _⟩ | ⟨v, status, hv, _, rfl⟩
  · exact hs
  · exact filed_recorded (i := ⟨ns, c.name, none⟩) hs hv status

/-- whatever comes between, a reconciliation leaves every object where it says -/
theorem ensures_reconcile_filed (hs : s.Filed) :
    Ensures d (fun _ _ => True) (reconcile settings now ns name) s
      (fun _ s' => s'.Filed) fun _ s' => s'.Filed := by
  refine ensures_reconcile trivial (fun c hc => ?_) hs fun _ => hs
  refine ensures_visit (fun _ => ensures_tryRecord_filed hs) fun _ => ?_
  refine ((ensures_converge_framed (hs.describes hc) hs).mono_calls fun _ _ _ => trivial).mono
    (fun _ s' h => ensures_tryRecord_filed h.filed) fun _ s' h => ensures_tryRecord_filed h.filed

theorem filed_reconciled (settings : PassSettings) (now ns name : String) {w : World}
    (hs : w.cluster.Filed) : (reconciled settings now ns name w).state.cluster.Filed := by
  have hfiled : Ensures .any (fun _ _ => True) (reconcile settings now ns name) w.cluster
      (fun _ s' => s'.Filed) fun _ s' => s'.Filed := ensures_reconcile_filed hs
  have hend := (Program.Ensures.run hfiled w.within_any).2.1
  unfold reconciled
  cases hr : ((reconcile settings now ns name).run.run World.answer w).result with
  | ok a =>
    rw [hr] at hend
    exact hend
  | error e =>
    rw [hr] at hend
    exact hend

end Pass
end ConnectorControl
