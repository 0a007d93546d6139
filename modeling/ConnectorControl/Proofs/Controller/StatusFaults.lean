import ConnectorControl.Proofs.Controller.Secrecy
import ConnectorControl.Proofs.Pass.StatusFaults

/-!
# An operator whose status writes fail

Whether conditions can be recorded shows in the status of the Connector and nowhere else: the pass
comes to the same, writes the same objects, and is counted the same (`same_when_statuses_fail`).
-/

namespace ConnectorControl

/-- a fault that makes every status write of a Connector fail -/
def Fault.ofStatuses (e : Failure) : Fault := ⟨.patchStatus, .connector, none, some e, none, 0⟩

theorem World.statusFree_insert (s : Cluster) (before after : List Fault) (e : Failure) :
    (World.mk s (before ++ .ofStatuses e :: after) []).statusFree =
      (World.mk s (before ++ after) []).statusFree := by
  unfold statusFree
  have hstatus : (Fault.ofStatuses e).onStatus = true := rfl
  rw [List.filter_append, List.filter_append, List.filter_cons_of_neg (by simp [hstatus])]

namespace Operator

variable {op : Operator} {now : Moment} {seconds : Float} {c : Connector} {v w : World}

/-- Two passes over a Connector that started in one store and differ in its status at most: they end
alike, write the same besides conditions, are counted alike, and leave the same store but for the
status of one Connector, which is the one of the pass if the store is in order. -/
structure SameButStatus (s : Cluster) (c : Connector)
    (r r' : Program.Run (OperatorState World) (Except Failure Action)) : Prop where
  result : r.result = r'.result
  objectWrites : r.state.store.objectWrites = r'.state.store.objectWrites
  failures : r.state.failures = r'.state.failures
  metrics : r.state.metrics = r'.state.metrics
  store : ∃ name, (s.Kept → name = c.name) ∧ r.state.store.cluster.SameButStatus
    ⟨.connector, c.metadata.ns.getD "", name⟩ r'.state.store.cluster

theorem run_passOver_statusFree (op : Operator) (now : Moment) (c : Connector)
    (hw : v.statusFree = w.statusFree) :
    ((op.passOver now c).run.run World.answer v).result =
        ((op.passOver now c).run.run World.answer w).result ∧
      ((op.passOver now c).run.run World.answer v).rejected =
        ((op.passOver now c).run.run World.answer w).rejected ∧
      ((op.passOver now c).run.run World.answer v).state.objectWrites =
        ((op.passOver now c).run.run World.answer w).state.objectWrites ∧
      ∃ name, (w.cluster.Kept → name = c.name) ∧
        ((op.passOver now c).run.run World.answer v).state.cluster.SameButStatus
          ⟨.connector, c.metadata.ns.getD "", name⟩
          ((op.passOver now c).run.run World.answer w).state.cluster := by
  unfold passOver
  cases c.metadata.ns with
  | none =>
    have hlast : Program.RecordsLast "" c.name
        (Pass.ofExcept (α := Action) (.error (.missingKey ".metadata.namespace"))).run := trivial
    obtain ⟨hresult, hrejected, hwrites, hclusters⟩ := hlast.run_statusFree hw
    exact ⟨hresult, hrejected, hwrites, c.name, fun _ => rfl, hclusters⟩
  | some ns => exact Pass.reconciled_statusFree op.settings now.text ns c.name hw

/-- Passes under some faults, and under the same faults with one more on every status write of
Connectors, are the same but for the status: whatever the store, the Connector and the faults are,
wherever the fault comes among them, and whatever it fails with. -/
theorem same_when_statuses_fail (op : Operator) (now : Moment) (seconds : Float) (c : Connector)
    (s : Cluster) (before after : List Fault) (e : Failure) (failures : FailureCounts)
    (metrics : Metrics) :
    SameButStatus s c
      (op.reconcile World.answer now seconds c ⟨⟨s, before ++ after, []⟩, failures, metrics⟩)
      (op.reconcile World.answer now seconds c
        ⟨⟨s, before ++ .ofStatuses e :: after, []⟩, failures, metrics⟩) := by
  obtain ⟨hresult, hrejected, hwrites, hstore⟩ := run_passOver_statusFree op now c
    (v := ⟨s, before ++ after, []⟩) (w := ⟨s, before ++ .ofStatuses e :: after, []⟩)
    (World.statusFree_insert s before after e).symm
  obtain ⟨hfailures, _, hmetrics⟩ := conclude_congr op c hrejected
    ((op.passOver now c).run.run World.answer ⟨s, before ++ .ofStatuses e :: after, []⟩).result
    ((op.passOver now c).run.run World.answer ⟨s, before ++ after, []⟩).state
    ((op.passOver now c).run.run World.answer ⟨s, before ++ .ofStatuses e :: after, []⟩).state
    failures metrics now now seconds seconds
  unfold reconcile
  dsimp only
  rw [hresult]
  refine ⟨rfl, ?_, hfailures, hmetrics, ?_⟩
  · rw [store_conclude, store_conclude]
    exact hwrites
  · rw [store_conclude, store_conclude]
    exact hstore

/-- the condition is recorded in one of the two passes only -/
example :
    let run := fun faults => (heldOperator.reconcile World.answer ⟨"t0", 0⟩ 0.25 heldConnector
      (.initial ⟨(heldWorld "dQ==" "p" "fast").cluster, faults, []⟩)).state.store.writes
    ((run []).map (·.verb), (run [.ofStatuses (.undecodable (.missing "status"))]).map (·.verb)) =
      ([.create, .create, .create, .patchStatus], [.create, .create, .create]) := by
  decide +kernel

end Operator
end ConnectorControl
