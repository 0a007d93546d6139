import Mathlib.Data.List.Induction
import ConnectorControl.Proofs.Controller.Secrecy
import ConnectorControl.Proofs.Controller.Work
import ConnectorControl.Proofs.Pass.Rejections

/-!
# What the metrics of an operator account for

The metrics of an operator account for its work (`Metrics.Accounts`) when they have counted every
pass that converged, with a duration, every pass that failed, and every pass that failed for a
Secret that lacks keys, each under its label and once.

A pass that ends keeps the accounts (`Operator.accounts_conclude`): what it has rejected on the way
is what it fails for.  So they are right after any work (`accounts_for_work`), as long as no store
makes up a Secret that lacks keys.
-/

namespace ConnectorControl

namespace Operator.Report

def failed (ns name : String) : Report → Bool
  | .passed c (.error _) => c.metadata.ns.isSome && c.isAt ns name
  | _ => false

def rejected (type : String) : Report → Bool
  | .passed _ (.error e) => e.rejected? = some type
  | _ => false

end Operator.Report

open Operator (Report Task)

/-! ## accounts -/

namespace Metrics

section
variable {κ : Type} [Ord κ] [Std.TransOrd κ] [Std.LawfulEqOrd κ] [DecidableEq κ]

def tally (t : Table κ Nat) (k : κ) : Nat := (t.find? k).getD 0

theorem tally_increment (t : Table κ Nat) (j k : κ) :
    tally (increment t j) k = tally t k + if k = j then 1 else 0 := by
  unfold tally increment
  rw [Table.find?_insert]
  split
  next h => rw [h]; rfl
  · rfl

end

def observations (m : Metrics) (l : ConnectorLabels) : Nat :=
  ((m.durations.find? l).getD .empty).count

theorem observations_recordReconcile (m : Metrics) (ns name : String) (seconds : Float)
    (l : ConnectorLabels) : (m.recordReconcile ns name seconds).observations l =
      m.observations l + if l = ⟨ns, name⟩ then 1 else 0 := by
  unfold observations recordReconcile
  dsimp only
  rw [Table.find?_insert]
  split
  next h => rw [h]; rfl
  · rfl

/-- a Secret that lacks keys is counted under its trigger type, and nothing else is -/
theorem noteRejected (m : Metrics) (type? : Option String) :
    let m' := type?.toList.foldl recordSecretFailure m
    m'.reconciliations = m.reconciliations ∧ m'.durations = m.durations ∧ m'.errors = m.errors ∧
      ∀ t, tally m'.secretFailures t =
        tally m.secretFailures t + if type? = some t then 1 else 0 := by
  cases type? with
  | none => exact ⟨rfl, rfl, rfl, fun _ => rfl⟩
  | some type =>
    refine ⟨rfl, rfl, rfl, fun t => ?_⟩
    refine (tally_increment m.secretFailures type t).trans (congrArg _ (if_congr ?_ rfl rfl))
    rw [Option.some_inj, eq_comm]

/-- the metrics have counted what was reported, each under its label -/
structure Accounts (m : Metrics) (reports : List Report) : Prop where
  reconciliations : ∀ ns name,
    tally m.reconciliations ⟨ns, name⟩ = reports.countP (Report.converged ns name)
  observations : ∀ ns name, m.observations ⟨ns, name⟩ = reports.countP (Report.converged ns name)
  errors : ∀ ns name, tally m.errors ⟨ns, name⟩ = reports.countP (Report.failed ns name)
  secretFailures : ∀ type, tally m.secretFailures type = reports.countP (Report.rejected type)

end Metrics

theorem Connector.isAt_iff_labels {c : Connector} {n ns name : String}
    (hc : c.metadata.ns = some n) :
    c.isAt ns name = true ↔ (⟨ns, name⟩ : ConnectorLabels) = ⟨n, c.name⟩ := by
  rw [isAt_iff, hc, ConnectorLabels.mk.injEq, eq_comm (a := ns), eq_comm (a := name)]
  rfl

namespace Metrics.Accounts

open Operator (countP_concat)

variable {m : Metrics} {reports : List Report} {c : Connector} {n : String}

theorem empty : Metrics.empty.Accounts [] :=
  ⟨fun _ _ => rfl, fun _ _ => rfl, fun _ _ => rfl, fun _ => rfl⟩

theorem unaffected (h : m.Accounts reports) {r : Report}
    (hconverged : ∀ ns name, r.converged ns name = false)
    (hfailed : ∀ ns name, r.failed ns name = false) (hrejected : ∀ t, r.rejected t = false) :
    m.Accounts (reports ++ [r]) := by
  refine ⟨fun ns name => ?_, fun ns name => ?_, fun ns name => ?_, fun t => ?_⟩
  · rw [h.reconciliations, countP_concat, hconverged]; rfl
  · rw [h.observations, countP_concat, hconverged]; rfl
  · rw [h.errors, countP_concat, hfailed]; rfl
  · rw [h.secretFailures, countP_concat, hrejected]; rfl

theorem converged (h : m.Accounts reports) (hc : c.metadata.ns = some n) (seconds : Float)
    (unix : Int) (a : Action) :
    ((m.recordReconcile n c.name seconds).touch unix).Accounts
      (reports ++ [Report.passed c (.ok a)]) := by
  have hconverged : ∀ ns name,
      (reports ++ [Report.passed c (.ok a)]).countP (Report.converged ns name) =
        reports.countP (Report.converged ns name) +
          if (⟨ns, name⟩ : ConnectorLabels) = ⟨n, c.name⟩ then 1 else 0 := fun ns name => by
    rw [countP_concat]
    exact congrArg _ (if_congr (Connector.isAt_iff_labels hc) rfl rfl)
  refine ⟨fun ns name => ?_, fun ns name => ?_, fun ns name => ?_, fun t => ?_⟩
  · rw [hconverged, ← h.reconciliations]
    exact tally_increment m.reconciliations _ _
  · rw [hconverged, ← h.observations]
    exact observations_recordReconcile m n c.name seconds _
  · rw [countP_concat]
    exact h.errors ns name
  · rw [countP_concat]
    exact h.secretFailures t

theorem failed (h : m.Accounts reports) (hc : c.metadata.ns = some n) (e : Failure) :
    ((e.rejected?.toList.foldl recordSecretFailure m).recordError n c.name).Accounts
      (reports ++ [Report.passed c (.error e)]) := by
  have hfailed : ∀ ns name,
      (reports ++ [Report.passed c (.error e)]).countP (Report.failed ns name) =
        reports.countP (Report.failed ns name) +
          if (⟨ns, name⟩ : ConnectorLabels) = ⟨n, c.name⟩ then 1 else 0 := fun ns name => by
    rw [countP_concat]
    refine congrArg _ (if_congr ?_ rfl rfl)
    show (c.metadata.ns.isSome && c.isAt ns name) = true ↔ _
    rw [hc]
    exact Connector.isAt_iff_labels hc
  have hrejected : ∀ t, (reports ++ [Report.passed c (.error e)]).countP (Report.rejected t) =
      reports.countP (Report.rejected t) + if e.rejected? = some t then 1 else 0 := fun t => by
    rw [countP_concat]
    exact congrArg _ (if_congr decide_eq_true_iff rfl rfl)
  obtain ⟨hreconciliations, hdurations, herrors, hsecrets⟩ := noteRejected m e.rejected?
  refine ⟨fun ns name => ?_, fun ns name => ?_, fun ns name => ?_, fun t => ?_⟩
  · rw [countP_concat, ← h.reconciliations, ← hreconciliations]
    rfl
  · rw [countP_concat, ← h.observations]
    unfold Metrics.observations
    rw [← hdurations]
    rfl
  · rw [hfailed, ← h.errors, ← herrors]
    exact tally_increment _ _ _
  · rw [hrejected, ← h.secretFailures]
    exact hsecrets t

end Metrics.Accounts

/-! ## work -/

namespace Operator

variable {σ : Type} {I : σ → Prop} {op : Operator} {reports : List Report}

/-- others leave a store as `I` says, and it is plain while it is so -/
def Task.Plain (I : σ → Prop) : Task σ → Prop
  | .pass h others _ _ _ => h.Plain I ∧ ∀ s, I s → I (others s)
  | .delay _ _ _ => True

theorem rejected_passOver (op : Operator) {h : Program.Handler σ} (hh : h.Plain I) (now : Moment)
    {c : Connector} {n : String} (hc : c.metadata.ns = some n) {s : σ} (hs : I s) :
    ((op.passOver now c).run.run h s).rejected =
        Pass.admitted id ((op.passOver now c).run.run h s).result ∧
      I ((op.passOver now c).run.run h s).state := by
  unfold passOver
  rw [hc]
  exact Program.Rejects.run Pass.admits_reconcile hh hs

theorem accounts_conclude (hm : op.measured = true) {s : OperatorState σ}
    (h : s.metrics.Accounts reports) {c : Connector} {n : String} (hc : c.metadata.ns = some n)
    (now : Moment) (seconds : Float) {events : List Event} {result : Except Failure Action}
    (hrejected : events.filterMap Event.rejected? = Pass.admitted id result) :
    (op.conclude now seconds c events result s).metrics.Accounts
      (reports ++ [.passed c result]) := by
  unfold conclude
  rw [hc]
  dsimp only
  unfold noteEvents
  rw [if_pos hm, foldl_noteEvent, hrejected]
  unfold noteResult
  cases result with
  | ok a =>
    dsimp only
    rw [if_pos hm]
    exact h.converged hc seconds now.unix a
  | error e =>
    dsimp only
    rw [if_pos hm]
    exact h.failed hc e

theorem accounts_perform (hm : op.measured = true) {s : OperatorState σ} (hs : I s.store)
    (h : s.metrics.Accounts reports) {t : Task σ} (ht : t.Plain I) :
    (op.perform s t).2.metrics.Accounts (reports ++ [(op.perform s t).1]) ∧
      I (op.perform s t).2.store := by
  cases t with
  | delay draw c e => exact ⟨h.unaffected (fun _ _ => rfl) (fun _ _ => rfl) fun _ => rfl, hs⟩
  | pass handler others now seconds c =>
    obtain ⟨hplain, hothers⟩ := ht
    show (op.conclude now seconds c _ _ _).metrics.Accounts
      (reports ++ [.passed c ((op.passOver now c).run.run handler _).result]) ∧
        I (op.conclude now seconds c _ _ _).store
    rw [store_conclude]
    cases hc : c.metadata.ns with
    | none =>
      rw [result_passOver_of_none op handler now hc]
      unfold conclude passOver
      rw [hc]
      refine ⟨h.unaffected (fun _ _ => rfl) (fun ns name => ?_) fun _ => rfl, hothers _ hs⟩
      show (c.metadata.ns.isSome && c.isAt ns name) = false
      rw [hc]
      rfl
    | some n =>
      obtain ⟨hrejected, hs'⟩ := rejected_passOver op hplain now hc (hothers _ hs)
      have hmetrics : ∀ store : σ,
          (OperatorState.mk store s.failures s.metrics).metrics.Accounts reports := fun _ => h
      exact ⟨accounts_conclude hm (hmetrics _) hc now seconds hrejected, hs'⟩

/-- The metrics account for all work.  Whatever passes are made, and in whatever order, over
Connectors of whatever names and on whatever plain stores, every pass that converged is counted with
its duration, and every one that failed, under the namespace and the name of the Connector; and
every pass that failed for a Secret that lacks keys is counted once under the trigger type. -/
theorem accounts_for_work (hm : op.measured = true) {store : σ} (hI : I store)
    {tasks : List (Task σ)} (htasks : ∀ t ∈ tasks, t.Plain I) :
    (op.work tasks (.initial store)).2.metrics.Accounts (op.work tasks (.initial store)).1 := by
  have hwork : (op.work tasks (.initial store)).2.metrics.Accounts
        (op.work tasks (.initial store)).1 ∧ I (op.work tasks (.initial store)).2.store := by
    induction tasks using List.reverseRecOn with
    | nil => exact ⟨.empty, hI⟩
    | append_singleton tasks t ih =>
      obtain ⟨hbefore, hstore⟩ := ih fun t' ht' => htasks t' (List.mem_append_left _ ht')
      rw [work_concat]
      exact accounts_perform hm hstore hbefore
        (htasks t (List.mem_append_right _ List.mem_cons_self))
  exact hwork.1

def withoutPassword (w : World) : World :=
  let secret : Json := .object [("stringData", .object [("user", .str "u")])]
  { w with cluster := w.cluster.set ⟨.secret, "apps", "db"⟩ secret }

/-- a pass that converges, and one that fails after the Secret has lost a key -/
def lackingTasks : List (Task World) :=
  [.pass World.answer id ⟨"t0", 0⟩ 0.25 heldConnector,
    .pass World.answer withoutPassword ⟨"t1", 1⟩ 0.25 heldConnector]

theorem accounts_for_work_lacking :
    let store := heldWorld "dQ==" "p" "fast"
    let done := heldOperator.work lackingTasks (.initial store)
    heldOperator.measured = true ∧ store.FailsAs (fun e => e.rejected? = none) ∧
      (∀ t ∈ lackingTasks, t.Plain (World.FailsAs fun e => e.rejected? = none)) ∧
      Metrics.tally done.2.metrics.reconciliations ⟨"apps", "mq"⟩ = 1 ∧
      done.2.metrics.observations ⟨"apps", "mq"⟩ = 1 ∧
      Metrics.tally done.2.metrics.errors ⟨"apps", "mq"⟩ = 1 ∧
      Metrics.tally done.2.metrics.secretFailures "mysql" = 1 := by
  have hmeasured : heldOperator.measured = true := rfl
  have hstore : (heldWorld "dQ==" "p" "fast").FailsAs fun e => e.rejected? = none :=
    fun f hf => absurd hf List.not_mem_nil
  have htasks : ∀ t ∈ lackingTasks, t.Plain (World.FailsAs fun e => e.rejected? = none) := by
    unfold lackingTasks
    simp only [List.forall_mem_cons]
    exact ⟨⟨World.plain_answer, fun _ h => h⟩, ⟨World.plain_answer, fun _ h => h⟩,
      List.forall_mem_nil _⟩
  have haccounts := accounts_for_work hmeasured hstore htasks
  refine ⟨hmeasured, hstore, htasks, ?_, ?_, ?_, ?_⟩
  · exact (haccounts.reconciliations "apps" "mq").trans (by decide +kernel)
  · exact (haccounts.observations "apps" "mq").trans (by decide +kernel)
  · exact (haccounts.errors "apps" "mq").trans (by decide +kernel)
  · exact (haccounts.secretFailures "mysql").trans (by decide +kernel)

end Operator
end ConnectorControl
