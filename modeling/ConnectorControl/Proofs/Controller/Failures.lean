import Mathlib.Data.List.DropRight
import ConnectorControl.Proofs.Controller.Delays
import ConnectorControl.Proofs.Controller.Secrecy
import ConnectorControl.Proofs.Controller.Work

/-!
# The failures that an operator counts

Whatever is asked of an operator, and in whatever order, its count for a Connector is the number of
failures that it was told of since the last pass over that Connector that converged, up to the
largest number there is (`counts_failures`).  This is what the delay after the next failure goes by.

Keys tell Connectors apart as long as one of them has no slash in its namespace and its name
(`FailureCounts.key_inj`).
-/

namespace ConnectorControl

universe u

theorem FailureCounts.key_inj {ns name ns' name' : String} (hns : '/' ∉ ns.toList)
    (hname : '/' ∉ name.toList) (h : key ns name = key ns' name') : ns = ns' ∧ name = name' := by
  have hkey : ∀ a b, (key a b).toList = a.toList ++ '/' :: b.toList := by
    intro a b
    unfold key
    rw [String.toList_append, String.toList_append, List.append_assoc]
    rfl
  have h := congrArg String.toList h
  rw [hkey, hkey] at h
  obtain ⟨hns', _, hname'⟩ := (List.append_cons_inj_of_notMem hns hname).1 h
  exact ⟨String.toList_inj.1 hns', String.toList_inj.1 hname'⟩

namespace Operator

variable {σ : Type u} {ns name : String}

/-- the failures of a Connector since the last pass over it that converged, or since the start -/
def streak (ns name : String) (reports : List Report) : Nat :=
  (reports.rtakeWhile fun r => !r.converged ns name).countP (·.counted ns name)

theorem streak_concat (reports : List Report) (r : Report) :
    streak ns name (reports ++ [r]) =
      if r.converged ns name then 0
      else streak ns name reports + if r.counted ns name then 1 else 0 := by
  unfold streak
  rw [List.rtakeWhile_concat]
  cases r.converged ns name with
  | true => rfl
  | false => exact countP_concat _ _ r

theorem failureKey_of_isAt {c : Connector} (hc : c.isAt ns name = true) :
    failureKey c = FailureCounts.key ns name := by
  obtain ⟨hns, hname⟩ := Connector.isAt_iff.1 hc
  rw [failureKey, hns, hname]

theorem key_ne_of_not_isAt (hns : '/' ∉ ns.toList) (hname : '/' ∉ name.toList) {c : Connector}
    (hc : c.isAt ns name = false) : FailureCounts.key ns name ≠ failureKey c := by
  intro h
  obtain ⟨hns, hname⟩ := FailureCounts.key_inj hns hname h
  exact Bool.eq_false_iff.1 hc (Connector.isAt_iff.2 ⟨hns.symm, hname.symm⟩)

/-- the end of a pass that converged forgets the failures of its Connector -/
theorem failures_conclude_ok (op : Operator) (now : Moment) (seconds : Float) {c : Connector}
    (hns : c.metadata.ns ≠ none) (events : List Event) (a : Action) (s : OperatorState σ) :
    (op.conclude now seconds c events (.ok a) s).failures = s.failures.reset (failureKey c) := by
  unfold conclude failureKey
  cases hc : c.metadata.ns with
  | none => exact absurd hc hns
  | some ns => rfl

theorem failures_conclude_error (op : Operator) (now : Moment) (seconds : Float) (c : Connector)
    (events : List Event) (e : Failure) (s : OperatorState σ) :
    (op.conclude now seconds c events (.error e) s).failures = s.failures := by
  unfold conclude
  cases c.metadata.ns <;> rfl

/-- what a task makes of a count: it starts again, goes on, or stays -/
theorem count_perform (op : Operator) (hns : '/' ∉ ns.toList) (hname : '/' ∉ name.toList)
    (s : OperatorState σ) (t : Task σ) :
    (op.perform s t).2.failures.count (FailureCounts.key ns name) =
      if (op.perform s t).1.converged ns name then 0
      else if (op.perform s t).1.counted ns name then
        min FailureCounts.most (s.failures.count (FailureCounts.key ns name) + 1)
      else s.failures.count (FailureCounts.key ns name) := by
  cases t with
  | delay draw c e =>
    show (s.failures.record (failureKey c)).count _ = if false then 0 else
      if c.isAt ns name then _ else _
    rw [FailureCounts.count_record]
    cases hc : c.isAt ns name with
    | true => rw [if_pos (failureKey_of_isAt hc).symm, failureKey_of_isAt hc]; rfl
    | false => rw [if_neg (key_ne_of_not_isAt hns hname hc)]; rfl
  | pass h others now seconds c =>
    show (op.conclude now seconds c _ ((op.passOver now c).run.run h _).result _).failures.count _ =
      if Report.converged ns name (.passed c ((op.passOver now c).run.run h _).result) then 0
      else s.failures.count _
    cases hresult : ((op.passOver now c).run.run h (others s.store)).result with
    | error e => rw [failures_conclude_error]; rfl
    | ok a =>
      have hns' : c.metadata.ns ≠ none := fun hc => by
        rw [result_passOver_of_none op h now hc] at hresult
        cases hresult
      rw [failures_conclude_ok op now seconds hns', FailureCounts.count_reset]
      show _ = if c.isAt ns name then 0 else s.failures.count _
      cases hc : c.isAt ns name with
      | true => rw [if_pos (failureKey_of_isAt hc).symm]; rfl
      | false => rw [if_neg (key_ne_of_not_isAt hns hname hc)]; rfl

theorem not_isAt_of_report (op : Operator) (s : OperatorState σ) {t : Task σ}
    (ht : t.connector.isAt ns name = false) :
    (op.perform s t).1.converged ns name = false ∧ (op.perform s t).1.counted ns name = false := by
  cases t with
  | delay draw c e => exact ⟨rfl, ht⟩
  | pass h others now seconds c =>
    refine ⟨?_, rfl⟩
    show Report.converged ns name (.passed c ((op.passOver now c).run.run h _).result) = false
    cases ((op.passOver now c).run.run h (others s.store)).result with
    | error e => rfl
    | ok a => exact ht

theorem count_perform_of_ne (op : Operator) (hns : '/' ∉ ns.toList) (hname : '/' ∉ name.toList)
    (s : OperatorState σ) {t : Task σ} (ht : t.connector.isAt ns name = false) :
    (op.perform s t).2.failures.count (FailureCounts.key ns name) =
      s.failures.count (FailureCounts.key ns name) := by
  obtain ⟨hconv, hcount⟩ := not_isAt_of_report op s ht
  rw [count_perform op hns hname s t, hconv, hcount]
  rfl

/-- after any work the count is the streak, up to the largest number there is -/
theorem count_work (op : Operator) (hns : '/' ∉ ns.toList) (hname : '/' ∉ name.toList)
    (store : σ) (tasks : List (Task σ)) :
    (op.work tasks (.initial store)).2.failures.count (FailureCounts.key ns name) =
      min FailureCounts.most (streak ns name (op.work tasks (.initial store)).1) := by
  induction tasks using List.reverseRecOn with
  | nil => rfl
  | append_singleton tasks t ih =>
    rw [work_concat]
    dsimp only
    rw [streak_concat, count_perform op hns hname, ih]
    cases (op.perform (op.work tasks _).2 t).1.converged ns name with
    | true => rfl
    | false =>
      cases (op.perform (op.work tasks _).2 t).1.counted ns name with
      | true =>
        show min _ (min _ _ + 1) = min _ (_ + 1)
        omega
      | false => rfl

/-- An operator goes by the failures of each Connector alone.  After any work its count for a
Connector is the number of failures that it was told of since the last pass over that Connector
that converged, up to the largest number there is.  What is asked for other Connectors leaves that
count alone.  After the next failure the delay is the longest one if it is not retried.  Else it is
the first delay times the multiplier to the power of the count, with its jitter and its limits
(`Backoff.Waits`), so that it is a duration, and no longer than the longest one if that is one. -/
theorem counts_failures (op : Operator) (hns : '/' ∉ ns.toList) (hname : '/' ∉ name.toList)
    (store : σ) (tasks : List (Task σ)) :
    let done := op.work tasks (.initial store)
    let failed := min FailureCounts.most (streak ns name done.1)
    done.2.failures.count (FailureCounts.key ns name) = failed ∧
      (∀ t : Task σ, t.connector.isAt ns name = false →
        (op.perform done.2 t).2.failures.count (FailureCounts.key ns name) = failed) ∧
      (∀ (draw : Float) (c : Connector) (e : Failure), c.isAt ns name = true →
        ∃ delay, (op.perform done.2 (.delay draw c e)).1 = .delayed c e delay ∧
          (e.isRetryable = false → delay = some op.backoff.longest) ∧
          (e.isRetryable = true → op.backoff.Waits draw failed delay ∧
            ∀ most, Duration.Nearest op.backoff.longest.toFloat (some most) →
              ∃ d, delay = some d ∧ d.nanoseconds ≤ most.nanoseconds)) ∧
      ∀ (M : Type) [Monoid M] (a : M) (n : Nat), Backoff.powerTimes 1 a n = a ^ n := by
  intro done failed
  have hcount : done.2.failures.count (FailureCounts.key ns name) = failed :=
    count_work op hns hname store tasks
  have hpower : ∀ (M : Type) [Monoid M] (a : M) (n : Nat), Backoff.powerTimes 1 a n = a ^ n :=
    fun M _ a n => (Backoff.powerTimes_eq 1 a n).trans (one_mul _)
  refine ⟨hcount, fun t ht => ?_, fun draw c e hc => ?_, hpower⟩
  · exact (count_perform_of_ne op hns hname done.2 ht).trans hcount
  refine ⟨op.backoff.delayAfter? draw e failed, ?_, fun he => ?_, fun he => ?_⟩
  · show Report.delayed c e (op.backoff.delayAfter? draw e (done.2.failures.count
      (failureKey c))) = _
    rw [failureKey_of_isAt hc, hcount]
  · exact if_neg (Bool.eq_false_iff.1 he)
  · have hdelay : op.backoff.delayAfter? draw e failed = op.backoff.delay? draw failed :=
      if_pos he
    have hwaits := Backoff.waits_delay? op.backoff draw failed
    rw [hdelay]
    exact ⟨hwaits, fun most hmost => hwaits.le_longest hmost⟩

/-- a pass that converges comes after one failure, and two failures come after it, with one of
another Connector in between -/
def heldTasks : List (Task World) :=
  let failed := Failure.transient "later"
  [.delay 0.5 heldConnector failed, .pass World.answer id ⟨"t0", 0⟩ 0.25 heldConnector,
    .delay 0.5 heldConnector failed, .delay 0.5 Pass.shopConnector failed,
    .delay 0.5 heldConnector failed]

theorem counts_failures_held :
    let done := heldOperator.work heldTasks (.initial (heldWorld "dQ==" "p" "fast"))
    '/' ∉ "apps".toList ∧ '/' ∉ "mq".toList ∧
      done.2.failures.count (FailureCounts.key "apps" "mq") = 2 ∧
      (heldOperator.perform done.2 (.delay 0.75 heldConnector (.transient "later"))).1 =
        .delayed heldConnector (.transient "later") (some (.ofSeconds 21)) ∧
      (heldOperator.perform done.2 (.delay 0.75 heldConnector (.unknownTriggerType "odd"))).1 =
        .delayed heldConnector (.unknownTriggerType "odd") (some (.ofSeconds 300)) := by
  have hns : '/' ∉ "apps".toList := by decide
  have hname : '/' ∉ "mq".toList := by decide
  have hstreak : min FailureCounts.most (streak "apps" "mq"
      (heldOperator.work heldTasks (.initial (heldWorld "dQ==" "p" "fast"))).1) = 2 := by
    decide +kernel
  have hat : heldConnector.isAt "apps" "mq" = true := by decide +kernel
  obtain ⟨hcount, _, hdelay, _⟩ := counts_failures heldOperator hns hname
    (heldWorld "dQ==" "p" "fast") heldTasks
  rw [hstreak] at hcount hdelay
  refine ⟨hns, hname, hcount, ?_, ?_⟩
  · obtain ⟨delay, hreport, -, hwaits⟩ := hdelay 0.75 heldConnector (.transient "later") hat
    have h21 : heldOperator.backoff.delay? 0.75 2 = some (.ofSeconds 21) := by decide +kernel
    rw [hreport, (hwaits rfl).1.unique (h21 ▸ Backoff.waits_delay? heldOperator.backoff 0.75 2)]
  · obtain ⟨delay, hreport, hlongest, -⟩ :=
      hdelay 0.75 heldConnector (.unknownTriggerType "odd") hat
    rw [hreport, hlongest rfl]
    rfl

end Operator
end ConnectorControl
