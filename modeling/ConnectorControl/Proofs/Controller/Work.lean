import ConnectorControl.Controller.Operator

/-!
# An operator at work

Two things are asked of an operator, in any order and for any Connectors: to make a pass, and to say
how long to wait after a pass that failed.  A pass may find the store changed by others, and the
store may reply in any way while the pass is under way.

`Operator.work` does what is asked, one after the other, and reports on each; what it has done by
some point is what it does for the tasks up to there (`work_concat`).
-/

namespace ConnectorControl

universe u

namespace Operator

variable {σ : Type u}

/-- what is asked of an operator -/
inductive Task (σ : Type u) where
  /-- a pass over a Connector, on a store with its replies and with what others have done to it -/
  | pass (h : Program.Handler σ) (others : σ → σ) (now : Moment) (seconds : Float) (c : Connector)
  /-- the delay after a pass over a Connector that failed -/
  | delay (draw : Float) (c : Connector) (e : Failure)

def Task.connector : Task σ → Connector
  | .pass _ _ _ _ c => c
  | .delay _ c _ => c

/-- what has become of a task -/
inductive Report where
  | passed (c : Connector) (result : Except Failure Action)
  | delayed (c : Connector) (e : Failure) (delay : Option Duration)

variable (op : Operator)

def perform (s : OperatorState σ) : Task σ → Report × OperatorState σ
  | .pass h others now seconds c =>
    let r := op.reconcile h now seconds c { s with store := others s.store }
    (.passed c r.result, r.state)
  | .delay draw c e =>
    let r := op.onFailure draw c e s
    (.delayed c e r.1, r.2)

def work : List (Task σ) → OperatorState σ → List Report × OperatorState σ
  | [], s => ([], s)
  | t :: ts, s =>
    let first := op.perform s t
    let rest := work ts first.2
    (first.1 :: rest.1, rest.2)

theorem work_concat (ts : List (Task σ)) (t : Task σ) (s : OperatorState σ) :
    op.work (ts ++ [t]) s =
      ((op.work ts s).1 ++ [(op.perform (op.work ts s).2 t).1],
        (op.perform (op.work ts s).2 t).2) := by
  induction ts generalizing s with
  | nil => rfl
  | cons t' ts ih =>
    show (_ :: (op.work (ts ++ [t]) _).1, (op.work (ts ++ [t]) _).2) = _
    rw [ih]
    rfl

theorem countP_concat (p : Report → Bool) (reports : List Report) (r : Report) :
    (reports ++ [r]).countP p = reports.countP p + if p r then 1 else 0 := by
  rw [List.countP_append, List.countP_singleton]

theorem result_passOver_of_none (op : Operator) (h : Program.Handler σ) (now : Moment)
    {c : Connector} (hc : c.metadata.ns = none) (s : σ) :
    ((op.passOver now c).run.run h s).result = .error (.missingKey ".metadata.namespace") := by
  unfold passOver
  rw [hc]
  rfl

end Operator

/-- whether a Connector has a namespace and a name, where no namespace counts as an empty one -/
def Connector.isAt (c : Connector) (ns name : String) : Bool :=
  c.metadata.ns.getD "" = ns && c.name = name

theorem Connector.isAt_iff {c : Connector} {ns name : String} :
    c.isAt ns name = true ↔ c.metadata.ns.getD "" = ns ∧ c.name = name := by
  unfold isAt
  rw [Bool.and_eq_true, decide_eq_true_eq, decide_eq_true_eq]

namespace Operator.Report

def converged (ns name : String) : Report → Bool
  | .passed c (.ok _) => c.isAt ns name
  | _ => false

def counted (ns name : String) : Report → Bool
  | .delayed c _ _ => c.isAt ns name
  | _ => false

end Operator.Report
end ConnectorControl
