import ConnectorControl.Table

/-!
# Metrics

Passes are counted by Connector: those that converged, with the time they took, and those that
failed.  Secrets that lack keys are counted by trigger type.  The time of the last pass that
converged is kept for all Connectors together.
-/

namespace ConnectorControl

/-! ## histograms -/

/-- observations by bucket, their number and their sum -/
structure Histogram where
  buckets : List Nat
  count : Nat
  sum : Float

namespace Histogram

/-- upper ends of the buckets, but for the last, which has none -/
def bounds : List Float := [0.01, 0.025, 0.05, 0.1, 0.25, 0.5, 1.0, 2.5, 5.0, 10.0]

def empty : Histogram := ⟨List.replicate (bounds.length + 1) 0, 0, 0.0⟩

/-- counts an observation in the first bucket that reaches as far -/
def place (x : Float) : List Float → List Nat → List Nat
  | b :: bs, n :: ns => if x ≤ b then (n + 1) :: ns else n :: place x bs ns
  | [], n :: ns => (n + 1) :: ns
  | _, [] => []

def observe (h : Histogram) (x : Float) : Histogram where
  buckets := place x bounds h.buckets
  count := h.count + 1
  sum := h.sum + x

end Histogram

/-! ## all metrics -/

/-- the Connector that a sample is about -/
structure ConnectorLabels where
  ns : String
  name : String
deriving DecidableEq

namespace ConnectorLabels

instance : Ord ConnectorLabels where
  compare := compareLex (compareOn (·.ns)) (compareOn (·.name))

instance : Std.TransOrd ConnectorLabels :=
  inferInstanceAs (Std.TransCmp (compareLex (compareOn fun l : ConnectorLabels => l.ns)
    (compareOn (·.name))))

instance : Std.LawfulEqOrd ConnectorLabels where
  compare_self := Std.ReflCmp.compare_self
  eq_of_compare {a b} h := by
    have h : compareLex (compareOn fun l : ConnectorLabels => l.ns) (compareOn (·.name))
      a b = .eq := h
    simp only [compareLex_eq_eq, compareOn, Std.LawfulEqOrd.compare_eq_iff_eq] at h
    cases a; cases b; simp_all

end ConnectorLabels

structure Metrics where
  reconciliations : Table ConnectorLabels Nat
  errors : Table ConnectorLabels Nat
  durations : Table ConnectorLabels Histogram
  secretFailures : Table String Nat
  /-- Unix time of the last pass that converged, zero before the first -/
  lastReconcile : Int

namespace Metrics

def empty : Metrics := ⟨∅, ∅, ∅, ∅, 0⟩

/-- adds one to a counter -/
def increment {κ : Type} [Ord κ] [Std.TransOrd κ] [Std.LawfulEqOrd κ] [DecidableEq κ]
    (t : Table κ Nat) (k : κ) : Table κ Nat :=
  t.insert k ((t.find? k).getD 0 + 1)

/-- a pass that converged in so many seconds -/
def recordReconcile (m : Metrics) (ns name : String) (seconds : Float) : Metrics :=
  let l : ConnectorLabels := ⟨ns, name⟩
  { m with
    reconciliations := increment m.reconciliations l
    durations := m.durations.insert l (((m.durations.find? l).getD .empty).observe seconds) }

/-- a pass that failed -/
def recordError (m : Metrics) (ns name : String) : Metrics :=
  { m with errors := increment m.errors ⟨ns, name⟩ }

/-- a Secret that lacks keys for a trigger type -/
def recordSecretFailure (m : Metrics) (triggerType : String) : Metrics :=
  { m with secretFailures := increment m.secretFailures triggerType }

/-- notes the time of a pass that converged -/
def touch (m : Metrics) (unix : Int) : Metrics := { m with lastReconcile := unix }

end Metrics
end ConnectorControl
