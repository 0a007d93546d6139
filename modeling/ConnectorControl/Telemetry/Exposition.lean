import ConnectorControl.Decimal.Notation
import ConnectorControl.Decimal.Quick
import ConnectorControl.Telemetry.Metrics

/-!
# Metrics as text

Every metric has a line of help and a line with its type, then its samples; a last line ends the
text.  Values of labels are written as they are.
-/

namespace ConnectorControl
namespace Exposition

/-- Floats are positional from `0.000001` to below `10^21`. -/
def floatNotation : DecimalNotation := ⟨-5, 21, false⟩

def floatText (x : Float) : String :=
  if x.isNaN then "NaN"
  else if x.isInf then if x < 0 then "-inf" else "inf"
  else
    let b := Binary.ofFloat x
    b.text floatNotation b.quick

inductive MetricType where
  | counter
  | gauge
  | histogram

def MetricType.name : MetricType → String
  | .counter => "counter"
  | .gauge => "gauge"
  | .histogram => "histogram"

/-- one line: what is behind the metric's name, the labels, and the value -/
structure Sample where
  suffix : String
  labels : List (String × String)
  value : String

structure Metric where
  name : String
  help : String
  type : MetricType
  samples : List Sample

def labelsText : List (String × String) → String
  | [] => ""
  | ls => "\x7b" ++ ",".intercalate (ls.map fun l => l.1 ++ "=\"" ++ l.2 ++ "\"") ++ "\x7d"

/-- what stands before the name of every metric -/
def scope : String := "connector_operator_"

def Metric.lines (m : Metric) : List String :=
  let name := scope ++ m.name
  ("# HELP " ++ name ++ " " ++ m.help) :: ("# TYPE " ++ name ++ " " ++ m.type.name) ::
    m.samples.map fun s => name ++ s.suffix ++ labelsText s.labels ++ " " ++ s.value

/-! ## samples -/

def connectorLabels (l : ConnectorLabels) : List (String × String) :=
  [("namespace", l.ns), ("name", l.name)]

def counterSamples {κ : Type} [Ord κ] (labels : κ → List (String × String)) (t : Table κ Nat) :
    List Sample :=
  t.entries.map fun e => ⟨"_total", labels e.1, toString e.2⟩

/-- the numbers of observations up to each bound -/
def cumulative (total : Nat) : List Nat → List Nat
  | [] => []
  | n :: ns => (total + n) :: cumulative (total + n) ns

def histogramSamples (labels : List (String × String)) (h : Histogram) : List Sample :=
  let ends := Histogram.bounds.map floatText ++ ["+Inf"]
  ⟨"_sum", labels, floatText h.sum⟩ :: ⟨"_count", labels, toString h.count⟩ ::
    (ends.zip (cumulative 0 h.buckets)).map fun b =>
      ⟨"_bucket", ("le", b.1) :: labels, toString b.2⟩

end Exposition

open Exposition

namespace Metrics

def exposed (m : Metrics) : List Metric := [
  { name := "reconciliations"
    help := "Reconcile passes that converged."
    type := .counter
    samples := counterSamples connectorLabels m.reconciliations },
  { name := "reconciliation_errors"
    help := "Reconcile passes that ended in an error."
    type := .counter
    samples := counterSamples connectorLabels m.errors },
  { name := "reconcile_duration_seconds"
    help := "Wall time of converged reconcile passes."
    type := .histogram
    samples := m.durations.entries.flatMap fun e =>
      histogramSamples (connectorLabels e.1) e.2 },
  { name := "secret_validation_failures"
    help := "Trigger secrets missing every configured key-set."
    type := .counter
    samples := counterSamples (fun t => [("trigger_type", t)]) m.secretFailures },
  { name := "last_reconcile_timestamp_seconds"
    help := "Unix time of the last converged reconcile pass."
    type := .gauge
    samples := [⟨"", [], toString m.lastReconcile⟩] }]

/-- the text of all metrics -/
def text (m : Metrics) : String :=
  .join ((m.exposed.flatMap Metric.lines ++ ["# EOF"]).map (· ++ "\n"))

end Metrics
end ConnectorControl
