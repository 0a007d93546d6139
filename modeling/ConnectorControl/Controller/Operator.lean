import ConnectorControl.Controller.Backoff
import ConnectorControl.Controller.FailureCounts
import ConnectorControl.Pass.Converge
import ConnectorControl.Telemetry.Metrics

/-!
# The operator between passes

Around a pass the operator counts failures and keeps its metrics.  A pass that succeeds clears the
Connector's failures; after one that fails, the failures before it decide how long to wait.

Each step says how it changes the state, which is the store together with what the operator
remembers.
-/

namespace ConnectorControl

universe u

/-- what an operator is set up with -/
structure Operator where
  settings : PassSettings
  backoff : Backoff
  /-- whether metrics are kept -/
  measured : Bool

/-- a store, with what the operator remembers -/
structure OperatorState (σ : Type u) where
  store : σ
  failures : FailureCounts
  metrics : Metrics

/-- a point in time, as text and in seconds -/
structure Moment where
  text : String
  unix : Int

namespace OperatorState

variable {σ : Type u}

def initial (store : σ) : OperatorState σ := ⟨store, .empty, .empty⟩

end OperatorState

namespace Operator

variable {σ : Type u} {α : Type} (op : Operator)

/-- the key under which the failures of a Connector are counted -/
def failureKey (c : Connector) : String := FailureCounts.key (c.metadata.ns.getD "") c.name

/-- what an event adds to the metrics -/
def noteEvent (m : Metrics) : Event → Metrics
  | .call _ _ => m
  | .secretRejected triggerType => m.recordSecretFailure triggerType

def noteEvents (events : List Event) (m : Metrics) : Metrics :=
  if op.measured then events.foldl noteEvent m else m

/-- what the end of a pass adds to the metrics -/
def noteResult (ns name : String) (now : Moment) (seconds : Float) (m : Metrics) :
    Except Failure Action → Metrics
  | .ok _ => if op.measured then (m.recordReconcile ns name seconds).touch now.unix else m
  | .error _ => if op.measured then m.recordError ns name else m

/-- runs a pass on the store -/
def runPass (h : Program.Handler σ) (p : Pass α) (s : OperatorState σ) :
    Program.Run (OperatorState σ) (Except Failure α) :=
  let r := Program.run h p.run s.store
  { result := r.result
    events := r.events
    state := { s with store := r.state, metrics := op.noteEvents r.events s.metrics } }

/-- the pass that a Connector calls for -/
def passOver (now : Moment) (c : Connector) : Pass Action :=
  match c.metadata.ns with
  | none => Pass.ofExcept (.error (.missingKey ".metadata.namespace"))
  | some ns => Pass.reconcile op.settings now.text ns c.name

/-- takes note of how a pass over a Connector went, which took so many seconds -/
def conclude (now : Moment) (seconds : Float) (c : Connector) (events : List Event)
    (result : Except Failure Action) (s : OperatorState σ) : OperatorState σ :=
  match c.metadata.ns with
  | none => s
  | some ns =>
    let failures :=
      match result with
      | .ok _ => s.failures.reset (FailureCounts.key ns c.name)
      | .error _ => s.failures
    let metrics := op.noteResult ns c.name now seconds (op.noteEvents events s.metrics) result
    { s with failures, metrics }

/-- runs the pass that a Connector calls for, which takes so many seconds -/
def reconcile (h : Program.Handler σ) (now : Moment) (seconds : Float) (c : Connector)
    (s : OperatorState σ) : Program.Run (OperatorState σ) (Except Failure Action) :=
  let r := Program.run h (op.passOver now c).run s.store
  { result := r.result
    events := r.events
    state := op.conclude now seconds c r.events r.result { s with store := r.state } }

/-- counts a failed pass over a Connector and gives the delay before the next one -/
def onFailure (draw : Float) (c : Connector) (e : Failure) (s : OperatorState σ) :
    Option Duration × OperatorState σ :=
  let key := failureKey c
  (op.backoff.delayAfter? draw e (s.failures.count key),
    { s with failures := s.failures.record key })

end Operator
end ConnectorControl
