import ConnectorControl.Connector.Validation
import ConnectorControl.Pass.Prune
import ConnectorControl.Pass.Record
import ConnectorControl.Pass.Triggers
import ConnectorControl.Pass.Workload
import ConnectorControl.Time.Duration

/-!
# A pass over a Connector

`reconcile` reads the Connector as it is stored, brings its derived objects to what the spec asks
for, and records how that went.  The objects come in a fixed order: the Deployment; then Service and
HTTPScaledObject, or TriggerAuthentications and ScaledObject; then pruning.  A Connector that is
gone needs nothing, and one that is being deleted is left to the removal of what it owns.
-/

namespace ConnectorControl

/-- when to look at a Connector again -/
inductive Action where
  | awaitChange
  | requeue (after : Duration)
deriving DecidableEq

/-- what a pass is set up with -/
structure PassSettings where
  auth : ScalerConfig
  prune : Bool

/-- after how long a Connector without failure is looked at again -/
def resyncInterval : Duration := .ofSeconds 300

/-- what a pass has made: the objects it wants to keep, and the condition to record -/
structure Outcome where
  desired : List (DerivedKind × String)
  condition : Condition

namespace Outcome

/-- the outcome of a spec without scaling -/
def ofDeployment (now : String) (c : Connector) : Outcome where
  desired := []
  condition := {
    timestamp := now
    type := .created
    status := .true
    reason := some .deploymentCreated
    message := some ("Deployment " ++ c.name ++ " is up to date") }

def ofHttp (now : String) (c : Connector) (http : HttpScaling) : Outcome :=
  let name := Derived.objectName .httpScaledObject c.name
  { desired := [(.service, Derived.objectName .service c.name), (.httpScaledObject, name)]
    condition := {
      timestamp := now
      type := .ready
      status := .true
      reason := some .httpScaledObjectReady
      message := some ("HTTPScaledObject " ++ name ++ " routes host " ++ http.host) } }

def ofCustom (now : String) (c : Connector) (custom : CustomScaling) (auths : List String) :
    Outcome :=
  let name := Derived.objectName .scaledObject c.name
  { desired := (.scaledObject, name) :: auths.map fun a => (.triggerAuthentication, a)
    condition := {
      timestamp := now
      type := .created
      status := .true
      reason := some .scaledObjectCreated
      message := some
        ("ScaledObject " ++ name ++ " has " ++ toString custom.triggers.length ++
          " trigger(s)") } }

end Outcome

namespace Pass

/-- a pass that knows the stage it failed in -/
abbrev Staged (α : Type) := ExceptT (Stage × Failure) Program α

def inStage {α : Type} (stage : Stage) (p : Pass α) : Staged α := p.adapt fun e => (stage, e)

/-- writes the objects of a scaling rule -/
def scale (settings : PassSettings) (now : String) (c : Connector) (ns : String) :
    Option ScalingRule → Staged Outcome
  | none => return .ofDeployment now c
  | some rule =>
    match rule.mode with
    | .http http =>
      match c.spec.effectivePort with
      | none => throw (.validate, SpecFault.httpWithoutPort.failure)
      | some port => inStage .autoscaling do
        let _ ← upsertService c ns port http.serviceType
        let _ ← upsertHttpScaledObject c ns rule http port
        return .ofHttp now c http
    | .custom custom => inStage .autoscaling do
      let auths ← upsertScaledObject settings.auth c ns rule custom
      return .ofCustom now c custom auths

/-- brings the derived objects to what the spec asks for -/
def converge (settings : PassSettings) (now : String) (c : Connector) (ns : String) :
    Staged Condition := do
  inStage .validate (ofExcept c.validate)
  let scaling ← inStage .validate (ofExcept (c.spec.effectiveScaling.mapError .conversion))
  let _ ← inStage .deployment (upsertDeployment c ns)
  let outcome ← scale settings now c ns scaling
  if settings.prune then
    let _ ← inStage .autoscaling (prune c ns outcome.desired)
  return outcome.condition

/-- one pass over a Connector that has been read -/
def visit (settings : PassSettings) (now : String) (ns : String) (c : Connector) :
    Pass Action :=
  if c.metadata.deletionTimestamp.isSome then do
    always (tryRecord c ns (.terminating now))
    return .awaitChange
  else do
    match ← always (converge settings now c ns).run with
    | .ok condition =>
      always (tryRecord c ns condition)
      return .requeue resyncInterval
    | .error (stage, e) =>
      always (tryRecord c ns (.ofFailure now stage e))
      throw e

/-- one pass over the Connector of a namespace and a name -/
def reconcile (settings : PassSettings) (now ns name : String) : Pass Action := do
  match ← getAs .connector ns name Connector.decode with
  | none => return .awaitChange
  | some c => visit settings now ns c

end Pass
end ConnectorControl
