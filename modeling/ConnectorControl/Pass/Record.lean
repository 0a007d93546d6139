import ConnectorControl.Connector.Basic
import ConnectorControl.Store.Program

/-!
# Recording conditions

The end of a pass is recorded as a condition in the Connector's status.  The status is written when
the condition is new or the generation was not observed before.
-/

namespace ConnectorControl

/-- the part of a pass that failed -/
inductive Stage where
  | validate
  | deployment
  | autoscaling
deriving DecidableEq

namespace Stage

def reason : Stage → Reason
  | .validate => .invalidSpec
  | .deployment => .errorCreatingDeployment
  | .autoscaling => .errorCreatingScaledObject

end Stage

namespace Condition

/-- the condition of a pass that failed -/
def ofFailure (now : String) (stage : Stage) (e : Failure) : Condition where
  timestamp := now
  type := .error
  status := .false
  reason := some stage.reason
  message := some e.message

/-- the condition of a Connector that is being deleted -/
def terminating (now : String) : Condition where
  timestamp := now
  type := .terminating
  status := .true
  reason := some .terminatingResources
  message := some "Derived objects are removed with the Connector"

end Condition

namespace Connector

/-- the status to write once a condition is observed, if it differs from the present one -/
def statusAfter (c : Connector) (cond : Condition) : Option Status :=
  let current := c.status.getD default
  let observed := current.observedGeneration = c.metadata.generation
  if History.repeats current.conditions cond && observed then none
  else some {
    conditions := History.push current.conditions cond
    observedGeneration := c.metadata.generation }

end Connector

namespace Pass

def statusPatch (s : Status) : Json := .object [("status", s.toJson)]

/-- records a condition and tells whether the status was written -/
def record (c : Connector) (ns : String) (cond : Condition) : Pass Bool :=
  match c.statusAfter cond with
  | none => return false
  | some s => do
    patchStatus .connector ns c.name (statusPatch s)
    return true

/-- records a condition, whether or not the status can be written -/
def tryRecord (c : Connector) (ns : String) (cond : Condition) : Program Unit := do
  let _ ← (record c ns cond).run
  return ()

end Pass
end ConnectorControl
