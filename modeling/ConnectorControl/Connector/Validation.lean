import ConnectorControl.Connector.Basic
import ConnectorControl.Failure

/-!
# Validation of a Connector

A Connector is checked before anything is written for it.  The checks run in a fixed order, and the
first fault found is the one reported.
-/

namespace ConnectorControl

/-- what is wrong with a spec -/
inductive SpecFault where
  | noWorkload
  | portOutOfRange (port : Int32)
  | negativeMin (min : Int32)
  | minAboveMax (min max : Int32)
  | httpWithoutPort
  | httpWithoutHost
  | noTriggers
  | blankTriggerType (index : Nat)
deriving DecidableEq

namespace SpecFault

def message : SpecFault → String
  | .noWorkload => "either image or containers must be set"
  | .portOutOfRange port =>
    "exposePort " ++ toString port.toInt ++ " must be between 1 and 65535"
  | .negativeMin min => "minReplicaCount " ++ toString min.toInt ++ " must not be negative"
  | .minAboveMax min max =>
    "minReplicaCount " ++ toString min.toInt ++ " exceeds maxReplicaCount " ++ toString max.toInt
  | .httpWithoutPort => "httpScaling requires exposePort"
  | .httpWithoutHost => "httpScaling requires a host"
  | .noTriggers => "customScaling requires at least one trigger"
  | .blankTriggerType index => "trigger " ++ toString index ++ " has an empty type"

def failure (f : SpecFault) : Failure := .invalid f.message

end SpecFault

namespace ConnectorSpec

def hasImage (s : ConnectorSpec) : Bool := s.image.any fun i => !Text.isBlank i

def isPort (p : Int32) : Bool := 1 ≤ p.toInt && p.toInt ≤ 65535

/-- what is wrong with the workload -/
def workloadFault (s : ConnectorSpec) : Option SpecFault :=
  if !s.hasImage && s.containers.isEmpty then some .noWorkload
  else (s.effectivePort.filter fun p => !isPort p).map .portOutOfRange

end ConnectorSpec

namespace ScalingRule

/-- what is wrong with the replica bounds -/
def boundsFault (r : ScalingRule) : Option SpecFault :=
  match r.minReplicas with
  | none => none
  | some min =>
    if min.toInt < 0 then some (.negativeMin min)
    else
      match r.maxReplicas with
      | none => none
      | some max => if max.toInt < min.toInt then some (.minAboveMax min max) else none

/-- what is wrong with the mode, given the port -/
def modeFault (r : ScalingRule) (port : Option Int32) : Option SpecFault :=
  match r.mode with
  | .http h =>
    if port.isNone then some .httpWithoutPort
    else if Text.isBlank h.host then some .httpWithoutHost
    else none
  | .custom c =>
    if c.triggers.isEmpty then some .noTriggers
    else (c.triggers.findIdx? fun t => Text.isBlank t.type).map .blankTriggerType

end ScalingRule

/-- stops at a fault -/
def failOn : Option SpecFault → Except Failure Unit
  | some f => .error f.failure
  | none => .ok ()

namespace Connector

/-- checks a Connector, its workload before its scaling -/
def validate (c : Connector) : Except Failure Unit := do
  failOn c.spec.workloadFault
  match c.spec.effectiveScaling with
  | .error e => throw (.conversion e)
  | .ok none => return ()
  | .ok (some rule) =>
    failOn rule.boundsFault
    failOn (rule.modeFault c.spec.effectivePort)

end Connector
end ConnectorControl
