import ConnectorControl.Config.ScalerConfig
import ConnectorControl.Derived.Autoscaling
import ConnectorControl.KeySets
import ConnectorControl.Pass.Upsert

/-!
# Autoscaling objects of a Connector

Every trigger is planned before anything is written: its type has to be configured, and the Secret
that it names has to hold a key set of that type.  So a bad trigger, wherever it stands, leaves no
scaler behind that lacks an authentication.
-/

namespace ConnectorControl

/-- a trigger found good, with the authentication it needs -/
structure PlannedTrigger where
  trigger : Trigger
  auth : Option TriggerAuth
deriving DecidableEq

namespace PlannedTrigger

def scaleTrigger (p : PlannedTrigger) : ScaleTrigger :=
  .ofTrigger p.trigger (p.auth.map (·.name))

end PlannedTrigger

namespace Pass

/-- fetches an object and reads it as its kind -/
def getAs {α : Type} (kind : Kind) (ns name : String) (decoder : Decoder α) :
    Pass (Option α) := do
  match ← get kind ns name with
  | none => return none
  | some o =>
    match o.decodeAs decoder with
    | .ok a => return some a
    | .error e => throw (.undecodable e)

/-- the key set that a trigger's Secret is used with -/
def secretKeys (ns secret triggerType : String) (alternatives : List (List String)) :
    Pass (List String) := do
  match ← getAs .secret ns secret Secret.decode with
  | none => throw (.notFound ("Secret " ++ ns ++ "/" ++ secret))
  | some s =>
    match KeySets.matching s.hasKey alternatives with
    | some keys => return keys
    | none =>
      always (Program.noteRejected triggerType)
      throw (.secretMissesKeys secret triggerType (KeySets.closestMissing s.hasKey alternatives))

/-- plans triggers in their order, where `index` counts the authentications before them -/
def planTriggers (auth : ScalerConfig) (connector ns : String) (index : Nat) :
    List Trigger → Pass (List PlannedTrigger)
  | [] => return []
  | t :: ts => do
    match auth.keySets? t.type with
    | none => throw (.unknownTriggerType t.type)
    | some alternatives =>
      match t.secretName with
      | none => return ⟨t, none⟩ :: (← planTriggers auth connector ns index ts)
      | some secret =>
        let keys ← secretKeys ns secret t.type alternatives
        let planned : PlannedTrigger :=
          ⟨t, some { name := Derived.triggerAuthName connector index, secret, keys }⟩
        return planned :: (← planTriggers auth connector ns (index + 1) ts)

/-- writes the authentications of planned triggers -/
def upsertAuths (c : Connector) (ns : String) : List PlannedTrigger → Pass Unit
  | [] => return ()
  | p :: ps => do
    match p.auth with
    | none => upsertAuths c ns ps
    | some a =>
      let _ ← upsert .triggerAuthentication ns (a.toObject c)
      upsertAuths c ns ps

/-- writes the objects of custom scaling and gives the names of the authentications -/
def upsertScaledObject (auth : ScalerConfig) (c : Connector) (ns : String) (rule : ScalingRule)
    (custom : CustomScaling) : Pass (List String) := do
  let planned ← planTriggers auth c.name ns 0 custom.triggers
  upsertAuths c ns planned
  let triggers := planned.map PlannedTrigger.scaleTrigger
  let _ ← upsert .scaledObject ns ((ScaledObject.ofConnector c rule custom triggers).toObject c)
  return planned.filterMap fun p => p.auth.map (·.name)

def upsertHttpScaledObject (c : Connector) (ns : String) (rule : ScalingRule)
    (http : HttpScaling) (port : Int32) : Pass Applied :=
  upsert .httpScaledObject ns ((HttpScaledObject.ofConnector c rule http port).toObject c)

end Pass
end ConnectorControl
