import ConnectorControl.Config.Address
import ConnectorControl.Config.ScalerConfig
import ConnectorControl.Text.Blank
import ConnectorControl.Text.Quoted

/-!
# Settings of the operator

The operator is set up by environment variables.  A variable that is blank counts as unset, and one
that is set is taken with its blanks.
-/

namespace ConnectorControl

/-- a variable whose value makes no sense -/
structure InvalidVariable where
  name : String
  value : String
deriving DecidableEq

def InvalidVariable.message (e : InvalidVariable) : String :=
  "invalid value " ++ Text.quoted e.value ++ " for " ++ e.name

structure Settings where
  /-- the namespace to watch, or all of them -/
  watchNamespace : Option String
  scalerConfigPath : Option String
  podName : String
  podNamespace : String
  healthAddress : SocketAddress
  /-- whether objects are deleted that the spec no longer asks for -/
  prune : Bool

namespace Settings

/-- reads a yes or no, in any case and between blanks -/
def switch? (s : String) : Option Bool :=
  let word := (Text.trim s).toLower
  if word = "true" ∨ word = "1" ∨ word = "yes" then some true
  else if word = "false" ∨ word = "0" ∨ word = "no" then some false
  else none

/-- reads a variable that has a value when it is unset -/
def setting? {α : Type} (value : String → Option String) (name : String)
    (read? : String → Option α) (default : α) : Except InvalidVariable α :=
  match value name with
  | none => .ok default
  | some v =>
    match read? v with
    | some a => .ok a
    | none => .error ⟨name, v⟩

def defaultHealthAddress : SocketAddress := .v4 [0, 0, 0, 0] 8080

/-- the settings of a set of variables, on a host of some name -/
def ofVariables (hostname : String) (lookup : String → Option String) :
    Except InvalidVariable Settings := do
  let value := fun name => (lookup name).filter fun v => !Text.isBlank v
  let healthAddress ← setting? value "HEALTH_ADDR" SocketAddress.ofText? defaultHealthAddress
  let prune ← setting? value "PRUNE_STALE_RESOURCES" switch? true
  return {
    watchNamespace := value "WATCH_NAMESPACE"
    scalerConfigPath := value "SCALER_CONFIG_PATH"
    podName := (value "POD_NAME").getD hostname
    podNamespace := (value "POD_NAMESPACE").getD "default"
    healthAddress, prune }

/-- loads the scaler configuration that the settings point to -/
def loadScalerConfig (s : Settings) (files : FileTree) :
    Except ScalerConfig.LoadError ScalerConfig :=
  ScalerConfig.load files (ScalerConfig.candidates s.scalerConfigPath)

end Settings
end ConnectorControl
