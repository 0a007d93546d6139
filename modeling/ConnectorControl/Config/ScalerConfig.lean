import ConnectorControl.Config.Files
import ConnectorControl.Json.Decode
import ConnectorControl.Json.Reader

/-!
# Scaler configuration

The configuration has an entry for each trigger type, named `<type>-auth`, with the alternative key
sets that can authenticate a scaler of the type.  It is loaded from the first of several places that
exists; without any, it is empty.
-/

namespace ConnectorControl

structure ScalerConfig where
  entries : Table String (List (List String))
deriving DecidableEq

namespace ScalerConfig

def empty : ScalerConfig := ⟨∅⟩

def isEmpty (c : ScalerConfig) : Bool := c.entries.isEmpty

/-- the name of the entry of a trigger type -/
def entryName (triggerType : String) : String := triggerType ++ "-auth"

/-- the alternative key sets of a trigger type, if the type is known -/
def keySets? (c : ScalerConfig) (triggerType : String) : Option (List (List String)) :=
  c.entries.find? (entryName triggerType)

/-- gives a trigger type its key sets -/
def register (c : ScalerConfig) (triggerType : String) (sets : List (List String)) :
    ScalerConfig :=
  ⟨c.entries.insert (entryName triggerType) sets⟩

/-! ## reading -/

def decode : Decoder ScalerConfig := fun v =>
  ScalerConfig.mk <$> Decode.table (Decode.list (Decode.list Decode.string)) v

/-- reads the text of a configuration, in which every entry has to be good, also one that a later
entry of its name replaces -/
def ofText? (s : String) : Option ScalerConfig := do
  match decode (← (← Json.Written.ofText? s).value?) with
  | .ok c => some c
  | .error _ => none

/-! ## loading -/

/-- where a configuration is looked for, in order -/
def candidates (given : Option String) : List String :=
  given.toList ++
    ["pkg/config/scale_config.json", "config/scale_config.json", "/config/scale_config.json"]

/-- why the file at a path is no configuration -/
inductive LoadError where
  | unreadable (path : String)
  | malformed (path : String)
deriving DecidableEq

/-- loads the first candidate that exists -/
def load (files : FileTree) : List String → Except LoadError ScalerConfig
  | [] => .ok empty
  | path :: rest =>
    match files.find? path with
    | none => load files rest
    | some content =>
      match content.text? with
      | none => .error (.unreadable path)
      | some text =>
        match ofText? text with
        | none => .error (.malformed path)
        | some c => .ok c

end ScalerConfig
end ConnectorControl
