import ConnectorControl.Derived.Deployment
import ConnectorControl.Connector.Validation

/-!
# Specs that mean the same

A spec is read through its workload, its mounts, its effective scaling rule and its effective port;
whether the replica count is left open follows from these (`wantsAutoscaling_iff`).  Specs that
agree on them mean the same (`ConnectorSpec.MeansSame`).

* `meansSame_migrated`     a spec and its translation into the fields of the present revision;
* `meansSame_withLegacy`   a spec with a scaling rule, whatever type and scaler it has, as long as
                           the port that it falls back to is the same.
-/

namespace ConnectorControl
namespace ConnectorSpec

variable {s t : ConnectorSpec} {rule : ScalingRule}

/-- whatever is read of the specs is the same -/
structure MeansSame (s t : ConnectorSpec) : Prop where
  image : t.image = s.image
  containers : t.containers = s.containers
  configRef : t.configRef = s.configRef
  secretRef : t.secretRef = s.secretRef
  scaling : t.effectiveScaling = s.effectiveScaling
  port : t.effectivePort = s.effectivePort

/-- the replica count is left open unless there is no scaling at all -/
theorem wantsAutoscaling_iff : s.wantsAutoscaling = true ↔ s.effectiveScaling ≠ .ok none := by
  have hmap : ∀ r : Except ConversionError ScalingRule, some <$> r ≠ .ok none := by
    intro r
    cases r with
    | ok rule => exact nofun
    | error e => exact nofun
  unfold wantsAutoscaling effectiveScaling
  cases s.scalingRule with
  | some rule => simp
  | none =>
    cases s.scaler with
    | none => cases s.type <;> simp
    | some scaler =>
      cases s.type with
      | none => simp
      | some type => simpa using hmap _

theorem MeansSame.wantsAutoscaling_eq (h : s.MeansSame t) :
    t.wantsAutoscaling = s.wantsAutoscaling := by
  rw [Bool.eq_iff_iff, wantsAutoscaling_iff, wantsAutoscaling_iff, h.scaling]

theorem MeansSame.configMapName_eq (h : s.MeansSame t) : t.configMapName = s.configMapName := by
  unfold configMapName
  rw [h.configRef]

theorem MeansSame.secretName_eq (h : s.MeansSame t) : t.secretName = s.secretName := by
  unfold secretName
  rw [h.secretRef]

theorem MeansSame.workloadFault_eq (h : s.MeansSame t) : t.workloadFault = s.workloadFault := by
  unfold workloadFault hasImage
  rw [h.image, h.containers, h.port]

/-! ## the fields of the first revision -/

/-- The spec in the fields of the present revision: with the rule that it asks for, with the port
that it listens on, and without the type and the scaler of the first revision. -/
def migrated (s : ConnectorSpec) (rule : ScalingRule) : ConnectorSpec :=
  { s with
    scalingRule := some rule
    exposePort := s.effectivePort
    type := none
    scaler := none }

/-- the spec with another type and another scaler of the first revision, or without them -/
def withLegacy (s : ConnectorSpec) (type : Option ConnectorType) (scaler : Option LegacyScaler) :
    ConnectorSpec :=
  { s with type, scaler }

theorem effectivePort_migrated : (s.migrated rule).effectivePort = s.effectivePort := by
  show (s.effectivePort <|> none) = s.effectivePort
  cases s.effectivePort <;> rfl

theorem meansSame_migrated (h : s.effectiveScaling = .ok (some rule)) :
    s.MeansSame (s.migrated rule) where
  image := rfl
  containers := rfl
  configRef := rfl
  secretRef := rfl
  scaling := h.symm
  port := effectivePort_migrated

/-- a scaling rule wins over whatever the first revision says of scaling -/
theorem effectiveScaling_of_rule (h : s.scalingRule = some rule) :
    s.effectiveScaling = .ok (some rule) := by
  unfold effectiveScaling
  rw [h]

theorem meansSame_withLegacy {type : Option ConnectorType} {scaler : Option LegacyScaler}
    (h : s.scalingRule = some rule)
    (hport : (s.withLegacy type scaler).effectivePort = s.effectivePort) :
    s.MeansSame (s.withLegacy type scaler) where
  image := rfl
  containers := rfl
  configRef := rfl
  secretRef := rfl
  scaling := by
    have h' : (s.withLegacy type scaler).scalingRule = some rule := h
    rw [effectiveScaling_of_rule h, effectiveScaling_of_rule h']
  port := hport

theorem effectivePort_withLegacy {type : Option ConnectorType} {scaler : Option LegacyScaler}
    (h : s.exposePort.isSome) :
    (s.withLegacy type scaler).effectivePort = s.effectivePort := by
  obtain ⟨port, hport⟩ := Option.isSome_iff_exists.1 h
  show (s.exposePort <|> _) = (s.exposePort <|> _)
  rw [hport]
  rfl

end ConnectorSpec

/-! ## what a Connector is checked for and what it runs -/

namespace Connector

def withSpec (c : Connector) (spec : ConnectorSpec) : Connector := { c with spec }

variable {c : Connector} {t : ConnectorSpec}

theorem validate_withSpec (h : c.spec.MeansSame t) : (c.withSpec t).validate = c.validate := by
  unfold validate
  rw [show (c.withSpec t).spec = t from rfl, h.workloadFault_eq, h.scaling, h.port]

theorem deployment_withSpec (h : c.spec.MeansSame t) :
    Deployment.ofConnector (c.withSpec t) = Deployment.ofConnector c := by
  have hvolumes : Deployment.volumesOf t = Deployment.volumesOf c.spec := by
    unfold Deployment.volumesOf
    rw [h.configMapName_eq, h.secretName_eq]
  have hdefault : Deployment.defaultContainer (c.withSpec t) = Deployment.defaultContainer c := by
    show ({ name := c.name
            image := t.image
            imagePullPolicy := _
            ports := t.effectivePort.map _ } : Container) = _
    rw [h.image, h.port]
    rfl
  have hbase : Deployment.baseContainers (c.withSpec t) = Deployment.baseContainers c := by
    unfold Deployment.baseContainers
    rw [hdefault, show (c.withSpec t).spec.containers = c.spec.containers from h.containers]
  unfold Deployment.ofConnector
  rw [hbase, show (c.withSpec t).spec = t from rfl, hvolumes, h.wantsAutoscaling_eq]
  rfl

end Connector
end ConnectorControl
