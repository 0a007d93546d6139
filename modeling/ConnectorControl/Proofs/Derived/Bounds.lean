import ConnectorControl.Proofs.Derived.Soundness

/-!
# Replica bounds of HTTPScaledObjects

An HTTPScaledObject has two replica bounds, also where the rule leaves one open.  Validation
compares the bounds that the rule sets, not the ones that are written, so a bound may be set that
the default of the other does not fit.  `bounds_ordered_iff` says for an accepted Connector when
that is so.
-/

namespace ConnectorControl

/-- one bound is left open, and the other is set beyond the default -/
def ScalingRule.OutrunsDefault (rule : ScalingRule) : Prop :=
  (rule.maxReplicas = none ∧ ∃ min, rule.minReplicas = some min ∧ 10 < min.toInt) ∨
    rule.minReplicas = none ∧ ∃ max, rule.maxReplicas = some max ∧ max.toInt < 0

namespace HttpScaledObject

variable {c : Connector} {rule : ScalingRule}

/-- the bounds that are written are in order unless one of them outruns the default of the other -/
theorem min_le_max_iff (hb : rule.boundsFault = none) (http : HttpScaling) (port : Int32) :
    let x := ofConnector c rule http port
    0 ≤ x.minReplicas.toInt ∧
      (x.minReplicas.toInt ≤ x.maxReplicas.toInt ↔ ¬rule.OutrunsDefault) := by
  have hbounds := ScalingRule.boundsFault_eq_none.1 hb
  have hzero : (0 : Int32).toInt = 0 := rfl
  have hten : (10 : Int32).toInt = 10 := rfl
  show 0 ≤ (rule.minReplicas.getD 0).toInt ∧
    ((rule.minReplicas.getD 0).toInt ≤ (rule.maxReplicas.getD 10).toInt ↔ ¬rule.OutrunsDefault)
  unfold ScalingRule.OutrunsDefault
  cases hmin : rule.minReplicas with
  | none =>
    cases hmax : rule.maxReplicas with
    | none => simp [hzero, hten]
    | some max => simp [hzero]
  | some min =>
    obtain ⟨hnonneg, hle⟩ := hbounds min hmin
    cases hmax : rule.maxReplicas with
    | none => simp [hnonneg, hten]
    | some max => simp [hnonneg, hle max hmax]

/-- The HTTPScaledObject of an accepted Connector has two bounds, neither of them open, of which
the lower is not negative.  They are in order unless the rule leaves one open and sets the other
beyond the default. -/
theorem bounds_ordered_iff (hv : c.validate = .ok ())
    (hs : c.spec.effectiveScaling = .ok (some rule)) (http : HttpScaling) (port : Int32) :
    let spec := ((ofConnector c rule http port).toObject c).toJson.get "spec"
    ∃ min max : Int, (spec.get "replicas").get "min" = .int min ∧
      (spec.get "replicas").get "max" = .int max ∧ 0 ≤ min ∧
        (min ≤ max ↔ ¬rule.OutrunsDefault) := by
  obtain ⟨_, scaling, hs', hrules⟩ := Connector.validate_eq_ok.1 hv
  obtain rfl := Except.ok.inj (hs.symm.trans hs')
  obtain ⟨hbounds, _⟩ := hrules rule rfl
  intro spec
  have hspec : spec = (ofConnector c rule http port).spec := Object.get_spec_ofSpec
  obtain ⟨hmin, hmax⟩ := get_replicas (ofConnector c rule http port)
  rw [hspec]
  exact ⟨_, _, hmin, hmax, min_le_max_iff hbounds http port⟩

def portalHttp : HttpScaling := ⟨"portal.local", .clusterIP, 0⟩

def portalRule (max min : Option Int32) : ScalingRule := ⟨max, min, .http portalHttp⟩

def portalConnector (max min : Option Int32) : Connector where
  metadata := { (default : Metadata) with
    name := some "portal", ns := some "apps", uid := some "u1" }
  spec := {
    image := some "portal:1", containers := [], exposePort := some 80, configRef := none
    secretRef := none, scalingRule := some (portalRule max min), type := none, scaler := none }
  status := none

def portalReplicas (max min : Option Int32) : Json :=
  let c := portalConnector max min
  let o := (ofConnector c (portalRule max min) portalHttp 80).toObject c
  (o.toJson.get "spec").get "replicas"

theorem bounds_ordered_iff_portal :
    (portalConnector none (some 5)).validate = .ok () ∧
      (portalConnector none (some 5)).spec.effectiveScaling =
        .ok (some (portalRule none (some 5))) ∧
      ∃ min max : Int, (portalReplicas none (some 5)).get "min" = .int min ∧
        (portalReplicas none (some 5)).get "max" = .int max ∧ 0 ≤ min ∧ min ≤ max := by
  have hv : (portalConnector none (some 5)).validate = .ok () := by decide +kernel
  have hs : (portalConnector none (some 5)).spec.effectiveScaling =
      .ok (some (portalRule none (some 5))) := by decide +kernel
  have hwithin : ¬(portalRule none (some 5)).OutrunsDefault := by
    rintro (⟨_, min, hmin, hlt⟩ | ⟨hmin, _⟩)
    · obtain rfl := Option.some.inj hmin
      exact absurd hlt (by decide)
    · cases hmin
  obtain ⟨min, max, hmin, hmax, hnonneg, hordered⟩ := bounds_ordered_iff hv hs portalHttp 80
  exact ⟨hv, hs, min, max, hmin, hmax, hnonneg, hordered.2 hwithin⟩

/-- A Connector that sets nothing but a lower bound of twenty is accepted, and its HTTPScaledObject
has at most ten replicas. -/
theorem bounds_crossed_portal :
    (portalConnector none (some 20)).validate = .ok () ∧
      (portalConnector none (some 20)).spec.effectiveScaling =
        .ok (some (portalRule none (some 20))) ∧
      (portalReplicas none (some 20)).get "min" = .int 20 ∧
      (portalReplicas none (some 20)).get "max" = .int 10 := by
  decide +kernel

end HttpScaledObject
end ConnectorControl
