import ConnectorControl.Connector.Validation

/-!
# Connectors that are accepted

What each check finds, said of the spec: the workload (`workloadFault_eq_none`), the replica bounds
(`boundsFault_eq_none`) and the mode (`modeFault_http`, `modeFault_custom`).  A Connector is
accepted when its scaling rule is found and no check finds anything (`Connector.validate_eq_ok`).
-/

namespace ConnectorControl

theorem failOn_eq_ok {f : Option SpecFault} : failOn f = .ok () ↔ f = none := by
  cases f with
  | none => exact iff_of_true rfl rfl
  | some f => exact iff_of_false nofun nofun

theorem ConnectorSpec.isPort_iff {p : Int32} : isPort p = true ↔ 1 ≤ p.toInt ∧ p.toInt ≤ 65535 := by
  simp [isPort]

theorem ConnectorSpec.workloadFault_eq_none {s : ConnectorSpec} : s.workloadFault = none ↔
    (s.hasImage = true ∨ s.containers ≠ []) ∧ ∀ p ∈ s.effectivePort, isPort p = true := by
  unfold workloadFault
  split
  next h =>
    refine iff_of_false nofun fun ⟨hworkload, _⟩ => ?_
    simp only [Bool.and_eq_true, Bool.not_eq_true', List.isEmpty_iff] at h
    rcases hworkload with himage | hcontainers
    · rw [h.1] at himage
      cases himage
    · exact hcontainers h.2
  next h =>
    have hworkload : s.hasImage = true ∨ s.containers ≠ [] := by
      cases himage : s.hasImage with
      | true => exact .inl rfl
      | false => exact .inr fun hempty => h (by rw [himage, hempty]; rfl)
    rw [Option.map_eq_none_iff, Option.filter_eq_none_iff]
    simp [hworkload]

namespace ScalingRule

variable {r : ScalingRule}

theorem boundsFault_eq_none : r.boundsFault = none ↔
    ∀ min ∈ r.minReplicas, 0 ≤ min.toInt ∧ ∀ max ∈ r.maxReplicas, min.toInt ≤ max.toInt := by
  unfold boundsFault
  cases r.minReplicas with
  | none => simp
  | some min =>
    cases r.maxReplicas with
    | none => simp
    | some max =>
      simp only [Option.mem_def, Option.some.injEq, forall_eq']
      split
      next h => exact iff_of_false nofun fun hle => absurd hle.1 (by omega)
      · split
        next h => exact iff_of_false nofun fun hle => absurd hle.2 (by omega)
        · exact iff_of_true rfl ⟨by omega, by omega⟩

theorem modeFault_http {h : HttpScaling} (hm : r.mode = .http h) {port : Option Int32} :
    r.modeFault port = none ↔ port ≠ none ∧ Text.isBlank h.host = false := by
  unfold modeFault
  rw [hm]
  cases port with
  | none => simp
  | some p => simp

theorem modeFault_custom {c : CustomScaling} (hm : r.mode = .custom c) {port : Option Int32} :
    r.modeFault port = none ↔ c.triggers ≠ [] ∧ ∀ t ∈ c.triggers, Text.isBlank t.type = false := by
  unfold modeFault
  rw [hm]
  dsimp only
  split
  next h => exact iff_of_false nofun fun hne => hne.1 (List.isEmpty_iff.1 h)
  next h =>
    have hne : c.triggers ≠ [] := fun hempty => h (List.isEmpty_iff.2 hempty)
    rw [Option.map_eq_none_iff, List.findIdx?_eq_none_iff]
    simp [hne]

end ScalingRule

namespace Connector

variable {c : Connector}

theorem validate_eq_ok : c.validate = .ok () ↔ c.spec.workloadFault = none ∧
    ∃ scaling, c.spec.effectiveScaling = .ok scaling ∧ ∀ rule ∈ scaling,
      rule.boundsFault = none ∧ rule.modeFault c.spec.effectivePort = none := by
  unfold validate
  cases hw : c.spec.workloadFault with
  | some f => exact iff_of_false nofun nofun
  | none =>
    cases c.spec.effectiveScaling with
    | error e => exact iff_of_false nofun fun ⟨_, _, h, _⟩ => nomatch h
    | ok scaling =>
      cases scaling with
      | none => exact iff_of_true rfl ⟨rfl, none, rfl, nofun⟩
      | some rule =>
        have hrule : ∀ p : ScalingRule → Prop, (∃ scaling, (Except.ok (some rule) :
            Except ConversionError _) = .ok scaling ∧ ∀ r ∈ scaling, p r) ↔ p rule := by
          simp
        rw [hrule]
        dsimp only
        cases rule.boundsFault with
        | some f => exact iff_of_false nofun nofun
        | none =>
          show failOn (rule.modeFault c.spec.effectivePort) = .ok () ↔ _
          simpa using failOn_eq_ok

end Connector
end ConnectorControl
