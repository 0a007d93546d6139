import ConnectorControl.Proofs.Connector.Meaning
import ConnectorControl.Proofs.Text.Integer

/-!
# Scalers with their integers written as text

In the metadata of a scaler of the first revision an integer may stand as such or as text.  What is
read of a value, as text or as an integer, does not tell which (`int?_spelled`, `render_spelled`),
so neither do the rule and the port that come from it: however many of its integers are written as
text, a scaler stands for the same (`derives_same_when_spelled`).
-/

namespace ConnectorControl

universe u v w

namespace Entries

variable {κ : Type u} {β : Type v} {γ : Type w}

def mapEntries (f : κ → β → γ) (es : List (κ × β)) : List (κ × γ) :=
  es.map fun e => (e.1, f e.1 e.2)

theorem find?_mapEntries [DecidableEq κ] (f : κ → β → γ) (k : κ) (es : List (κ × β)) :
    find? k (mapEntries f es) = (find? k es).map (f k) := by
  induction es with
  | nil => rfl
  | cons e es ih =>
    obtain ⟨a, v⟩ := e
    show find? k ((a, f a v) :: mapEntries f es) = _
    rw [find?_cons, find?_cons, ih]
    by_cases h : k = a
    · subst h
      rw [if_pos rfl, if_pos rfl]
      rfl
    · rw [if_neg h, if_neg h]

theorem Ordered.mapEntries [Ord κ] {es : List (κ × β)} (h : Ordered es) (f : κ → β → γ) :
    Ordered (mapEntries f es) :=
  List.pairwise_map.2 (h.imp fun h => h)

end Entries

namespace IntOrString

def spelled (chosen : Bool) (v : IntOrString) : IntOrString :=
  if chosen then .str v.render else v

variable (chosen : Bool) (v : IntOrString)

theorem render_spelled : (v.spelled chosen).render = v.render := by
  cases chosen <;> rfl

theorem int?_spelled : (v.spelled chosen).int? = v.int? := by
  cases chosen with
  | false => rfl
  | true =>
    cases v with
    | int n =>
      show Text.int32? (Text.trim (toString n.toInt)) = some n
      rw [Text.trim_toString, Text.int32?_toString]
    | str s => rfl

end IntOrString

namespace LegacyScaler

/-- The scaler with the chosen ones of its metadata values written as text.  Those that are text
stay as they are, so it is a set of integers that is rewritten. -/
def spelled (s : LegacyScaler) (chosen : String → Bool) : LegacyScaler :=
  { s with
    metadata :=
      ⟨Entries.mapEntries (fun key => IntOrString.spelled (chosen key)) s.metadata.entries,
        s.metadata.ordered.mapEntries _⟩ }

variable (s : LegacyScaler) (chosen : String → Bool)

theorem find?_spelled (key : String) : (s.spelled chosen).metadata.find? key =
    (s.metadata.find? key).map (IntOrString.spelled (chosen key)) :=
  Entries.find?_mapEntries (fun key => IntOrString.spelled (chosen key)) key s.metadata.entries

/-! ## what is read of a value -/

theorem rendered_spelled (key : String) :
    ((s.spelled chosen).metadata.find? key).map IntOrString.render =
      (s.metadata.find? key).map IntOrString.render := by
  rw [find?_spelled]
  cases s.metadata.find? key with
  | none => rfl
  | some v => exact congrArg some (v.render_spelled _)

theorem string?_spelled (key : String) : (s.spelled chosen).string? key = s.string? key := by
  unfold string?
  rw [rendered_spelled]

theorem int?_spelled (key : String) : (s.spelled chosen).int? key = s.int? key := by
  unfold int?
  rw [find?_spelled]
  cases s.metadata.find? key with
  | none => rfl
  | some v => exact v.int?_spelled _

theorem bound?_spelled (key : String) : (s.spelled chosen).bound? key = s.bound? key := by
  unfold bound?
  rw [int?_spelled]

theorem pendingRequests_spelled : (s.spelled chosen).pendingRequests = s.pendingRequests := by
  unfold pendingRequests
  rw [find?_spelled]
  cases s.metadata.find? "pendingRequests" with
  | none => rfl
  | some v =>
    rw [Option.map_some]
    simp only [v.int?_spelled, v.render_spelled]

/-! ## what it stands for -/

theorem toHttpRule_spelled : (s.spelled chosen).toHttpRule = s.toHttpRule := by
  unfold toHttpRule
  rw [string?_spelled, pendingRequests_spelled, bound?_spelled, bound?_spelled]
  rfl

theorem trigger_spelled (type : ConnectorType) :
    (s.spelled chosen).trigger type = s.trigger type := by
  have hmetadata :
      ((s.spelled chosen).metadata.erase "secret").mapValues IntOrString.render =
        (s.metadata.erase "secret").mapValues IntOrString.render := by
    refine Table.ext_find? fun key => ?_
    show Entries.find? key (Entries.mapValues _ _) = Entries.find? key (Entries.mapValues _ _)
    rw [Entries.find?_mapValues, Entries.find?_mapValues]
    show (((s.spelled chosen).metadata.erase "secret").find? key).map IntOrString.render =
      ((s.metadata.erase "secret").find? key).map IntOrString.render
    rw [Table.find?_erase, Table.find?_erase]
    by_cases hkey : key = "secret"
    · rw [if_pos hkey, if_pos hkey]
    · rw [if_neg hkey, if_neg hkey, rendered_spelled]
  unfold trigger
  rw [hmetadata, string?_spelled]
  rfl

theorem toScalingRule_spelled (type : ConnectorType) :
    (s.spelled chosen).toScalingRule type = s.toScalingRule type := by
  have hcustom : (s.spelled chosen).toCustomRule type = s.toCustomRule type := by
    unfold toCustomRule
    rw [trigger_spelled]
    rfl
  cases type with
  | http => exact toHttpRule_spelled s chosen
  | _ => exact congrArg Except.ok hcustom

theorem meansSame_spelled (spec : ConnectorSpec) (type : Option ConnectorType) :
    (spec.withLegacy type (some s)).MeansSame
      (spec.withLegacy type (some (s.spelled chosen))) where
  image := rfl
  containers := rfl
  configRef := rfl
  secretRef := rfl
  scaling := by
    unfold ConnectorSpec.effectiveScaling ConnectorSpec.withLegacy
    cases spec.scalingRule with
    | some rule => rfl
    | none =>
      cases type with
      | none => rfl
      | some type =>
        show some <$> (s.spelled chosen).toScalingRule type = some <$> s.toScalingRule type
        rw [toScalingRule_spelled]
  port := by
    show (spec.exposePort <|> (s.spelled chosen).int? "svcPort") =
      (spec.exposePort <|> s.int? "svcPort")
    rw [int?_spelled]

/-- Nothing that is derived from a scaler tells which of its integers are written as text: not what
its values are read as, not the scaling rule or the reason that there is none, and not the port that
a spec falls back to.  A spec with the scaler means the same in everything else, too. -/
theorem derives_same_when_spelled :
    (∀ type, (s.spelled chosen).toScalingRule type = s.toScalingRule type) ∧
      (∀ key, (s.spelled chosen).string? key = s.string? key) ∧
      (∀ key, (s.spelled chosen).int? key = s.int? key) ∧
      ∀ (spec : ConnectorSpec) (type : Option ConnectorType),
        let before := spec.withLegacy type (some s)
        let after := spec.withLegacy type (some (s.spelled chosen))
        after.effectivePort = before.effectivePort ∧ before.MeansSame after := by
  refine ⟨s.toScalingRule_spelled chosen, s.string?_spelled chosen, s.int?_spelled chosen, ?_⟩
  intro spec type before after
  have hmeans := s.meansSame_spelled chosen spec type
  exact ⟨hmeans.port, hmeans⟩

end LegacyScaler
end ConnectorControl
