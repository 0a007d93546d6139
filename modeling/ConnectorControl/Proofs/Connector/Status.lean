import ConnectorControl.Connector.Status
import ConnectorControl.Proofs.Json.Decoding

/-!
# Statuses as they are read

A condition is read back as it was written (`Condition.decode_toJson`).  A status that is merged
over another one has its own conditions, and its own generation if it has one
(`Status.decode_merge`): a generation that is not set is not written, so the one that was there
stays.
-/

namespace ConnectorControl

open Decode

theorem ConditionType.decode_name (t : ConditionType) : decode (.str t.name) = .ok t := by
  cases t <;> rfl

theorem Truth.decode_name (t : Truth) : decode (.str t.name) = .ok t := by
  cases t <;> rfl

theorem Reason.decode_name (r : Reason) : decode (.str r.name) = .ok r := by
  cases r <;> rfl

theorem Condition.decode_toJson (c : Condition) : decode c.toJson = .ok c := by
  have hf := @Json.find?_objectOfSet [
    ("timestamp", some (.str c.timestamp)),
    ("type", some (.str c.type.name)),
    ("status", some (.str c.status.name)),
    ("reason", c.reason.map fun r => .str r.name),
    ("message", c.message.map .str)] (by simp)
  have ho : Entries.Ordered c.toJson.members := (Json.isTable_objectOfSet _).ordered
  have htime : string (.str c.timestamp) = .ok c.timestamp := rfl
  show (do
    let message ← optional c.toJson.members "message" string
    let reason ← optional c.toJson.members "reason" Reason.decode
    let status ← member? c.toJson.members "status" Truth.decode
    let timestamp ← member? c.toJson.members "timestamp" string
    let type ← member? c.toJson.members "type" ConditionType.decode
    return (⟨← require (.missing "timestamp") timestamp, ← require (.missing "type") type,
      ← require (.missing "status") status, reason, message⟩ : Condition)) = _
  rw [optional_of_map ho (hf "message") fun _ _ => ⟨rfl, rfl⟩,
    optional_of_map ho (hf "reason") fun r _ => ⟨r.decode_name, rfl⟩,
    member?_of_find? ho (hf "status") c.status.decode_name,
    member?_of_find? ho (hf "timestamp") htime, member?_of_find? ho (hf "type") c.type.decode_name]
  rfl

namespace History

variable {cs : List Condition} {c c' : Condition}

theorem repeats_congr (h : c.sameObservation c' = true) : repeats cs c' = repeats cs c := by
  obtain ⟨htype, hstatus, hreason, hmessage⟩ := Condition.sameObservation_iff.1 h
  unfold repeats Condition.sameObservation
  rw [htype, hstatus, hreason, hmessage]

theorem push_ne_nil : push cs c ≠ [] := by
  intro h
  have hrepeats := repeats_push cs c
  rw [h] at hrepeats
  cases hrepeats

end History

namespace Status

variable {ms : List (String × Json)} {s s' : Status}

theorem find?_toJson_conditions (h : s.conditions ≠ []) :
    s.toJson.find? "conditions" = some (.arr (s.conditions.map Condition.toJson)) := by
  unfold toJson
  rw [Json.find?_objectOfSet (by simp), List.isEmpty_eq_false_iff.2 h]
  rfl

theorem find?_toJson_generation :
    s.toJson.find? "observedGeneration" = s.observedGeneration.map fun n => .int n.toInt := by
  unfold toJson
  rw [Json.find?_objectOfSet (by simp)]
  rfl

theorem isTable_toJson : s.toJson.IsTable := Json.isTable_objectOfSet _

theorem canonical_toJson : s.toJson.Canonical := by
  have hcondition : ∀ c : Condition, c.toJson.Clean := by
    intro c
    refine Json.clean_objectOfSet ?_
    simp only [List.forall_mem_cons]
    exact ⟨Json.clean_of_some (Json.clean_str _), Json.clean_of_some (Json.clean_str _),
      Json.clean_of_some (Json.clean_str _), Json.clean_of_map (fun _ => Json.clean_str _) _,
      Json.clean_of_map Json.clean_str _, List.forall_mem_nil _⟩
  refine (Json.clean_objectOfSet ?_).canonical
  simp only [List.forall_mem_cons]
  refine ⟨fun v hv => ?_, Json.clean_of_map (fun _ => Json.clean_int _) _, List.forall_mem_nil _⟩
  split at hv
  · cases hv
  · obtain rfl := Option.some.inj hv
    exact Json.clean_list hcondition _

theorem decode_obj : decode (.obj ms) = .ok s ↔
    withDefault ms "conditions" (list Condition.decode) [] = .ok s.conditions ∧
      optional ms "observedGeneration" int64 = .ok s.observedGeneration := by
  show (do
    let conditions ← withDefault ms "conditions" (list Condition.decode) []
    let generation ← optional ms "observedGeneration" int64
    return (⟨conditions, generation⟩ : Status)) = _ ↔ _
  generalize withDefault ms "conditions" (list Condition.decode) [] = conditions
  generalize optional ms "observedGeneration" int64 = generation
  constructor
  · intro h
    rcases conditions with e | cs
    · cases h
    · rcases generation with e | g
      · cases h
      · obtain rfl := Except.ok.inj h
        exact ⟨rfl, rfl⟩
  · rintro ⟨rfl, rfl⟩
    rfl

/-- The members of a value that is read as a status are read as one too.  It is the same one, unless
the value is a list: a list has no members. -/
theorem decode_members {v : Json} {x : Option Status} (h : option decode v = .ok x) :
    ∃ s, decode (.obj v.members) = .ok s ∧ ((∀ items, v ≠ .arr items) → s = x.getD default) := by
  cases v with
  | null =>
    obtain rfl := Except.ok.inj h
    exact ⟨default, rfl, fun _ => rfl⟩
  | obj ms =>
    obtain ⟨s, hs, rfl⟩ := map_eq_ok (show some <$> decode (.obj ms) = .ok x from h)
    exact ⟨s, hs, fun _ => rfl⟩
  | arr items => exact ⟨default, rfl, fun hne => (hne items rfl).elim⟩
  | _ => cases h

theorem generation_eq_none (ho : Entries.Ordered ms) (h : decode (.obj ms) = .ok s) :
    s.observedGeneration = none ↔ (Json.obj ms).get "observedGeneration" = .null := by
  have hread := (decode_obj.1 h).2
  rw [optional_eq ho] at hread
  show _ ↔ (Entries.find? "observedGeneration" ms).getD .null = .null
  cases hfind : Entries.find? "observedGeneration" ms with
  | none =>
    rw [hfind] at hread
    exact iff_of_true (Except.ok.inj hread).symm rfl
  | some v =>
    rw [hfind] at hread
    change Option.join <$> some <$> option int64 v = _ at hread
    obtain ⟨y, hy, hjoin⟩ := map_eq_ok hread
    obtain ⟨n, hn, rfl⟩ := map_eq_ok hy
    rw [← hjoin]
    cases v with
    | null => exact iff_of_true (Except.ok.inj hn).symm rfl
    | _ =>
      obtain ⟨m, -, rfl⟩ := map_eq_ok (show some <$> int64 _ = .ok n from hn)
      exact iff_of_false nofun nofun

theorem decode_merge (ho : Entries.Ordered ms) (h : decode (.obj ms) = .ok s)
    (hs : s'.conditions ≠ []) : decode ((Json.obj ms).merge s'.toJson) =
      .ok ⟨s'.conditions, s'.observedGeneration <|> s.observedGeneration⟩ := by
  have ht := Json.isTable_merge (v := .obj ms) ho s'.isTable_toJson
  have hfind := fun k => Json.find?_merge (.obj ms) s'.isTable_toJson k
  obtain ⟨_, hgeneration⟩ := decode_obj.1 h
  rw [optional_eq ho] at hgeneration
  cases hm : (Json.obj ms).merge s'.toJson with
  | obj ms' =>
    rw [hm] at ht hfind
    have ho' : Entries.Ordered ms' := ht.ordered
    refine decode_obj.2 ⟨?_, ?_⟩
    · rw [withDefault_eq ho', show Entries.find? "conditions" ms' = _ from hfind "conditions",
        find?_toJson_conditions hs]
      show (fun a => a.getD []) <$> some <$> list Condition.decode (.arr _) = _
      rw [list_map fun c _ => c.decode_toJson]
      rfl
    · rw [optional_eq ho', show Entries.find? "observedGeneration" ms' = _ from
        hfind "observedGeneration", find?_toJson_generation]
      cases hg : s'.observedGeneration with
      | none => exact hgeneration
      | some n =>
        show Option.join <$> some <$> some <$> int64 (.int n.toInt) = _
        rw [int64_toInt]
        rfl
  | _ =>
    rw [hm] at ht
    cases ht.isObject

end Status
end ConnectorControl
