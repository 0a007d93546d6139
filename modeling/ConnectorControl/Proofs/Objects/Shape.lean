import ConnectorControl.Objects.Shape
import ConnectorControl.Proofs.Json.Decoding

/-!
# Reading and writing records by their shape

A value of a shape is written without nulls, whatever the shape (`Shape.clean_toJson`), and it is
read back if no record in the shape has two members of one name (`Shape.decode_toJson`).  Both go
over the shape and the members of its records at once.
-/

namespace ConnectorControl

open Decode Json

namespace IntOrString

theorem decode_toJson (x : IntOrString) : decode x.toJson = .ok x := by
  cases x with
  | int n =>
    show int <$> int32 (.int n.toInt) = _
    rw [int32_toInt]
    rfl
  | str s => rfl

theorem clean_toJson (x : IntOrString) : x.toJson.Clean := by
  cases x with
  | int n => exact clean_int _
  | str s => exact clean_str s

end IntOrString

namespace Shape

mutual

/-- no record in the shape has two members of one name -/
def Distinct : Shape → Prop
  | .list item => item.Distinct
  | .record _ ms => (ms.map (·.1)).Nodup ∧ DistinctMembers ms
  | _ => True

def DistinctMembers : List (String × Bool × Shape) → Prop
  | [] => True
  | (_, _, s) :: ms => s.Distinct ∧ DistinctMembers ms

end

mutual

def decDistinct : (s : Shape) → Decidable s.Distinct
  | .text | .flag | .int32 | .int64 | .intOrText | .texts => .isTrue trivial
  | .list item => item.decDistinct
  | .record _ ms =>
    let _ := decDistinctMembers ms
    inferInstanceAs (Decidable (_ ∧ _))

def decDistinctMembers : (ms : List (String × Bool × Shape)) → Decidable (DistinctMembers ms)
  | [] => .isTrue trivial
  | (_, _, s) :: ms =>
    let _ := s.decDistinct
    let _ := decDistinctMembers ms
    inferInstanceAs (Decidable (_ ∧ _))

end

instance (s : Shape) : Decidable s.Distinct := s.decDistinct

/-! ## writing -/

theorem written_names : ∀ (ms : List (String × Bool × Shape)) (x : Values ms),
    (written ms x).map (·.1) = ms.map (·.1)
  | [], _ => rfl
  | (name, true, _) :: ms, x => congrArg (name :: ·) (written_names ms x.2)
  | (name, false, _) :: ms, x => congrArg (name :: ·) (written_names ms x.2)

theorem find?_written {ms : List (String × Bool × Shape)} (h : (ms.map (·.1)).Nodup)
    (x : Values ms) : ∀ m ∈ written ms x, (objectOfSet (written ms x)).find? m.1 = m.2 := by
  intro m hm
  rw [← written_names ms x] at h
  rw [find?_objectOfSet h, Entries.find?_of_mem_of_nodup h hm]
  rfl

mutual

theorem clean_toJson : ∀ (s : Shape) (x : s.Value), (s.toJson x).Clean
  | .text, x => clean_str x
  | .flag, x => clean_bool x
  | .int32, x => clean_int (Int32.toInt x)
  | .int64, x => clean_int (Int64.toInt x)
  | .intOrText, x => IntOrString.clean_toJson x
  | .texts, x => clean_ofStringTable x
  | .list item, _ => clean_list item.clean_toJson _
  | .record _ ms, x => clean_objectOfSet (clean_written ms x)

theorem clean_written : ∀ (ms : List (String × Bool × Shape)) (x : Values ms),
    ∀ m ∈ written ms x, ∀ v, m.2 = some v → v.Clean
  | [], _ => List.forall_mem_nil _
  | (_, true, s) :: ms, x =>
    List.forall_mem_cons.2 ⟨clean_of_some (s.clean_toJson x.1), clean_written ms x.2⟩
  | (_, false, s) :: ms, x =>
    List.forall_mem_cons.2 ⟨clean_of_map s.clean_toJson x.1, clean_written ms x.2⟩

end

/-! ## reading back -/

mutual

theorem decode_toJson : ∀ (s : Shape), s.Distinct → ∀ x : s.Value, s.decode (s.toJson x) = .ok x
  | .text, _, _ => rfl
  | .flag, _, _ => rfl
  | .int32, _, x => int32_toInt x
  | .int64, _, x => int64_toInt x
  | .intOrText, _, x => IntOrString.decode_toJson x
  | .texts, _, x => table_ofStringTable x
  | .list item, h, _ => list_map fun x _ => item.decode_toJson h x
  | .record _ ms, h, x =>
    decodeMembers_of_find? ms h.2 x (isTable_objectOfSet _).ordered (find?_written h.1 x)

/-- a record is read from members that are as they would be written -/
theorem decodeMembers_of_find? : ∀ (ms : List (String × Bool × Shape)), DistinctMembers ms →
    ∀ (x : Values ms) {given : List (String × Json)}, Entries.Ordered given →
      (∀ m ∈ written ms x, Entries.find? m.1 given = m.2) → decodeMembers ms given = .ok x
  | [], _, _, _, _, _ => rfl
  | (name, true, s) :: ms, h, x, given, ho, hfind => by
    obtain ⟨hx, hrest⟩ := List.forall_mem_cons.1 hfind
    have hx : Entries.find? name given = (some x.1).map s.toJson := hx
    show (do
      let x ← Decode.optional given name s.decode
      return (x.getD s.empty, ← decodeMembers ms given)) = _
    rw [optional_of_map ho hx fun a _ => ⟨s.decode_toJson h.1 a, (s.clean_toJson a).isNull⟩,
      decodeMembers_of_find? ms h.2 x.2 ho hrest]
    rfl
  | (name, false, s) :: ms, h, x, given, ho, hfind => by
    obtain ⟨hx, hrest⟩ := List.forall_mem_cons.1 hfind
    have hx : Entries.find? name given = x.1.map s.toJson := hx
    show (do
      let x ← Decode.optional given name s.decode
      return (x, ← decodeMembers ms given)) = _
    rw [optional_of_map ho hx fun a _ => ⟨s.decode_toJson h.1 a, (s.clean_toJson a).isNull⟩,
      decodeMembers_of_find? ms h.2 x.2 ho hrest]
    rfl

end

section
variable {ms : List (String × Json)} (ho : Entries.Ordered ms) {k : String} {s : Shape}
  (hs : s.Distinct)

include ho hs

theorem optional_toJson {x : Option s.Value} (hk : Entries.find? k ms = x.map s.toJson) :
    Decode.optional ms k s.decode = .ok x :=
  optional_of_map ho hk fun a _ => ⟨s.decode_toJson hs a, (s.clean_toJson a).isNull⟩

theorem optional_list_toJson {x : Option (List s.Value)}
    (hk : Entries.find? k ms = x.map fun as => .arr (as.map s.toJson)) :
    Decode.optional ms k (Decode.list s.decode) = .ok x :=
  optional_of_map ho hk fun _ _ => ⟨list_map fun a _ => s.decode_toJson hs a, rfl⟩

end

end Shape
end ConnectorControl
