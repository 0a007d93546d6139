import ConnectorControl.Json.Decode
import ConnectorControl.Proofs.Json.Stripped

/-!
# Decoders on objects in key order

In an object with its members in key order a name stands for one member at most, so a member is
read from its look-up (`member?_eq`, `optional_eq`).  What the writers make of plain values, lists
and tables is read back as it was.  Whether reading succeeds at all (`Succeeds`) is a matter of its
parts.
-/

namespace ConnectorControl
namespace Decode

variable {α β : Type}

theorem bind_eq_ok {γ δ : Type} {x : Decoded γ} {f : γ → Decoded δ} {b : δ}
    (h : x >>= f = .ok b) : ∃ a, x = .ok a ∧ f a = .ok b := by
  cases x with
  | error e => cases h
  | ok a => exact ⟨a, rfl, h⟩

theorem map_eq_ok {γ δ : Type} {x : Decoded γ} {f : γ → δ} {b : δ} (h : f <$> x = .ok b) :
    ∃ a, x = .ok a ∧ f a = b := by
  cases x with
  | error e => cases h
  | ok a => exact ⟨a, rfl, Except.ok.inj h⟩

/-! ## members -/

theorem named_eq {ms : List (String × Json)} (h : Entries.Ordered ms) (k : String) :
    named ms k = (Entries.find? k ms).toList := by
  induction ms with
  | nil => rfl
  | cons m ms ih =>
    obtain ⟨k', v⟩ := m
    have ih := ih (Entries.ordered_cons.1 h).2
    unfold named at ih ⊢
    rw [Entries.find?_cons]
    by_cases hk : k = k'
    · subst hk
      rw [h.find?_head] at ih
      rw [List.filter_cons_of_pos (by simp), List.map_cons, ih, if_pos rfl]
      rfl
    · rw [List.filter_cons_of_neg (by simpa using Ne.symm hk), ih, if_neg hk]

theorem named_erase (ms : List (String × Json)) {k k' : String} (h : k ≠ k') :
    named (Entries.erase k' ms) k = named ms k := by
  unfold named Entries.erase
  rw [List.filter_filter]
  congr 2
  funext m
  by_cases hm : m.1 = k
  · simp [hm, h]
  · simp [hm]

theorem named_insert (ms : List (String × Json)) {k k' : String} (v : Json) (h : k ≠ k') :
    named (Entries.insert k' v ms) k = named ms k := by
  unfold named
  congr 1
  induction ms with
  | nil => simp [Entries.insert, h.symm]
  | cons m ms ih =>
    obtain ⟨a, w⟩ := m
    rw [Entries.insert]
    split
    · rw [List.filter_cons_of_neg (by simpa using h.symm)]
    next hc =>
      obtain rfl := Std.LawfulEqOrd.eq_of_compare hc
      rw [List.filter_cons_of_neg (by simpa using h.symm),
        List.filter_cons_of_neg (by simpa using h.symm)]
    · rw [List.filter_cons, List.filter_cons, ih]

def ofMember (value : Decoder α) : Option Json → Decoded (Option α)
  | none => .ok none
  | some v => some <$> value v

theorem ofMember_eq_some {value : Decoder α} {v : Option Json} {a : α}
    (h : ofMember value v = .ok (some a)) : ∃ w, v = some w ∧ value w = .ok a := by
  cases v with
  | none => cases h
  | some w =>
    obtain ⟨b, hw, hb⟩ := map_eq_ok (show some <$> value w = .ok (some a) from h)
    obtain rfl := Option.some.inj hb
    exact ⟨w, rfl, hw⟩

theorem member?_eq {ms : List (String × Json)} (h : Entries.Ordered ms) (k : String)
    (value : Decoder α) : member? ms k value = ofMember value (Entries.find? k ms) := by
  unfold member?
  rw [named_eq h]
  cases Entries.find? k ms with
  | none => rfl
  | some v =>
    show (do let r ← [v].mapM value; pure r.getLast?) = some <$> value v
    rw [List.mapM_cons, List.mapM_nil]
    cases value v with
    | ok a => rfl
    | error e => rfl

theorem single?_eq {ms : List (String × Json)} (h : Entries.Ordered ms) (k : String)
    (value : Decoder α) : single? ms k value = ofMember value (Entries.find? k ms) := by
  unfold single?
  rw [named_eq h]
  cases Entries.find? k ms with
  | none => rfl
  | some v => rfl

theorem optional_eq {ms : List (String × Json)} (h : Entries.Ordered ms) (k : String)
    (value : Decoder α) :
    optional ms k value = Option.join <$> ofMember (option value) (Entries.find? k ms) := by
  unfold optional
  rw [member?_eq h]
  rfl

theorem withDefault_eq {ms : List (String × Json)} (h : Entries.Ordered ms) (k : String)
    (value : Decoder α) (default : α) :
    withDefault ms k value default =
      (fun a => a.getD default) <$> ofMember value (Entries.find? k ms) := by
  unfold withDefault
  rw [member?_eq h]
  rfl

theorem optional_of_map {ms : List (String × Json)} (h : Entries.Ordered ms) {k : String}
    {value : Decoder α} {write : α → Json} {x : Option α}
    (hk : Entries.find? k ms = x.map write)
    (hw : ∀ a, x = some a → value (write a) = .ok a ∧ (write a).isNull = false) :
    optional ms k value = .ok x := by
  rw [optional_eq h, hk]
  cases x with
  | none => rfl
  | some a =>
    obtain ⟨hv, hn⟩ := hw a rfl
    show Option.join <$> some <$> option value (write a) = _
    have : option value (write a) = some <$> value (write a) := by
      unfold option
      split
      next he => rw [he] at hn; cases hn
      · rfl
    rw [this, hv]
    rfl

theorem member?_of_find? {ms : List (String × Json)} (h : Entries.Ordered ms) {k : String}
    {value : Decoder α} {v : Json} {a : α} (hk : Entries.find? k ms = some v)
    (hv : value v = .ok a) : member? ms k value = .ok (some a) := by
  rw [member?_eq h, hk]
  show some <$> value v = _
  rw [hv]
  rfl

theorem withDefault_of_find? {ms : List (String × Json)} (h : Entries.Ordered ms) {k : String}
    {value : Decoder α} {v : Json} {a default : α} (hk : Entries.find? k ms = some v)
    (hv : value v = .ok a) : withDefault ms k value default = .ok a := by
  unfold withDefault
  rw [member?_of_find? h hk hv]
  rfl

/-- a member that is written unless it has its default is read back -/
theorem withDefault_of_ite {ms : List (String × Json)} (h : Entries.Ordered ms) {k : String}
    {value : Decoder α} {v : Json} {a default : α} {unset : Prop} [Decidable unset]
    (hk : Entries.find? k ms = if unset then none else some v) (hunset : unset → a = default)
    (hv : value v = .ok a) : withDefault ms k value default = .ok a := by
  by_cases hu : unset
  · rw [if_pos hu] at hk
    rw [withDefault_eq h, hk, hunset hu]
    rfl
  · rw [if_neg hu] at hk
    exact withDefault_of_find? h hk hv

theorem optional_string_of_find? {ms : List (String × Json)} (h : Entries.Ordered ms) {k s : String}
    (hk : Entries.find? k ms = some (.str s)) : optional ms k string = .ok (some s) := by
  have hmap : Entries.find? k ms = (some s).map Json.str := hk
  exact optional_of_map h hmap fun _ _ => ⟨rfl, rfl⟩

theorem find?_of_optional_string {ms : List (String × Json)} (h : Entries.Ordered ms) {k s : String}
    (hs : optional ms k string = .ok (some s)) : Entries.find? k ms = some (.str s) := by
  rw [optional_eq h] at hs
  cases hv : Entries.find? k ms with
  | none =>
    rw [hv] at hs
    cases hs
  | some v =>
    rw [hv] at hs
    cases v with
    | str s' =>
      obtain rfl := Option.some.inj (Except.ok.inj hs)
      rfl
    | _ => cases hs

/-! ## plain values -/

theorem int64_toInt (n : Int64) : int64 (.int n.toInt) = .ok n := by
  have hn : Int64.minValue.toInt ≤ n.toInt ∧ n.toInt ≤ Int64.maxValue.toInt :=
    ⟨Int64.le_toInt n, Int64.toInt_le n⟩
  unfold int64 intWithin
  simp only [hn, and_self, if_true]
  show Except.ok (Int64.ofInt n.toInt) = _
  rw [Int64.ofInt_toInt]

theorem int32_toInt (n : Int32) : int32 (.int n.toInt) = .ok n := by
  have hn : Int32.minValue.toInt ≤ n.toInt ∧ n.toInt ≤ Int32.maxValue.toInt :=
    ⟨Int32.le_toInt n, Int32.toInt_le n⟩
  unfold int32 intWithin
  simp only [hn, and_self, if_true]
  show Except.ok (Int32.ofInt n.toInt) = _
  rw [Int32.ofInt_toInt]

/-! ## lists and tables -/

theorem mapM_map {f : β → Decoded α} {write : α → β} {as : List α}
    (h : ∀ a ∈ as, f (write a) = .ok a) : (as.map write).mapM f = .ok as := by
  induction as with
  | nil => rfl
  | cons a as ih =>
    rw [List.map_cons, List.mapM_cons, h a List.mem_cons_self,
      ih fun b hb => h b (List.mem_cons_of_mem _ hb)]
    rfl

theorem list_map {item : Decoder α} {write : α → Json} {as : List α}
    (h : ∀ a ∈ as, item (write a) = .ok a) : list item (.arr (as.map write)) = .ok as :=
  mapM_map h

theorem list_ofStrings (ss : List String) : list string (.ofStrings ss) = .ok ss :=
  list_map fun _ _ => rfl

theorem table_mapValues {value : Decoder α} {write : α → Json}
    (h : ∀ a, value (write a) = .ok a) (t : Table String α) :
    table value (.obj (Entries.mapValues write t.entries)) = .ok t := by
  have hread : ((Entries.mapValues write t.entries).mapM fun m : String × Json =>
      (do return (m.1, ← value m.2) : Decoded (String × α))) = .ok t.entries :=
    mapM_map fun e _ => by
      show (do return (e.1, ← value (write e.2)) : Decoded (String × α)) = _
      rw [h e.2]
      rfl
  show (do return Table.ofList (← (Entries.mapValues write t.entries).mapM _) : Decoded _) = _
  rw [hread]
  show Except.ok (Table.ofList t.entries) = _
  rw [Table.ofList_entries]

theorem table_ofStringTable (t : Table String String) :
    table string (.ofStringTable t) = .ok t :=
  @table_mapValues String string Json.str (fun _ => rfl) t

/-! ## whether reading succeeds -/

def Succeeds (x : Decoded α) : Prop := ∃ a, x = .ok a

instance (x : Decoded α) : Decidable (Succeeds x) :=
  match x with
  | .ok a => .isTrue ⟨a, rfl⟩
  | .error _ => .isFalse nofun

theorem succeeds_bind {x : Decoded α} {f : α → Decoded β} {p : Prop}
    (hf : ∀ a, Succeeds (f a) ↔ p) : Succeeds (x >>= f) ↔ Succeeds x ∧ p := by
  constructor
  · rintro ⟨b, hb⟩
    obtain ⟨a, ha, hfa⟩ := bind_eq_ok hb
    exact ⟨⟨a, ha⟩, (hf a).1 ⟨b, hfa⟩⟩
  · rintro ⟨⟨a, rfl⟩, hp⟩
    exact (hf a).2 hp

theorem succeeds_bind_pure {x : Decoded α} {g : α → β} :
    Succeeds (x >>= fun a => pure (g a)) ↔ Succeeds x := by
  have hpure : ∀ a, Succeeds (pure (g a) : Decoded β) ↔ True := fun a =>
    iff_of_true ⟨g a, rfl⟩ trivial
  rw [succeeds_bind hpure, and_true]

theorem succeeds_map {x : Decoded α} {g : α → β} : Succeeds (g <$> x) ↔ Succeeds x := by
  cases x with
  | ok a => exact iff_of_true ⟨g a, rfl⟩ ⟨a, rfl⟩
  | error e => exact iff_of_false nofun nofun

theorem succeeds_optional {ms : List (String × Json)} (h : Entries.Ordered ms) {k : String}
    {value : Decoder α} : Succeeds (optional ms k value) ↔
      ∀ v, Entries.find? k ms = some v → Succeeds (option value v) := by
  rw [optional_eq h, succeeds_map]
  cases Entries.find? k ms with
  | none => exact iff_of_true ⟨none, rfl⟩ nofun
  | some v => simp [ofMember, succeeds_map]

theorem succeeds_mapM {f : α → Decoded β} {as : List α} :
    Succeeds (as.mapM f) ↔ ∀ a ∈ as, Succeeds (f a) := by
  induction as with
  | nil => exact iff_of_true ⟨[], rfl⟩ nofun
  | cons a as ih =>
    rw [List.mapM_cons, succeeds_bind fun _ => succeeds_bind_pure.trans ih, List.forall_mem_cons]

end Decode
end ConnectorControl
