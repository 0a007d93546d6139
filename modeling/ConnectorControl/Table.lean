/-!
# Tables in key order

A table is kept as its list of entries, and the keys of an ordered list of entries strictly
increase.  `find?_insert` and `find?_erase` say what the two changes do to the look-ups of ANY
list of entries; `Ordered.ext` says that an ordered list is known by its look-ups, so two tables
that answer alike are the same table.

`Table` bundles the entries with their order.
-/

namespace ConnectorControl

universe u v w

variable {κ : Type u} {β : Type v} {γ : Type w}

namespace Entries

/-! ## the operations -/

/-- the value of the first entry under a key -/
def find? [DecidableEq κ] (k : κ) : List (κ × β) → Option β
  | [] => none
  | (k', v) :: rest => if k = k' then some v else find? k rest

/-- puts an entry at its place in the key order, over one of the same key -/
def insert [Ord κ] (k : κ) (v : β) : List (κ × β) → List (κ × β)
  | [] => [(k, v)]
  | (k', v') :: rest =>
    match compare k k' with
    | .lt => (k, v) :: (k', v') :: rest
    | .eq => (k, v) :: rest
    | .gt => (k', v') :: insert k v rest

/-- drops every entry of a key -/
def erase [DecidableEq κ] (k : κ) (es : List (κ × β)) : List (κ × β) :=
  es.filter fun e => e.1 ≠ k

/-- inserts the entries in turn, so that a later one wins -/
def ofList [Ord κ] (es : List (κ × β)) : List (κ × β) :=
  es.foldl (fun t e => insert e.1 e.2 t) []

/-- applies a function to each value -/
def mapValues (f : β → γ) (es : List (κ × β)) : List (κ × γ) :=
  es.map fun e => (e.1, f e.2)

/-- the keys strictly increase -/
def Ordered [Ord κ] (es : List (κ × β)) : Prop :=
  es.Pairwise fun a b => compare a.1 b.1 = .lt

instance [Ord κ] (es : List (κ × β)) : Decidable (Ordered es) :=
  inferInstanceAs (Decidable (List.Pairwise _ _))

/-! ## look-ups -/

section find
variable [DecidableEq κ]

@[simp] theorem find?_nil (k : κ) : find? k ([] : List (κ × β)) = none := rfl

theorem find?_cons (k k' : κ) (v : β) (es : List (κ × β)) :
    find? k ((k', v) :: es) = if k = k' then some v else find? k es := rfl

theorem find?_erase (k k' : κ) (es : List (κ × β)) :
    find? k (erase k' es) = if k = k' then none else find? k es := by
  induction es with
  | nil => simp [erase]
  | cons e es ih =>
    obtain ⟨a, v⟩ := e
    by_cases h : a = k'
    · subst h
      have : erase a ((a, v) :: es) = erase a es := by simp [erase]
      rw [this, ih, find?_cons]
      by_cases hk : k = a <;> simp [hk]
    · have : erase k' ((a, v) :: es) = (a, v) :: erase k' es := by simp [erase, h]
      rw [this, find?_cons, find?_cons, ih]
      by_cases hk : k = a
      · subst hk; simp [h]
      · simp [hk]

theorem find?_eq_none {k : κ} {es : List (κ × β)} :
    find? k es = none ↔ ∀ e ∈ es, e.1 ≠ k := by
  induction es with
  | nil => simp
  | cons e es ih =>
    obtain ⟨a, v⟩ := e
    rw [find?_cons]
    by_cases h : k = a
    · simp [h]
    · simp [h, ih, Ne.symm h]

theorem mem_of_find? {k : κ} {v : β} {es : List (κ × β)} (h : find? k es = some v) :
    (k, v) ∈ es := by
  induction es with
  | nil => simp at h
  | cons e es ih =>
    obtain ⟨a, w⟩ := e
    rw [find?_cons] at h
    by_cases hk : k = a
    · simp [hk] at h; simp [hk, h]
    · simp only [hk, if_false] at h
      exact List.mem_cons_of_mem _ (ih h)

theorem find?_mapValues (f : β → γ) (k : κ) (es : List (κ × β)) :
    find? k (mapValues f es) = (find? k es).map f := by
  induction es with
  | nil => rfl
  | cons e es ih =>
    obtain ⟨a, v⟩ := e
    simp only [mapValues, List.map_cons, find?_cons] at ih ⊢
    by_cases h : k = a
    · simp [h]
    · simp [h, ih]

variable [Ord κ] [Std.LawfulEqOrd κ]

theorem find?_insert (k k' : κ) (v : β) (es : List (κ × β)) :
    find? k (insert k' v es) = if k = k' then some v else find? k es := by
  induction es with
  | nil => rfl
  | cons e es ih =>
    obtain ⟨a, w⟩ := e
    rw [insert]
    split
    · rfl
    · next h =>
      obtain rfl := Std.LawfulEqOrd.eq_of_compare h
      simp only [find?_cons]
      by_cases hk : k = k' <;> simp [hk]
    · next h =>
      have hne : k' ≠ a := by rintro rfl; simp at h
      rw [find?_cons, find?_cons, ih]
      by_cases hk : k = a
      · subst hk; simp [Ne.symm hne]
      · simp [hk]

end find

/-! ## order -/

section order
variable [Ord κ]

@[simp] theorem ordered_nil : Ordered ([] : List (κ × β)) := List.Pairwise.nil

theorem ordered_cons {e : κ × β} {es : List (κ × β)} :
    Ordered (e :: es) ↔ (∀ e' ∈ es, compare e.1 e'.1 = .lt) ∧ Ordered es :=
  List.pairwise_cons

theorem Ordered.erase [DecidableEq κ] {es : List (κ × β)} (h : Ordered es) (k : κ) :
    Ordered (erase k es) :=
  h.filter _

theorem Ordered.mapValues {es : List (κ × β)} (h : Ordered es) (f : β → γ) :
    Ordered (mapValues f es) :=
  List.pairwise_map.2 (h.imp fun h => h)

theorem mem_insert {k : κ} {v : β} {es : List (κ × β)} {e : κ × β} (h : e ∈ insert k v es) :
    e = (k, v) ∨ e ∈ es := by
  induction es with
  | nil => simpa [insert] using h
  | cons a es ih =>
    obtain ⟨a, w⟩ := a
    rw [insert] at h
    split at h
    · simpa using h
    · rcases List.mem_cons.1 h with h | h
      · exact .inl h
      · exact .inr (List.mem_cons_of_mem _ h)
    · rcases List.mem_cons.1 h with h | h
      · exact .inr (h ▸ List.mem_cons_self)
      · rcases ih h with h | h
        · exact .inl h
        · exact .inr (List.mem_cons_of_mem _ h)

variable [Std.TransOrd κ]

theorem Ordered.insert {es : List (κ × β)} (h : Ordered es) (k : κ) (v : β) :
    Ordered (insert k v es) := by
  induction es with
  | nil => simp [Entries.insert, ordered_cons]
  | cons a es ih =>
    obtain ⟨a, w⟩ := a
    obtain ⟨h₁, h₂⟩ := ordered_cons.1 h
    rw [Entries.insert]
    split
    · next hc =>
      refine ordered_cons.2 ⟨fun e he => ?_, h⟩
      rcases List.mem_cons.1 he with rfl | he
      · exact hc
      · exact Std.TransCmp.lt_trans hc (h₁ e he)
    · next hc =>
      refine ordered_cons.2 ⟨fun e he => ?_, h₂⟩
      exact Std.TransCmp.lt_of_eq_of_lt hc (h₁ e he)
    · next hc =>
      refine ordered_cons.2 ⟨fun e he => ?_, ih h₂⟩
      rcases mem_insert he with rfl | he
      · exact Std.OrientedCmp.lt_of_gt hc
      · exact h₁ e he

theorem ordered_foldl_insert (es t : List (κ × β)) (h : Ordered t) :
    Ordered (es.foldl (fun t e => Entries.insert e.1 e.2 t) t) := by
  induction es generalizing t with
  | nil => exact h
  | cons e es ih => exact ih _ (h.insert _ _)

theorem ordered_ofList (es : List (κ × β)) : Ordered (ofList es) :=
  ordered_foldl_insert es [] ordered_nil

theorem Ordered.foldl_insert_append {a b : List (κ × β)} (h : Ordered (a ++ b)) :
    b.foldl (fun t e => Entries.insert e.1 e.2 t) a = a ++ b := by
  induction b generalizing a with
  | nil => simp
  | cons e b ih =>
    obtain ⟨k, v⟩ := e
    have hins : ∀ l : List (κ × β), (∀ x ∈ l, compare x.1 k = .lt) →
        Entries.insert k v l = l ++ [(k, v)] := by
      intro l hl
      induction l with
      | nil => rfl
      | cons x l ihl =>
        obtain ⟨x, w⟩ := x
        have hx : compare k x = .gt := Std.OrientedCmp.gt_of_lt (hl (x, w) List.mem_cons_self)
        rw [Entries.insert, hx]
        simp only [List.cons_append, ihl fun y hy => hl y (List.mem_cons_of_mem _ hy)]
    have ha : Entries.insert k v a = a ++ [(k, v)] :=
      hins a fun x hx => (List.pairwise_append.1 h).2.2 x hx (k, v) List.mem_cons_self
    simp only [List.foldl_cons, ha]
    rw [ih (by simpa using h)]
    simp

/-- entries already in order are their own table -/
theorem Ordered.ofList_eq {es : List (κ × β)} (h : Ordered es) : ofList es = es := by
  have := Ordered.foldl_insert_append (b := es) (a := []) (by simpa using h)
  simpa [ofList] using this

variable [DecidableEq κ] [Std.LawfulEqOrd κ]

omit [Std.TransOrd κ] in
theorem Ordered.find?_head {k : κ} {v : β} {es : List (κ × β)} (h : Ordered ((k, v) :: es)) :
    find? k es = none := by
  refine find?_eq_none.2 fun e he hk => ?_
  have := (ordered_cons.1 h).1 e he
  simp [hk] at this

/-- an ordered list of entries is known by its look-ups -/
theorem Ordered.ext {a b : List (κ × β)} (ha : Ordered a) (hb : Ordered b)
    (h : ∀ k, find? k a = find? k b) : a = b := by
  induction a generalizing b with
  | nil =>
    cases b with
    | nil => rfl
    | cons e b =>
      obtain ⟨k, v⟩ := e
      have := h k
      simp [find?_cons] at this
  | cons e a ih =>
    obtain ⟨k, v⟩ := e
    cases b with
    | nil => have := h k; simp [find?_cons] at this
    | cons e' b =>
      obtain ⟨k', v'⟩ := e'
      have hkk : k = k' := by
        rcases hc : compare k k' with _ | _ | _
        · have h1 := h k
          have : ∀ e ∈ (k', v') :: b, e.1 ≠ k := by
            rintro e he rfl
            rcases List.mem_cons.1 he with rfl | he
            · simp at hc
            · have := Std.TransCmp.lt_trans hc ((ordered_cons.1 hb).1 e he)
              simp at this
          rw [find?_eq_none.2 this] at h1
          simp [find?_cons] at h1
        · exact Std.LawfulEqOrd.eq_of_compare hc
        · have hc' : compare k' k = .lt := Std.OrientedCmp.lt_of_gt hc
          have h1 := h k'
          have : ∀ e ∈ (k, v) :: a, e.1 ≠ k' := by
            rintro e he rfl
            rcases List.mem_cons.1 he with rfl | he
            · simp at hc
            · have := Std.TransCmp.lt_trans hc' ((ordered_cons.1 ha).1 e he)
              simp at this
          rw [find?_eq_none.2 this] at h1
          simp [find?_cons] at h1
      subst hkk
      have hv : v = v' := by have := h k; simpa [find?_cons] using this
      subst hv
      congr 1
      refine ih (ordered_cons.1 ha).2 (ordered_cons.1 hb).2 fun k₀ => ?_
      by_cases hk : k₀ = k
      · subst hk; rw [ha.find?_head, hb.find?_head]
      · have := h k₀; simpa [find?_cons, hk] using this

end order

end Entries

/-! ## entries with their order -/

/-- finitely many entries in key order, one to a key -/
structure Table (κ : Type u) (β : Type v) [Ord κ] where
  entries : List (κ × β)
  ordered : Entries.Ordered entries

namespace Table

section
variable [Ord κ]

theorem eq_of_entries : {a b : Table κ β} → a.entries = b.entries → a = b
  | ⟨_, _⟩, ⟨_, _⟩, rfl => rfl

instance [DecidableEq κ] [DecidableEq β] : DecidableEq (Table κ β) := fun a b =>
  if h : a.entries = b.entries then .isTrue (eq_of_entries h)
  else .isFalse fun e => h (e ▸ rfl)

/-- no entries -/
def empty : Table κ β := ⟨[], Entries.ordered_nil⟩

instance : EmptyCollection (Table κ β) := ⟨empty⟩
instance : Inhabited (Table κ β) := ⟨empty⟩

def isEmpty (t : Table κ β) : Bool := t.entries.isEmpty

def keys (t : Table κ β) : List κ := t.entries.map (·.1)

def mapValues (f : β → γ) (t : Table κ β) : Table κ γ :=
  ⟨Entries.mapValues f t.entries, t.ordered.mapValues f⟩

section
variable [DecidableEq κ]

def find? (t : Table κ β) (k : κ) : Option β := Entries.find? k t.entries

def erase (t : Table κ β) (k : κ) : Table κ β := ⟨Entries.erase k t.entries, t.ordered.erase k⟩

def contains (t : Table κ β) (k : κ) : Bool := (t.find? k).isSome

theorem find?_erase (t : Table κ β) (k k' : κ) :
    (t.erase k').find? k = if k = k' then none else t.find? k :=
  Entries.find?_erase k k' t.entries

@[simp] theorem find?_empty (k : κ) : (∅ : Table κ β).find? k = none := rfl

end

variable [Std.TransOrd κ]

def insert (t : Table κ β) (k : κ) (v : β) : Table κ β :=
  ⟨Entries.insert k v t.entries, t.ordered.insert k v⟩

/-- the table of a list of entries, where a later one wins -/
def ofList (es : List (κ × β)) : Table κ β := ⟨Entries.ofList es, Entries.ordered_ofList es⟩

theorem ofList_entries (t : Table κ β) : ofList t.entries = t :=
  eq_of_entries t.ordered.ofList_eq

variable [DecidableEq κ] [Std.LawfulEqOrd κ]

theorem find?_insert (t : Table κ β) (k k' : κ) (v : β) :
    (t.insert k' v).find? k = if k = k' then some v else t.find? k :=
  Entries.find?_insert k k' v t.entries

/-- tables that answer alike are the same -/
theorem ext_find? {a b : Table κ β} (h : ∀ k, a.find? k = b.find? k) : a = b :=
  eq_of_entries (a.ordered.ext b.ordered h)

end

end Table

end ConnectorControl
