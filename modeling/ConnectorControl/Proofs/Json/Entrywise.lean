import Mathlib.Data.List.Forall2
import ConnectorControl.Table

/-!
# Entries with the same keys

Two lists of entries go together (`Entries.Together R`) when they have the same keys in the same
order, and `R` relates the two values of each entry by its key.  Tables of lists that go together go
together (`Together.ofList`), and so do look-ups (`Together.find?`).
-/

namespace ConnectorControl

universe u v w

namespace Entries

variable {κ : Type u} {β : Type v} {γ : Type w} {R : κ → β → γ → Prop}

/-- the same keys in the same order, with related values -/
def Together (R : κ → β → γ → Prop) : List (κ × β) → List (κ × γ) → Prop :=
  List.Forall₂ fun e f => e.1 = f.1 ∧ R e.1 e.2 f.2

variable {es : List (κ × β)} {fs : List (κ × γ)}

theorem together_refl {R : κ → β → β → Prop} (h : ∀ k v, R k v v) (es : List (κ × β)) :
    Together R es es :=
  List.forall₂_same.2 fun e _ => ⟨rfl, h e.1 e.2⟩

/-- lists with the same keys go together as far as their values do not matter -/
theorem together_of_keys (h : es.map (·.1) = fs.map (·.1)) :
    Together (fun _ _ _ => True) es fs := by
  induction es generalizing fs with
  | nil =>
    obtain rfl := List.map_eq_nil_iff.1 h.symm
    exact .nil
  | cons e es ih =>
    cases fs with
    | nil => cases h
    | cons f fs =>
      rw [List.map_cons, List.map_cons, List.cons.injEq] at h
      exact .cons ⟨h.1, trivial⟩ (ih h.2)

/-- lists that become the same once their values are changed go together -/
theorem together_of_map {R : κ → β → β → Prop} {g : κ → β → β} {es fs : List (κ × β)}
    (h : (es.map fun e => (e.1, g e.1 e.2)) = fs.map fun f => (f.1, g f.1 f.2))
    (hR : ∀ k v w, (k, v) ∈ es → (k, w) ∈ fs → g k v = g k w → R k v w) : Together R es fs := by
  induction es generalizing fs with
  | nil =>
    obtain rfl := List.map_eq_nil_iff.1 h.symm
    exact .nil
  | cons e es ih =>
    cases fs with
    | nil => cases h
    | cons f fs =>
      obtain ⟨k, v⟩ := e
      obtain ⟨k', w⟩ := f
      rw [List.map_cons, List.map_cons, List.cons.injEq, Prod.mk.injEq] at h
      obtain ⟨⟨rfl, hvw⟩, hrest⟩ := h
      refine .cons ⟨rfl, hR k v w List.mem_cons_self List.mem_cons_self hvw⟩ (ih hrest ?_)
      exact fun k v w hv hw => hR k v w (List.mem_cons_of_mem _ hv) (List.mem_cons_of_mem _ hw)

theorem Together.append {es' : List (κ × β)} {fs' : List (κ × γ)} (h : Together R es fs)
    (h' : Together R es' fs') : Together R (es ++ es') (fs ++ fs') := List.rel_append h h'

theorem Together.filter {p : κ → Bool} (h : Together R es fs) :
    Together R (es.filter fun e => p e.1) (fs.filter fun f => p f.1) := by
  refine List.rel_filter (fun e f hef => ?_) h
  show p e.1 = true ↔ p f.1 = true
  rw [hef.1]

theorem Together.insert [Ord κ] {k : κ} {v : β} {w : γ} (h : Together R es fs) (hvw : R k v w) :
    Together R (insert k v es) (insert k w fs) := by
  induction h with
  | nil => exact .cons ⟨rfl, hvw⟩ .nil
  | @cons e f es fs hef hrest ih =>
    obtain ⟨k', v'⟩ := e
    obtain ⟨k'', w'⟩ := f
    obtain ⟨rfl, hrel⟩ : k' = k'' ∧ R k' v' w' := hef
    unfold Entries.insert
    split
    · exact .cons ⟨rfl, hvw⟩ (.cons ⟨rfl, hrel⟩ hrest)
    · exact .cons ⟨rfl, hvw⟩ hrest
    · exact .cons ⟨rfl, hrel⟩ ih

theorem Together.ofList [Ord κ] (h : Together R es fs) : Together R (ofList es) (ofList fs) := by
  suffices hfold : ∀ {a : List (κ × β)} {b : List (κ × γ)}, Together R a b →
      Together R (es.foldl (fun t e => Entries.insert e.1 e.2 t) a)
        (fs.foldl (fun t f => Entries.insert f.1 f.2 t) b) from hfold .nil
  induction h with
  | nil => exact fun hab => hab
  | @cons e f es fs hef _ ih =>
    obtain ⟨k, v⟩ := e
    obtain ⟨k', w⟩ := f
    obtain ⟨rfl, hrel⟩ : k = k' ∧ R k v w := hef
    exact fun hab => ih (hab.insert hrel)

theorem Together.find? [DecidableEq κ] (h : Together R es fs) (k : κ) :
    Option.Rel (R k) (find? k es) (find? k fs) := by
  induction h with
  | nil => exact .none
  | @cons e f es fs hef _ ih =>
    obtain ⟨k', v⟩ := e
    obtain ⟨k'', w⟩ := f
    obtain ⟨rfl, hrel⟩ : k' = k'' ∧ R k' v w := hef
    rw [find?_cons, find?_cons]
    by_cases hk : k = k'
    · subst hk
      rw [if_pos rfl, if_pos rfl]
      exact .some hrel
    · rw [if_neg hk, if_neg hk]
      exact ih

end Entries
end ConnectorControl
