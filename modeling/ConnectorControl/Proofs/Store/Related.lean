import ConnectorControl.Proofs.Store.Asks
import ConnectorControl.Proofs.Store.Listing

/-!
# Stores that are related value by value

Two clusters are related (`Cluster.Related R`) when they have values under the same keys, and `R`
relates the two that are under a key, by its kind.  On a kind where `R` is equality (`Settles`) both
answer every call alike, and they stay related (`Related.answer`).

A fault takes a call on both sides of two worlds or on neither (`World.answer_both`).
-/

namespace ConnectorControl

def Settles (R : Kind → Json → Json → Prop) (kind : Kind) : Prop := ∀ v w, R kind v w ↔ v = w

structure Cluster.Related (R : Kind → Json → Json → Prop) (s t : Cluster) : Prop where
  created : s.created = t.created
  values : ∀ k, Option.Rel (R k.kind) (s.find? k) (t.find? k)

namespace Cluster.Related

variable {R : Kind → Json → Json → Prop} {s t : Cluster} {k : ObjectKey} {v w : Json} {c : Call}

theorem empty : Cluster.empty.Related R Cluster.empty := ⟨rfl, fun _ => .none⟩

theorem isSome_eq (h : s.Related R t) (k : ObjectKey) :
    (s.find? k).isSome = (t.find? k).isSome := by
  have hk := h.values k
  generalize s.find? k = x at hk
  generalize t.find? k = y at hk
  cases hk <;> rfl

theorem find?_eq (h : s.Related R t) (hk : Settles R k.kind) : s.find? k = t.find? k := by
  have hvalues := h.values k
  generalize s.find? k = x at hvalues
  generalize t.find? k = y at hvalues
  cases hvalues with
  | some hvw => rw [(hk _ _).1 hvw]
  | none => rfl

theorem set (h : s.Related R t) (hvw : R k.kind v w) : (s.set k v).Related R (t.set k w) := by
  refine ⟨h.created, fun k' => ?_⟩
  rw [find?_set, find?_set]
  split
  next he =>
    subst he
    exact .some hvw
  · exact h.values k'

theorem add (h : s.Related R t) (hvw : R k.kind v w) : (s.add k v).Related R (t.add k w) :=
  ⟨congrArg (· + 1) h.created, (h.set hvw).values⟩

theorem remove (h : s.Related R t) : (s.remove k).Related R (t.remove k) := by
  refine ⟨h.created, fun k' => ?_⟩
  rw [find?_remove, find?_remove]
  split
  · exact .none
  · exact h.values k'

theorem write?_eq (h : s.Related R t) (c : Call) : write? c s = write? c t := by
  unfold write?
  rw [contains_eq, contains_eq, h.isSome_eq]

/-- related stores reply alike to what concerns a kind of which they hold the same -/
theorem answer (h : s.Related R t) (hc : Settles R c.kind) :
    (answer c s).1 = (answer c t).1 ∧ (answer c s).2.Related R (answer c t).2 := by
  have hrefl : ∀ v, R c.kind v v := fun v => (hc v v).2 rfl
  cases c with
  | get kind ns name =>
    have hfind : s.find? ⟨kind, ns, name⟩ = t.find? ⟨kind, ns, name⟩ := h.find?_eq hc
    unfold Cluster.answer
    simp only [hfind]
    cases t.find? ⟨kind, ns, name⟩ <;> exact ⟨rfl, h⟩
  | list kind ns selector =>
    have hselect : s.select kind ns selector = t.select kind ns selector :=
      select_congr fun name => h.find?_eq hc
    unfold Cluster.answer
    dsimp only
    rw [hselect]
    exact ⟨rfl, h⟩
  | create kind ns o =>
    have hthere := h.isSome_eq ⟨kind, ns, o.metadata.name.getD ""⟩
    have hstamp : s.stamp ns o = t.stamp ns o := by
      unfold stamp
      rw [h.created]
    unfold Cluster.answer
    dsimp only
    rw [contains_eq, contains_eq, hthere, hstamp]
    split
    · exact ⟨rfl, h⟩
    · exact ⟨rfl, h.add (hrefl _)⟩
  | patch kind ns name body =>
    have hfind : s.find? ⟨kind, ns, name⟩ = t.find? ⟨kind, ns, name⟩ := h.find?_eq hc
    simp only [Cluster.answer, patchObject, hfind]
    cases t.find? ⟨kind, ns, name⟩ with
    | none => exact ⟨rfl, h⟩
    | some v => exact ⟨rfl, h.set (hrefl _)⟩
  | patchStatus kind ns name body =>
    have hfind : s.find? ⟨kind, ns, name⟩ = t.find? ⟨kind, ns, name⟩ := h.find?_eq hc
    simp only [Cluster.answer, patchObject, hfind]
    cases t.find? ⟨kind, ns, name⟩ with
    | none => exact ⟨rfl, h⟩
    | some v => exact ⟨rfl, h.set (hrefl _)⟩
  | delete kind ns name =>
    unfold Cluster.answer
    dsimp only
    rw [contains_eq, contains_eq, h.isSome_eq]
    exact ⟨rfl, h.remove⟩

end Cluster.Related

/-- What holds of the replies of two stores behind the same faults, and of what a fault replies,
holds of the replies of two worlds. -/
theorem World.answer_both {c : Call} {v w : World} (hfaults : v.faults = w.faults)
    {Q : c.Reply × World → c.Reply × World → Prop}
    (hpass : ∀ faults, Q (passOn c { v with faults }) (passOn c { w with faults }))
    (hfail : ∀ e faults, Q (.error e, { v with faults }) (.error e, { w with faults }))
    (hhidden : ∀ a faults, Fault.hidden c = some a →
      Q (.ok a, { v with faults }) (.ok a, { w with faults })) : Q (answer c v) (answer c w) := by
  unfold answer
  rw [hfaults]
  rcases Fault.take c w.faults with ⟨_ | fault, faults⟩
  · exact hpass faults
  · dsimp only
    split
    · exact hfail _ faults
    next _ _ a _ ha => exact hhidden a faults ha
    · exact hpass faults

end ConnectorControl
