import ConnectorControl.Pass.Prune
import ConnectorControl.Proofs.Store.Listing

/-!
# What pruning does

Pruning deletes stale objects one by one, kind by kind.  So it keeps whatever each such deletion
keeps (`ensures_deleteStale`), and once the stale objects of a kind are deleted they stay away.
-/

namespace ConnectorControl

theorem Derived.mem_prunable {kind : DerivedKind} : kind ∈ prunable ↔ kind ≠ .deployment := by
  cases kind <;> decide

namespace Pass

variable {d : Disturbance} {P : Call → Cluster → Prop} {s : Cluster} {ns uid selector : String}
  {kind : DerivedKind} {desired : List (DerivedKind × String)}

theorem isStale_iff {o : Object} : isStale desired uid kind o = true ↔
    (kind, o.metadata.nameAny) ∉ desired ∧ o.metadata.isControlledBy uid = true := by
  unfold isStale
  rw [Bool.and_eq_true, Bool.not_eq_true', ← Bool.not_eq_true, List.contains_iff_mem]

theorem deleteStale_filter (os : List Object) : deleteStale desired uid ns kind os =
    deleteStale desired uid ns kind (os.filter (isStale desired uid kind)) := by
  induction os with
  | nil => rfl
  | cons o os ih =>
    cases hst : isStale desired uid kind o with
    | true =>
      rw [List.filter_cons_of_pos hst, deleteStale, deleteStale, ih]
    | false =>
      rw [List.filter_cons_of_neg (by rw [hst]; exact nofun), deleteStale,
        if_neg (by rw [hst]; exact nofun), ih]

/-- stale objects are deleted, and what every deletion keeps is kept -/
theorem ensures_deleteStale {os : List Object} {J : Cluster → Prop}
    {E : Failure → Cluster → Prop}
    (hP : ∀ o ∈ os, isStale desired uid kind o = true →
      ∀ s, J s → P (.delete kind ns o.metadata.nameAny) s)
    (hJ : ∀ o ∈ os, isStale desired uid kind o = true →
      ∀ s, J s → J (s.remove ⟨kind, ns, o.metadata.nameAny⟩))
    (hE : ∀ e s, ¬d.Quiet → J s → E e s) (hs : J s) :
    Ensures d P (deleteStale desired uid ns kind os) s
      (fun _ s' => J s' ∧ ((∀ c, ¬d.hides c) → ∀ o ∈ os, isStale desired uid kind o = true →
        s'.find? ⟨kind, ns, o.metadata.nameAny⟩ = none)) E := by
  induction os generalizing s J with
  | nil => exact ⟨hs, fun _ o ho => absurd ho List.not_mem_nil⟩
  | cons o os ih =>
    have hP' := fun o' ho' => hP o' (List.mem_cons_of_mem _ ho')
    have hJ' := fun o' ho' => hJ o' (List.mem_cons_of_mem _ ho')
    unfold deleteStale
    by_cases hst : isStale desired uid kind o = true
    · rw [if_pos hst, ensures_bind]
      refine ensures_call.2 ⟨hP o List.mem_cons_self hst s hs, fun r s' hr => ?_⟩
      rcases hr.of_delete with ⟨e, rfl, rfl, hf⟩ | ⟨rfl, rfl, hh⟩ | ⟨rfl, rfl⟩
      · exact hE e _ (fun hd => (hd _).1 hf) hs
      · show Ensures d P (_ >>= _) _ _ E
        rw [ensures_bind]
        refine (ih hP' hJ' hE hs).mono_ok fun n s'' h => ?_
        exact ⟨h.1, fun hno => absurd hh (hno _)⟩
      · -- the object is gone from here on, which the other deletions keep
        show Ensures d P (_ >>= _) _ _ E
        rw [ensures_bind]
        let gone : Cluster → Prop := fun s => s.find? ⟨kind, ns, o.metadata.nameAny⟩ = none
        have hgone : gone (s.remove ⟨kind, ns, o.metadata.nameAny⟩) := by
          show Cluster.find? _ _ = none
          rw [Cluster.find?_remove, if_pos rfl]
        have hkeep : ∀ k s, gone s → gone (s.remove k) := by
          intro k s hg
          show Cluster.find? _ _ = none
          rw [Cluster.find?_remove]
          split
          · rfl
          · exact hg
        refine (ih (J := fun s => J s ∧ gone s) (fun o' ho' hst' s h => hP' o' ho' hst' s h.1)
          (fun o' ho' hst' s h => ⟨hJ' o' ho' hst' s h.1, hkeep _ s h.2⟩)
          (fun e s hd h => hE e s hd h.1)
          ⟨hJ o List.mem_cons_self hst s hs, hgone⟩).mono_ok fun n s'' h => ?_
        refine ⟨h.1.1, fun hno o' ho' hst' => ?_⟩
        rcases List.mem_cons.1 ho' with rfl | ho'
        · exact h.1.2
        · exact h.2 hno o' ho' hst'
    · rw [if_neg hst]
      refine (ih hP' hJ' hE hs).mono_ok fun n s' h => ⟨h.1, fun hno o' ho' hst' => ?_⟩
      rcases List.mem_cons.1 ho' with rfl | ho'
      · exact absurd hst' hst
      · exact h.2 hno o' ho' hst'

/-- kinds are pruned one after the other; `J` says what holds while some of them remain -/
theorem ensures_pruneKinds {kinds : List DerivedKind} {J : List DerivedKind → Cluster → Prop}
    {E : Failure → Cluster → Prop}
    (h : ∀ kind kinds s, J (kind :: kinds) s →
      Ensures d P (list kind ns selector) s (fun found s =>
        Ensures d P (deleteStale desired uid ns kind found) s (fun _ => J kinds) E) E)
    (hs : J kinds s) :
    Ensures d P (pruneKinds desired uid ns selector kinds) s (fun _ => J []) E := by
  induction kinds generalizing s with
  | nil => exact hs
  | cons kind kinds ih =>
    unfold pruneKinds
    rw [ensures_bind]
    refine (h kind kinds s hs).mono_ok fun found s₁ h₁ => ?_
    rw [ensures_bind]
    refine Ensures.mono_ok h₁ fun n s₂ h₂ => ?_
    rw [ensures_bind]
    exact (ih h₂).mono_ok fun _ _ h₃ => h₃

/-- pruning keeps whatever the deletion of an undesired object keeps -/
theorem ensures_prune {c : Connector} {I : Cluster → Prop} {E : Failure → Cluster → Prop}
    (hP : ∀ x s, I s → P x s)
    (hI : ∀ kind ∈ Derived.prunable, ∀ name s, (kind, name) ∉ desired → I s →
      I (s.remove ⟨kind, ns, name⟩))
    (hE : ∀ e s, I s → E e s) (hs : I s) :
    Ensures d P (prune c ns desired) s (fun _ => I) E := by
  unfold prune
  cases c.metadata.uid with
  | none => exact hs
  | some uid =>
    let J : List DerivedKind → Cluster → Prop := fun kinds s =>
      I s ∧ ∀ kind ∈ kinds, kind ∈ Derived.prunable
    refine (ensures_pruneKinds (J := J) (fun kind kinds s hJ => ?_)
      ⟨hs, fun _ hk => hk⟩).mono_ok fun _ _ h => h.1
    obtain ⟨hs, hkinds⟩ := hJ
    have hdelete : ∀ found,
        Ensures d P (deleteStale desired uid ns kind found) s (fun _ => J kinds) E := by
      intro found
      refine (ensures_deleteStale (J := I) (fun o _ _ s hs => hP _ s hs) (fun o _ hst s hs => ?_)
        (fun e s _ hs => hE e s hs) hs).mono_ok fun _ _ h =>
          ⟨h.1, fun kind' hk => hkinds kind' (List.mem_cons_of_mem _ hk)⟩
      exact hI kind (hkinds kind List.mem_cons_self) _ s (isStale_iff.1 hst).1 hs
    exact ensures_list (hP _ s hs) (fun found _ => hdelete found) (fun _ => hdelete [])
      fun e _ => hE e s hs

end Pass
end ConnectorControl
