import ConnectorControl.Proofs.Store.Disturbance

/-!
# What comes of each call

For every verb, the replies that a disturbance leaves open and the cluster after each of them.
Whatever a pass does is put together from these cases.
-/

namespace ConnectorControl

/-! ## clusters by their keys -/

namespace Cluster

def set (s : Cluster) (k : ObjectKey) (v : Json) : Cluster :=
  { s with objects := s.objects.insert k v }

def add (s : Cluster) (k : ObjectKey) (v : Json) : Cluster :=
  { objects := s.objects.insert k v, created := s.created + 1 }

variable (s : Cluster) (k k' : ObjectKey) (v : Json)

theorem find?_set : (s.set k v).find? k' = if k' = k then some v else s.find? k' :=
  s.objects.find?_insert k' k v

theorem find?_add : (s.add k v).find? k' = if k' = k then some v else s.find? k' :=
  s.objects.find?_insert k' k v

theorem find?_remove : (s.remove k).find? k' = if k' = k then none else s.find? k' :=
  s.objects.find?_erase k' k

theorem contains_eq : s.objects.contains k = (s.find? k).isSome := rfl

variable {s k v}

theorem exists_find?_remove {Q : Json → Prop} {k' : ObjectKey}
    (h : ∃ v, s.find? k = some v ∧ Q v) (hk : k ≠ k') :
    ∃ v, (s.remove k').find? k = some v ∧ Q v := by
  rw [find?_remove, if_neg hk]
  exact h

theorem find?_of_find?_remove {k' : ObjectKey}
    (h : (s.remove k).find? k' = some v) : s.find? k' = some v := by
  rw [find?_remove] at h
  split at h
  · cases h
  · exact h

/-- two clusters that answer alike under every key and have created as many objects are one -/
theorem eq_of_find? {t : Cluster} (h : ∀ k, s.find? k = t.find? k) (hc : s.created = t.created) :
    s = t := by
  have : s.objects = t.objects := Table.ext_find? h
  cases s
  cases t
  simp_all

theorem set_eq_self (h : s.find? k = some v) : s.set k v = s := by
  refine eq_of_find? (fun k' => ?_) rfl
  rw [find?_set]
  split
  next hk => rw [hk, h]
  · rfl

theorem remove_eq_self (h : s.find? k = none) : s.remove k = s := by
  refine eq_of_find? (fun k' => ?_) rfl
  rw [find?_remove]
  split
  next hk => rw [hk, h]
  · rfl

end Cluster

/-! ## replies by verb -/

namespace Cluster.Replies

variable {d : Disturbance} {s s' : Cluster} {kind : Kind} {ns name : String}

theorem of_get {r : (Call.get kind ns name).Reply}
    (h : Replies d (Call.get kind ns name) s r s') :
    s' = s ∧ ((∃ e, r = .error e ∧ d.fails (.get kind ns name)) ∨
      (r = .ok (none : Option Object) ∧
        (s.find? ⟨kind, ns, name⟩ = none ∨ d.hides (.get kind ns name))) ∨
      ∃ v, s.find? ⟨kind, ns, name⟩ = some v ∧ r = some <$> readObject v) := by
  cases h with
  | answered =>
    cases hv : s.find? ⟨kind, ns, name⟩ with
    | none =>
      have ha : answer (.get kind ns name) s = (.ok (none : Option Object), s) := by
        simp [answer, hv]
      rw [ha]
      exact ⟨rfl, .inr (.inl ⟨rfl, .inl rfl⟩)⟩
    | some v =>
      have ha : answer (.get kind ns name) s = (some <$> readObject v, s) := by
        simp only [answer, hv]
        rfl
      rw [ha]
      exact ⟨rfl, .inr (.inr ⟨v, rfl, rfl⟩)⟩
  | failed e hf => exact ⟨rfl, .inl ⟨e, rfl, hf⟩⟩
  | hidden a hh ha =>
    obtain rfl : none = a := Option.some.inj ha
    exact ⟨rfl, .inr (.inl ⟨rfl, .inr hh⟩)⟩

theorem of_list {selector : String} {r : (Call.list kind ns selector).Reply}
    (h : Replies d (Call.list kind ns selector) s r s') :
    s' = s ∧ ((∃ e, r = .error e ∧ d.fails (.list kind ns selector)) ∨
      (r = .ok ([] : List Object) ∧ d.hides (.list kind ns selector)) ∨
      r = (s.select kind ns selector).mapM readObject) := by
  cases h with
  | answered => exact ⟨rfl, .inr (.inr rfl)⟩
  | failed e hf => exact ⟨rfl, .inl ⟨e, rfl, hf⟩⟩
  | hidden a hh ha =>
    obtain rfl : [] = a := Option.some.inj ha
    exact ⟨rfl, .inr (.inl ⟨rfl, hh⟩)⟩

theorem of_create {o : Object} {r : (Call.create kind ns o).Reply}
    (hn : o.metadata.name = some name) (h : Replies d (Call.create kind ns o) s r s') :
    (∃ e, r = .error e ∧ s' = s ∧ d.fails (.create kind ns o)) ∨
      (∃ v, s.find? ⟨kind, ns, name⟩ = some v ∧ r = .error (.alreadyExists kind.name name) ∧
        s' = s) ∨
      (s.find? ⟨kind, ns, name⟩ = none ∧ r = readObject (s.stamp ns o).toJson ∧
        s' = s.add ⟨kind, ns, name⟩ (s.stamp ns o).toJson) := by
  cases h with
  | answered =>
    have hk : o.metadata.name.getD "" = name := by rw [hn]; rfl
    simp only [answer, hk]
    cases hv : s.find? ⟨kind, ns, name⟩ with
    | none =>
      have hc : s.objects.contains ⟨kind, ns, name⟩ = false := by rw [contains_eq, hv]; rfl
      rw [hc]
      exact .inr (.inr ⟨rfl, rfl, rfl⟩)
    | some v =>
      have hc : s.objects.contains ⟨kind, ns, name⟩ = true := contains_of_find? hv
      rw [hc]
      exact .inr (.inl ⟨v, rfl, rfl, rfl⟩)
  | failed e hf => exact .inl ⟨e, rfl, rfl, hf⟩
  | hidden a hh ha => cases ha

theorem of_patch {body : Json} {r : (Call.patch kind ns name body).Reply}
    (h : Replies d (Call.patch kind ns name body) s r s') :
    (∃ e, r = .error e ∧ s' = s ∧ d.fails (.patch kind ns name body)) ∨
      (s.find? ⟨kind, ns, name⟩ = none ∧ r = .error (notFound kind ns name) ∧ s' = s) ∨
      ∃ v, s.find? ⟨kind, ns, name⟩ = some v ∧ r = readObject (v.merge body) ∧
        s' = s.set ⟨kind, ns, name⟩ (v.merge body) := by
  cases h with
  | answered =>
    cases hv : s.find? ⟨kind, ns, name⟩ with
    | none =>
      have ha : answer (.patch kind ns name body) s = (.error (notFound kind ns name), s) := by
        simp [answer, patchObject, hv]
      rw [ha]
      exact .inr (.inl ⟨rfl, rfl, rfl⟩)
    | some v =>
      have ha : answer (.patch kind ns name body) s =
          (readObject (v.merge body), s.set ⟨kind, ns, name⟩ (v.merge body)) := by
        simp only [answer, patchObject, hv]
        rfl
      rw [ha]
      exact .inr (.inr ⟨v, rfl, rfl, rfl⟩)
  | failed e hf => exact .inl ⟨e, rfl, rfl, hf⟩
  | hidden a hh ha => cases ha

theorem of_patchStatus {body : Json} {r : (Call.patchStatus kind ns name body).Reply}
    (h : Replies d (Call.patchStatus kind ns name body) s r s') :
    (∃ e, r = .error e ∧ s' = s ∧ d.fails (.patchStatus kind ns name body)) ∨
      (s.find? ⟨kind, ns, name⟩ = none ∧ r = .error (notFound kind ns name) ∧ s' = s) ∨
      ∃ v, s.find? ⟨kind, ns, name⟩ = some v ∧ r = .ok (() : Unit) ∧
        s' = s.set ⟨kind, ns, name⟩ (v.merge (.object [("status", body.get "status")])) := by
  cases h with
  | answered =>
    cases hv : s.find? ⟨kind, ns, name⟩ with
    | none =>
      have ha : answer (.patchStatus kind ns name body) s =
          (.error (notFound kind ns name), s) := by
        simp [answer, patchObject, hv]
      rw [ha]
      exact .inr (.inl ⟨rfl, rfl, rfl⟩)
    | some v =>
      have ha : answer (.patchStatus kind ns name body) s = (.ok (() : Unit),
          s.set ⟨kind, ns, name⟩ (v.merge (.object [("status", body.get "status")]))) := by
        simp [answer, patchObject, hv, set]
      rw [ha]
      exact .inr (.inr ⟨v, rfl, rfl, rfl⟩)
  | failed e hf => exact .inl ⟨e, rfl, rfl, hf⟩
  | hidden a hh ha => cases ha

theorem of_delete {r : (Call.delete kind ns name).Reply}
    (h : Replies d (Call.delete kind ns name) s r s') :
    (∃ e, r = .error e ∧ s' = s ∧ d.fails (.delete kind ns name)) ∨
      (r = .ok (false : Bool) ∧ s' = s ∧ d.hides (.delete kind ns name)) ∨
      (r = .ok (s.objects.contains ⟨kind, ns, name⟩) ∧ s' = s.remove ⟨kind, ns, name⟩) := by
  cases h with
  | answered => exact .inr (.inr ⟨rfl, rfl⟩)
  | failed e hf => exact .inl ⟨e, rfl, rfl, hf⟩
  | hidden a hh ha =>
    obtain rfl : false = a := Option.some.inj ha
    exact .inr (.inl ⟨rfl, rfl, hh⟩)

end Cluster.Replies
end ConnectorControl
