import ConnectorControl.Proofs.Json.Lookup
import ConnectorControl.Proofs.Store.Ensures
import ConnectorControl.Proofs.Store.Replies

/-!
# Listings

A list selects the values of a kind and a namespace (`mem_select`) and reads every one of them as an
object, or it fails on the first that does not read as one.
-/

namespace ConnectorControl

universe u

/-! ## reading every item -/

section
variable {α β ε : Type u} {f : α → Except ε β}

theorem mapM_ok_cons {a : α} {as : List α} {bs : List β} (h : (a :: as).mapM f = .ok bs) :
    ∃ b bs', f a = .ok b ∧ as.mapM f = .ok bs' ∧ bs = b :: bs' := by
  rw [List.mapM_cons] at h
  cases hb : f a with
  | error e => rw [hb] at h; cases h
  | ok b =>
    rw [hb] at h
    cases hbs : as.mapM f with
    | error e => rw [hbs] at h; cases h
    | ok bs' =>
      rw [hbs] at h
      exact ⟨b, bs', rfl, rfl, (Except.ok.inj h).symm⟩

theorem exists_of_mem_mapM {as : List α} {bs : List β} (h : as.mapM f = .ok bs) {b : β}
    (hb : b ∈ bs) : ∃ a ∈ as, f a = .ok b := by
  induction as generalizing bs with
  | nil =>
    obtain rfl : [] = bs := Except.ok.inj h
    cases hb
  | cons a as ih =>
    obtain ⟨b', bs', hb', hbs', rfl⟩ := mapM_ok_cons h
    rcases List.mem_cons.1 hb with rfl | hb
    · exact ⟨a, List.mem_cons_self, hb'⟩
    · obtain ⟨x, hx, hfx⟩ := ih hbs' hb
      exact ⟨x, List.mem_cons_of_mem _ hx, hfx⟩

theorem mem_mapM_of_mem {as : List α} {bs : List β} (h : as.mapM f = .ok bs) {a : α}
    (ha : a ∈ as) : ∃ b ∈ bs, f a = .ok b := by
  induction as generalizing bs with
  | nil => cases ha
  | cons a' as ih =>
    obtain ⟨b', bs', hb', hbs', rfl⟩ := mapM_ok_cons h
    rcases List.mem_cons.1 ha with rfl | ha
    · exact ⟨b', List.mem_cons_self, hb'⟩
    · obtain ⟨b, hb, hfb⟩ := ih hbs' ha
      exact ⟨b, List.mem_cons_of_mem _ hb, hfb⟩

theorem mapM_error {as : List α} {e : ε} (h : as.mapM f = .error e) : ∃ a ∈ as, f a = .error e := by
  induction as with
  | nil => cases h
  | cons a as ih =>
    rw [List.mapM_cons] at h
    cases hb : f a with
    | error e' =>
      rw [hb] at h
      obtain rfl : e' = e := Except.error.inj h
      exact ⟨a, List.mem_cons_self, hb⟩
    | ok b =>
      rw [hb] at h
      cases hbs : as.mapM f with
      | error e' =>
        rw [hbs] at h
        obtain rfl : e' = e := Except.error.inj h
        obtain ⟨x, hx, hfx⟩ := ih hbs
        exact ⟨x, List.mem_cons_of_mem _ hx, hfx⟩
      | ok bs => rw [hbs] at h; cases h

section filter
variable {keep : α → Bool} {use : β → Bool} {as : List α}

/-- items that are read without fail may be left out of a list, if nothing is made of them -/
theorem mapM_of_filter_ok (h : ∀ a ∈ as, keep a = false → ∃ b, f a = .ok b ∧ use b = false)
    {bs : List β} (hbs : (as.filter keep).mapM f = .ok bs) :
    ∃ bs', as.mapM f = .ok bs' ∧ bs'.filter use = bs.filter use := by
  induction as generalizing bs with
  | nil => exact ⟨bs, hbs, rfl⟩
  | cons a as ih =>
    have ih := @ih fun x hx => h x (List.mem_cons_of_mem _ hx)
    rw [List.mapM_cons]
    cases hkeep : keep a with
    | true =>
      rw [List.filter_cons_of_pos hkeep] at hbs
      obtain ⟨b, rest, hb, hrest, rfl⟩ := mapM_ok_cons hbs
      obtain ⟨bs', hbs', hsame⟩ := ih hrest
      rw [hb, hbs']
      refine ⟨b :: bs', rfl, ?_⟩
      rw [List.filter_cons, List.filter_cons, hsame]
    | false =>
      rw [List.filter_cons_of_neg (by rw [hkeep]; exact nofun)] at hbs
      obtain ⟨b, hb, huse⟩ := h a List.mem_cons_self hkeep
      obtain ⟨bs', hbs', hsame⟩ := ih hbs
      rw [hb, hbs']
      exact ⟨b :: bs', rfl,
        (List.filter_cons_of_neg (by rw [huse]; exact nofun)).trans hsame⟩

theorem mapM_of_filter_error (h : ∀ a ∈ as, keep a = false → ∃ b, f a = .ok b) {e : ε}
    (he : (as.filter keep).mapM f = .error e) : as.mapM f = .error e := by
  induction as with
  | nil => exact he
  | cons a as ih =>
    have ih := ih fun x hx => h x (List.mem_cons_of_mem _ hx)
    rw [List.mapM_cons]
    cases hkeep : keep a with
    | true =>
      rw [List.filter_cons_of_pos hkeep, List.mapM_cons] at he
      cases hb : f a with
      | error e' =>
        rw [hb] at he
        exact he
      | ok b =>
        rw [hb] at he
        cases hbs : (as.filter keep).mapM f with
        | error e' =>
          rw [hbs] at he
          obtain rfl : e' = e := Except.error.inj he
          rw [ih hbs]
          rfl
        | ok bs =>
          rw [hbs] at he
          cases he
    | false =>
      rw [List.filter_cons_of_neg (by rw [hkeep]; exact nofun)] at he
      obtain ⟨b, hb⟩ := h a List.mem_cons_self hkeep
      rw [hb, ih he]
      rfl

end filter

end

/-! ## what is selected -/

namespace Cluster

variable {s t : Cluster} {kind : Kind} {ns selector : String} {v : Json}

theorem mem_select : v ∈ s.select kind ns selector ↔
    ∃ name, s.find? ⟨kind, ns, name⟩ = some v ∧ isSelected selector v = true := by
  unfold select
  rw [List.mem_map]
  constructor
  · rintro ⟨⟨k, w⟩, he, rfl⟩
    obtain ⟨hm, hk⟩ := List.mem_filter.1 he
    simp only [Bool.and_eq_true, decide_eq_true_eq] at hk
    obtain ⟨⟨rfl, rfl⟩, hs⟩ := hk
    exact ⟨k.name, s.objects.ordered.find?_of_mem hm, hs⟩
  · rintro ⟨name, hv, hs⟩
    refine ⟨(⟨kind, ns, name⟩, v), List.mem_filter.2 ⟨Entries.mem_of_find? hv, ?_⟩, rfl⟩
    simp [hs]

theorem find?_filter_entries (s : Cluster) (q : ObjectKey × Json → Bool) (k : ObjectKey) :
    Entries.find? k (s.objects.entries.filter q) = (s.find? k).filter fun v => q (k, v) := by
  cases hk : s.find? k with
  | none =>
    refine Entries.find?_eq_none.2 fun e he hek => ?_
    have := s.objects.ordered.find?_of_mem (List.mem_filter.1 he).1
    rw [hek] at this
    cases this.symm.trans hk
  | some v =>
    by_cases hq : q (k, v) = true
    · rw [show (some v).filter (fun v => q (k, v)) = some v from if_pos hq]
      have hm : (k, v) ∈ s.objects.entries.filter q :=
        List.mem_filter.2 ⟨Entries.mem_of_find? hk, hq⟩
      exact Entries.Ordered.find?_of_mem (s.objects.ordered.filter _) hm
    · rw [show (some v).filter (fun v => q (k, v)) = none from if_neg hq]
      refine Entries.find?_eq_none.2 fun e he hek => ?_
      obtain ⟨hm, hqe⟩ := List.mem_filter.1 he
      have := s.objects.ordered.find?_of_mem hm
      rw [hek] at this
      obtain ⟨k', w⟩ := e
      obtain rfl : k' = k := hek
      obtain rfl : w = v := Option.some.inj (this.symm.trans hk)
      exact hq hqe

theorem find?_eq_of_filter (q : ObjectKey → Bool) (h : s.objects.entries.filter (fun e => q e.1) =
    t.objects.entries.filter fun e => q e.1) {k : ObjectKey} (hk : q k = true) :
    s.find? k = t.find? k := by
  have hs := find?_filter_entries s (fun e => q e.1) k
  have ht := find?_filter_entries t (fun e => q e.1) k
  rw [h, ht] at hs
  have hall : ∀ o : Option Json, (o.filter fun _ => q k) = o := by
    intro o
    rw [hk]
    cases o <;> rfl
  rw [hall, hall] at hs
  exact hs.symm

/-- what is selected depends on the objects of the kind and the namespace alone -/
theorem select_congr (h : ∀ name, s.find? ⟨kind, ns, name⟩ = t.find? ⟨kind, ns, name⟩) :
    s.select kind ns selector = t.select kind ns selector := by
  unfold select
  congr 1
  refine Entries.Ordered.ext (s.objects.ordered.filter _) (t.objects.ordered.filter _) fun k => ?_
  rw [find?_filter_entries, find?_filter_entries]
  by_cases hk : k.kind = kind ∧ k.ns = ns
  · obtain ⟨rfl, rfl⟩ := hk
    rw [show s.find? k = t.find? k from h k.name]
  · have hno : ∀ o : Option Json, (o.filter fun v =>
        decide (k.kind = kind) && decide (k.ns = ns) && isSelected selector v) = none := by
      intro o
      refine Option.filter_eq_none_iff.2 fun v _ hv => hk ?_
      simp only [Bool.and_eq_true, decide_eq_true_eq] at hv
      exact hv.1
    rw [hno, hno]

/-- what is selected and of interest depends on the objects that are -/
theorem filter_select_congr {keep : Json → Bool}
    (h : ∀ name, ((s.find? ⟨kind, ns, name⟩).filter fun v => isSelected selector v && keep v) =
      (t.find? ⟨kind, ns, name⟩).filter fun v => isSelected selector v && keep v) :
    (s.select kind ns selector).filter keep = (t.select kind ns selector).filter keep := by
  unfold select
  rw [List.filter_map, List.filter_map, List.filter_filter, List.filter_filter]
  congr 1
  refine Entries.Ordered.ext (s.objects.ordered.filter _) (t.objects.ordered.filter _) fun k => ?_
  rw [find?_filter_entries, find?_filter_entries]
  by_cases hk : k.kind = kind ∧ k.ns = ns
  · obtain ⟨rfl, rfl⟩ := hk
    have h := h k.name
    simp only [Function.comp_apply, decide_true, Bool.true_and, Bool.and_comm (keep _)]
    exact h
  · have hno : ∀ o : Option Json, (o.filter fun v => (keep ∘ fun x : ObjectKey × Json => x.2) (k, v)
        && (decide (k.kind = kind) && decide (k.ns = ns) && isSelected selector v)) = none := by
      intro o
      refine Option.filter_eq_none_iff.2 fun v _ hv => hk ?_
      simp only [Bool.and_eq_true, decide_eq_true_eq] at hv
      exact hv.2.1
    exact (hno _).trans (hno _).symm

end Cluster

/-! ## lists as calls -/

namespace Pass

variable {d : Disturbance} {P : Call → Cluster → Prop} {s : Cluster} {kind : Kind}
  {ns selector : String}

theorem ensures_list {Q : List Object → Cluster → Prop} {E : Failure → Cluster → Prop}
    (hP : P (.list kind ns selector) s)
    (hQ : ∀ found, (s.select kind ns selector).mapM Cluster.readObject = .ok found → Q found s)
    (hhidden : d.hides (.list kind ns selector) → Q [] s)
    (hE : ∀ e, ¬d.Quiet ∨ (s.select kind ns selector).mapM Cluster.readObject = .error e → E e s) :
    Ensures d P (list kind ns selector) s Q E := by
  refine ensures_call.2 ⟨hP, fun r s' hr => ?_⟩
  obtain ⟨rfl, hr⟩ := hr.of_list
  rcases hr with ⟨e, rfl, hf⟩ | ⟨rfl, hh⟩ | rfl
  · exact hE e (.inl fun hd => (hd _).1 hf)
  · exact hhidden hh
  · cases hm : (s'.select kind ns selector).mapM Cluster.readObject with
    | ok found => exact hQ found hm
    | error e => exact hE e (.inr hm)

end Pass
end ConnectorControl
