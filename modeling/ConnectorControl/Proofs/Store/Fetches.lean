import ConnectorControl.Proofs.Store.Ensures
import ConnectorControl.Proofs.Store.Replies

/-!
# Programs that only fetch

A program that does nothing but fetch objects leaves the cluster as it is, and what it comes to
depends on those objects alone (`Fetches.congr`).  So it comes to the same as on the cluster itself
(`Program.value`) wherever its calls are left alone.
-/

namespace ConnectorControl

variable {α β ε ε' : Type}

namespace Program

variable {K : ObjectKey → Prop} {d : Disturbance} {P : Call → Cluster → Prop} {s t : Cluster}

/-- every call fetches an object under one of some keys -/
def Fetches (K : ObjectKey → Prop) : Program α → Prop
  | done _ => True
  | ask c next => (∃ k, K k ∧ c = .get k.kind k.ns k.name) ∧ ∀ r, (next r).Fetches K
  | rejectSecret _ next => next.Fetches K

theorem fetches_bind {p : Program α} {f : α → Program β} (hp : p.Fetches K)
    (hf : ∀ a, (f a).Fetches K) : (p.bind f).Fetches K := by
  induction p with
  | done a => exact hf a
  | ask c next ih => exact ⟨hp.1, fun r => ih r (hp.2 r)⟩
  | rejectSecret t next ih => exact ih hp

def value (p : Program α) (s : Cluster) : α := (p.run Cluster.answer s).result

theorem value_ask (c : Call) (next : c.Reply → Program α) (s : Cluster) :
    (ask c next).value s = (next (Cluster.answer c s).1).value (Cluster.answer c s).2 := rfl

theorem answer_get_state (k : ObjectKey) (s : Cluster) :
    (Cluster.answer (.get k.kind k.ns k.name) s).2 = s :=
  (Cluster.Replies.of_get (d := .none) .answered).1

theorem Fetches.ensures {p : Program α} (hp : p.Fetches K)
    (hd : ∀ k, K k → d.Spares (.get k.kind k.ns k.name))
    (hP : ∀ k, K k → P (.get k.kind k.ns k.name) s) :
    Ensures d P p s fun a s' => s' = s ∧ a = p.value s := by
  induction p with
  | done a => exact ⟨rfl, rfl⟩
  | ask c next ih =>
    obtain ⟨⟨k, hk, rfl⟩, hnext⟩ := hp
    refine ⟨hP k hk, fun r s' hr => ?_⟩
    cases hr with
    | answered =>
      rw [value_ask, answer_get_state]
      exact ih _ (hnext _)
    | failed e hf => exact absurd hf (hd k hk).1
    | hidden a hh ha => exact absurd hh (hd k hk).2
  | rejectSecret t next ih => exact ih hp

theorem Fetches.unchanged {p : Program α} (hp : p.Fetches K)
    (hP : ∀ k, K k → P (.get k.kind k.ns k.name) s) : Ensures d P p s fun _ s' => s' = s := by
  induction p with
  | done a => rfl
  | ask c next ih =>
    obtain ⟨⟨k, hk, rfl⟩, hnext⟩ := hp
    refine ⟨hP k hk, fun r s' hr => ?_⟩
    obtain ⟨rfl, _⟩ := hr.of_get
    exact ih r (hnext r)
  | rejectSecret t next ih => exact ih hp

theorem answer_get_congr {k : ObjectKey} (h : s.find? k = t.find? k) :
    (Cluster.answer (.get k.kind k.ns k.name) s).1 =
      (Cluster.answer (.get k.kind k.ns k.name) t).1 := by
  have h : s.find? ⟨k.kind, k.ns, k.name⟩ = t.find? ⟨k.kind, k.ns, k.name⟩ := h
  simp only [Cluster.answer, h]
  split <;> rfl

/-- clusters with the same objects under the keys give the same value -/
theorem Fetches.congr {p : Program α} (hp : p.Fetches K) (h : ∀ k, K k → s.find? k = t.find? k) :
    p.value s = p.value t := by
  induction p generalizing s t with
  | done a => rfl
  | ask c next ih =>
    obtain ⟨⟨k, hk, rfl⟩, hnext⟩ := hp
    rw [value_ask, value_ask, answer_get_state, answer_get_state, answer_get_congr (h k hk)]
    exact ih _ (hnext _) h
  | rejectSecret t next ih => exact ih hp h

/-- every call of a run is answered as the cluster itself would answer it -/
def Answered (p : Program α) (w : World) : Prop :=
  ∀ m ∈ p.calls World.answer w, (World.answer m.1 m.2).1 = (Cluster.answer m.1 m.2.cluster).1

theorem Fetches.answered {p : Program α} (hp : p.Fetches K)
    (hd : ∀ k, K k → d.Spares (.get k.kind k.ns k.name)) {w : World} (hw : w.Within d) :
    p.Answered w := by
  induction p generalizing w with
  | done a => exact fun m hm => absurd hm List.not_mem_nil
  | ask c next ih =>
    obtain ⟨⟨k, hk, rfl⟩, hnext⟩ := hp
    obtain ⟨hr, hw'⟩ := World.replies_answer hw (.get k.kind k.ns k.name)
    intro m hm
    rcases List.mem_cons.1 hm with rfl | hm
    · dsimp only
      generalize (World.answer (.get k.kind k.ns k.name) w).1 = reply at hr
      generalize (World.answer (.get k.kind k.ns k.name) w).2.cluster = s' at hr
      cases hr with
      | answered => rfl
      | failed e hf => exact absurd hf (hd k hk).1
      | hidden a hh ha => exact absurd hh (hd k hk).2
    · exact ih _ (hnext _) hw' m hm
  | rejectSecret t next ih => exact ih hp hw

theorem Fetches.result_of_answered {p : Program α} (hp : p.Fetches K) {w : World}
    (h : p.Answered w) : (p.run World.answer w).result = p.value w.cluster := by
  induction p generalizing w with
  | done a => rfl
  | ask c next ih =>
    obtain ⟨⟨k, hk, rfl⟩, hnext⟩ := hp
    have hreply := h _ List.mem_cons_self
    have hstate := ((World.replies_answer w.within_any (.get k.kind k.ns k.name)).1.of_get).1
    have hrest := ih _ (hnext _) fun m hm => h m (List.mem_cons_of_mem _ hm)
    rw [value_ask, answer_get_state, ← hreply, ← hstate]
    exact hrest
  | rejectSecret t next ih => exact ih hp h

theorem Ensures.value {p : Program α} {Q : α → Cluster → Prop} (h : Ensures d P p s Q) :
    ∃ s', Q (p.value s) s' := by
  induction p generalizing s with
  | done a => exact ⟨s, h⟩
  | ask c next ih => exact ih _ (h.2 _ _ .answered)
  | rejectSecret t next ih => exact ih h

end Program

namespace Pass

variable {K : ObjectKey → Prop}

/-- every call fetches an object under one of some keys -/
def Fetches (K : ObjectKey → Prop) (p : ExceptT ε Program α) : Prop := p.run.Fetches K

theorem Fetches.ensures {p : ExceptT ε Program α} {d : Disturbance} {P : Call → Cluster → Prop}
    {s : Cluster} (hp : Fetches K p) (hd : d.Tame) (hP : ∀ c, P c s) :
    Ensures d P p s (fun a s' => s' = s ∧ p.run.value s = .ok a)
      fun e s' => s' = s ∧ p.run.value s = .error e := by
  refine Program.Ensures.mono (Program.Fetches.ensures hp (fun k _ => hd.spares _ _ _)
    fun k _ => hP _) fun r s' h => ?_
  cases r with
  | ok a => exact ⟨h.1, h.2.symm⟩
  | error e => exact ⟨h.1, h.2.symm⟩

theorem Fetches.unchanged {p : ExceptT ε Program α} {d : Disturbance}
    {P : Call → Cluster → Prop} {s : Cluster} (hp : Fetches K p)
    (hP : ∀ k, K k → P (.get k.kind k.ns k.name) s) :
    Ensures d P p s (fun _ s' => s' = s) fun _ s' => s' = s := by
  refine Program.Ensures.mono (Program.Fetches.unchanged hp hP) fun r s' h => ?_
  cases r with
  | ok a => exact h
  | error e => exact h

theorem fetches_pure {a : α} : Fetches K (pure a : ExceptT ε Program α) := trivial

theorem fetches_throw {e : ε} : Fetches K (throw e : ExceptT ε Program α) := trivial

theorem fetches_bind {p : ExceptT ε Program α} {f : α → ExceptT ε Program β} (hp : Fetches K p)
    (hf : ∀ a, Fetches K (f a)) : Fetches K (p >>= f) := by
  refine Program.fetches_bind hp fun r => ?_
  cases r with
  | ok a => exact hf a
  | error e => trivial

theorem fetches_get {k : ObjectKey} (hk : K k) : Fetches K (get k.kind k.ns k.name) :=
  ⟨⟨k, hk, rfl⟩, fun _ => trivial⟩

theorem fetches_always {p : Program α} (hp : p.Fetches K) : Fetches K (always p) :=
  Program.fetches_bind hp fun _ => trivial

theorem fetches_adapt {p : ExceptT ε Program α} {f : ε → ε'} (hp : Fetches K p) :
    Fetches K (p.adapt f) :=
  Program.fetches_bind hp fun _ => trivial

end Pass
end ConnectorControl
