import ConnectorControl.Proofs.Store.Fetches

/-!
# Which calls a program may make

`Program.Asks P` is read off a program alone: every call in it is as `P` says, whatever the replies
are and whatever the store holds.  So it holds of every run (`Asks.ensures`), and it may be put to
whatever else the program ensures (`Pass.Ensures.and_asks`).

What a run has written comes from its calls: `written_of_ensures` gives the writes of a run.
-/

namespace ConnectorControl

variable {α β ε ε' : Type}

namespace Program

variable {P P' : Call → Prop} {d : Disturbance} {s : Cluster}

def Asks (P : Call → Prop) : Program α → Prop
  | done _ => True
  | ask c next => P c ∧ ∀ r, (next r).Asks P
  | rejectSecret _ next => next.Asks P

theorem asks_bind {p : Program α} {f : α → Program β} (hp : p.Asks P) (hf : ∀ a, (f a).Asks P) :
    (p.bind f).Asks P := by
  induction p with
  | done a => exact hf a
  | ask c next ih => exact ⟨hp.1, fun r => ih r (hp.2 r)⟩
  | rejectSecret t next ih => exact ih hp

theorem Asks.mono {p : Program α} (h : p.Asks P) (hP : ∀ c, P c → P' c) : p.Asks P' := by
  induction p with
  | done a => trivial
  | ask c next ih => exact ⟨hP c h.1, fun r => ih r (h.2 r)⟩
  | rejectSecret t next ih => exact ih h

theorem Asks.ensures {p : Program α} (h : p.Asks P) :
    Ensures d (fun c _ => P c) p s fun _ _ => True := by
  induction p generalizing s with
  | done a => trivial
  | ask c next ih => exact ⟨h.1, fun r s' _ => ih r (h.2 r)⟩
  | rejectSecret t next ih => exact ih h

theorem Fetches.asks_of {K : ObjectKey → Prop} {p : Program α} (h : p.Fetches K)
    (hP : ∀ k, K k → P (.get k.kind k.ns k.name)) : p.Asks P := by
  induction p with
  | done a => trivial
  | ask c next ih =>
    obtain ⟨⟨k, hk, rfl⟩, hnext⟩ := h
    exact ⟨hP k hk, fun r => ih r (hnext r)⟩
  | rejectSecret t next ih => exact ih h

theorem Fetches.asks {K : ObjectKey → Prop} {p : Program α} (h : p.Fetches K) :
    p.Asks (·.verb = .get) := h.asks_of fun _ _ => rfl

theorem Ensures.and {p : Program α} {R R' : Call → Cluster → Prop} {Q Q' : α → Cluster → Prop}
    (h : Ensures d R p s Q) (h' : Ensures d R' p s Q') :
    Ensures d (fun c s => R c s ∧ R' c s) p s fun a s => Q a s ∧ Q' a s := by
  induction p generalizing s with
  | done a => exact ⟨h, h'⟩
  | ask c next ih => exact ⟨⟨h.1, h'.1⟩, fun r s' hr => ih r (h.2 r s' hr) (h'.2 r s' hr)⟩
  | rejectSecret t next ih => exact ih h h'

end Program

/-! ## programs that may fail -/

namespace Pass

variable {P P' : Call → Prop} {d : Disturbance} {s : Cluster}

def Asks (P : Call → Prop) (p : ExceptT ε Program α) : Prop := p.run.Asks P

theorem asks_pure {a : α} : Asks P (pure a : ExceptT ε Program α) := trivial

theorem asks_throw {e : ε} : Asks P (throw e : ExceptT ε Program α) := trivial

theorem asks_ofExcept {r : Except Failure α} : Asks P (ofExcept r) := trivial

theorem asks_call {c : Call} (h : P c) : Asks P (call c) := ⟨h, fun _ => trivial⟩

theorem asks_bind {p : ExceptT ε Program α} {f : α → ExceptT ε Program β} (hp : Asks P p)
    (hf : ∀ a, Asks P (f a)) : Asks P (p >>= f) := by
  refine Program.asks_bind hp fun r => ?_
  cases r with
  | ok a => exact hf a
  | error e => trivial

theorem asks_always {p : Program α} (hp : p.Asks P) : Asks P (always p) :=
  Program.asks_bind hp fun _ => trivial

theorem asks_adapt {p : ExceptT ε Program α} {f : ε → ε'} (hp : Asks P p) :
    Asks P (p.adapt f) :=
  Program.asks_bind hp fun _ => trivial

theorem Asks.mono {p : ExceptT ε Program α} (h : Asks P p) (hP : ∀ c, P c → P' c) : Asks P' p :=
  Program.Asks.mono h hP

theorem Fetches.asks_of {K : ObjectKey → Prop} {p : ExceptT ε Program α} (h : Fetches K p)
    (hP : ∀ k, K k → P (.get k.kind k.ns k.name)) : Asks P p := Program.Fetches.asks_of h hP

theorem Fetches.asks {K : ObjectKey → Prop} {p : ExceptT ε Program α} (h : Fetches K p) :
    Asks (·.verb = .get) p := Program.Fetches.asks h

theorem Ensures.and_asks {p : ExceptT ε Program α} {R : Call → Cluster → Prop}
    {Q : α → Cluster → Prop} {E : ε → Cluster → Prop} (h : Ensures d R p s Q E) (hp : Asks P p) :
    Ensures d (fun c s => R c s ∧ P c) p s Q E :=
  (Program.Ensures.and h (Program.Asks.ensures hp)).mono fun _ _ hq => hq.1

end Pass

/-! ## the writes of a run -/

def Write.key (x : Write) : ObjectKey := ⟨x.kind, x.ns, x.name⟩

theorem Cluster.write_of_write? {c : Call} {s : Cluster} {x : Write} (h : write? c s = some x) :
    x = c.write ∧ c.verb ≠ .get ∧ c.verb ≠ .list := by
  simp only [write?, Option.ite_none_right_eq_some, Option.some.injEq] at h
  obtain ⟨hwrites, rfl⟩ := h
  refine ⟨rfl, fun hv => ?_, fun hv => ?_⟩
  · rw [hv] at hwrites
    cases hwrites
  · rw [hv] at hwrites
    cases hwrites

theorem World.mem_writes {w : World} {x : Write} : x ∈ w.writes ↔ x ∈ w.written :=
  List.mem_reverse

namespace Program

variable {w : World}

theorem written_subset_run (p : Program α) (w : World) :
    ∀ x ∈ w.written, x ∈ (p.run World.answer w).state.written := by
  intro x hx
  obtain ⟨new, hnew, _⟩ := written_run p w
  rw [hnew]
  exact List.mem_append_right _ hx

/-- what holds of the calls of a program holds of the writes of a run that starts without any -/
theorem written_of_ensures {p : Program α} {d : Disturbance} {R : Call → Cluster → Prop}
    {Q : α → Cluster → Prop} (h : Ensures d R p w.cluster Q) (hw : w.Within d)
    (hempty : w.written = []) : ∀ x ∈ (p.run World.answer w).state.writes,
      ∃ c s, R c s ∧ Cluster.write? c s = some x := by
  intro x hx
  obtain ⟨new, hnew, hmade⟩ := written_run p w
  rw [World.mem_writes, hnew, hempty, List.append_nil] at hx
  obtain ⟨m, hm, hwrite⟩ := hmade x hx
  exact ⟨m.1, m.2.cluster, (h.run hw).1 m hm, hwrite⟩

/-- what a run adds to the writes comes from calls that the program may make -/
theorem Asks.written {p : Program α} {P : Call → Prop} (h : p.Asks P) (w : World) :
    ∀ x ∈ (p.run World.answer w).state.written, x ∈ w.written ∨ ∃ c, P c ∧ x = c.write := by
  intro x hx
  obtain ⟨new, hnew, hmade⟩ := written_run p w
  rw [hnew] at hx
  rcases List.mem_append.1 hx with hx | hx
  · obtain ⟨m, hm, hwrite⟩ := hmade x hx
    exact .inr ⟨m.1, (h.ensures.run (World.within_any w)).1 m hm,
      (Cluster.write_of_write? hwrite).1⟩
  · exact .inl hx

theorem Asks.written_eq {p : Program α} (h : p.Asks (·.verb = .get)) (w : World) :
    (p.run World.answer w).state.written = w.written := by
  obtain ⟨new, hnew, hmade⟩ := written_run p w
  have hnone : new = [] := by
    refine List.eq_nil_iff_forall_not_mem.2 fun x hx => ?_
    obtain ⟨m, hm, hwrite⟩ := hmade x hx
    have hget := (h.ensures.run (World.within_any w)).1 m hm
    exact (Cluster.write_of_write? hwrite).2.1 hget
  rw [hnew, hnone]
  rfl

end Program
end ConnectorControl
