import ConnectorControl.Proofs.Store.Asks

/-!
# What a run is sure to have written

The writes of a run are made by its calls, and here is the other direction: a write call that
succeeds has been written (`World.mem_written_of_ok`), an object that is not what it was has been
patched or deleted (`Program.exists_write_of_changed`), and one that is gone has been deleted
(`Program.exists_delete_of_lost`).

`Pass.Makes X p`: whenever the program `p` comes to a value, a write of which `X` holds has been
made by then.
-/

namespace ConnectorControl

variable {α β ε ε' : Type}

/-! ## single calls -/

namespace World

/-- a call that is made, unless a fault takes it, does what the cluster makes of it or nothing -/
theorem answer_cases (c : Call) (w : World) : ∃ faults, answer c w = passOn c { w with faults } ∨
    (answer c w).2 = { w with faults } ∧
      ((∃ e, (answer c w).1 = .error e) ∨ Fault.hidden c ≠ none) := by
  unfold answer
  split
  · next faults _ => exact ⟨faults, .inl rfl⟩
  · next faults _ =>
    refine ⟨faults, ?_⟩
    split
    · exact .inr ⟨rfl, .inl ⟨_, rfl⟩⟩
    · next hh => exact .inr ⟨rfl, .inr fun hno => nomatch hno.symm.trans hh⟩
    · exact .inl rfl

/-- what can not be hidden and is answered is written, if it is a write -/
theorem mem_written_of_ok {c : Call} {w : World} {a : c.Answer} (h : (answer c w).1 = .ok a)
    (hwrite : Event.write? (.call c (.ok a)) = some c.write) (hhidden : Fault.hidden c = none) :
    c.write ∈ (answer c w).2.written := by
  obtain ⟨faults, heq | ⟨_, ⟨e, he⟩ | hh⟩⟩ := answer_cases c w
  · rw [heq] at h ⊢
    have hmade : Cluster.write? c w.cluster = some c.write := by
      rw [← Cluster.write?_event_of_ok (s := w.cluster) h, hwrite]
    show c.write ∈ (Cluster.write? c w.cluster).toList ++ w.written
    rw [hmade]
    exact List.mem_cons_self
  · exact nomatch he.symm.trans h
  · exact absurd hhidden hh

theorem write?_of_changed {c : Call} {s : Cluster} {k : ObjectKey} {v : Json}
    (hk : s.find? k = some v) (hchanged : (Cluster.answer c s).2.find? k ≠ some v) :
    ∃ x, Cluster.write? c s = some x ∧ x.key = k ∧ x.verb ≠ .create ∧
      ((Cluster.answer c s).2.find? k = none → x.verb = .delete) := by
  have hr : Cluster.Replies .none c s (Cluster.answer c s).1 (Cluster.answer c s).2 := .answered
  have hset : ∀ {k' v'}, (Cluster.answer c s).2 = s.set k' v' →
      k' = k ∧ (Cluster.answer c s).2.find? k ≠ none := by
    intro k' v' hs
    rw [hs, Cluster.find?_set] at hchanged ⊢
    split at hchanged
    next he => exact ⟨he.symm, fun hno => by rw [if_pos he] at hno; cases hno⟩
    · exact absurd hk hchanged
  -- a call on the key makes a write, as there is an object
  have hmade : (⟨c.kind, c.ns, c.name⟩ : ObjectKey) = k →
      c.verb = .patch ∨ c.verb = .patchStatus ∨ c.verb = .delete →
        ((Cluster.answer c s).2.find? k = none → c.verb = .delete) →
          ∃ x, Cluster.write? c s = some x ∧ x.key = k ∧ x.verb ≠ .create ∧
            ((Cluster.answer c s).2.find? k = none → x.verb = .delete) := by
    rintro rfl hverb hlost
    have hthere := Cluster.contains_of_find? hk
    refine ⟨c.write, ?_, rfl, fun hcreate => ?_, hlost⟩
    · rcases hverb with hv | hv | hv <;> simp [Cluster.write?, hv, hthere]
    · have hcreate : c.verb = .create := hcreate
      rw [hcreate] at hverb
      rcases hverb with hv | hv | hv <;> cases hv
  cases c with
  | get kind ns name => exact absurd ((congrArg (Cluster.find? · k) hr.of_get.1).trans hk) hchanged
  | list kind ns selector =>
    exact absurd ((congrArg (Cluster.find? · k) hr.of_list.1).trans hk) hchanged
  | create kind ns o =>
    unfold Cluster.answer at hchanged
    dsimp only at hchanged
    split at hchanged
    · exact absurd hk hchanged
    next hnone =>
      -- nothing is created where an object is
      have hother : k ≠ ⟨kind, ns, o.metadata.name.getD ""⟩ := by
        rintro rfl
        exact hnone (Cluster.contains_of_find? hk)
      exact absurd ((Cluster.find?_add _ _ _ _).trans ((if_neg hother).trans hk)) hchanged
  | patch kind ns name body =>
    rcases hr.of_patch with ⟨_, _, _, hf⟩ | ⟨_, _, hs⟩ | ⟨v', _, _, hs⟩
    · exact hf.elim
    · exact absurd ((congrArg (Cluster.find? · k) hs).trans hk) hchanged
    · exact hmade (hset hs).1 (.inl rfl) fun hlost => absurd hlost (hset hs).2
  | patchStatus kind ns name body =>
    rcases hr.of_patchStatus with ⟨_, _, _, hf⟩ | ⟨_, _, hs⟩ | ⟨v', _, _, hs⟩
    · exact hf.elim
    · exact absurd ((congrArg (Cluster.find? · k) hs).trans hk) hchanged
    · exact hmade (hset hs).1 (.inr (.inl rfl)) fun hlost => absurd hlost (hset hs).2
  | delete kind ns name =>
    have hchanged : (s.remove ⟨kind, ns, name⟩).find? k ≠ some v := hchanged
    rw [Cluster.find?_remove] at hchanged
    split at hchanged
    next he => exact hmade he.symm (.inr (.inr rfl)) fun _ => rfl
    · exact absurd hk hchanged

theorem written_of_changed {c : Call} {w : World} {k : ObjectKey} {v : Json}
    (hk : w.cluster.find? k = some v) (hchanged : (answer c w).2.cluster.find? k ≠ some v) :
    ∃ x ∈ (answer c w).2.written, x.key = k ∧ x.verb ≠ .create ∧
      ((answer c w).2.cluster.find? k = none → x.verb = .delete) := by
  obtain ⟨faults, heq | ⟨heq, _⟩⟩ := answer_cases c w
  · rw [heq] at hchanged ⊢
    obtain ⟨x, hx, hkey⟩ := write?_of_changed (c := c) hk hchanged
    refine ⟨x, ?_, hkey⟩
    show x ∈ (Cluster.write? c w.cluster).toList ++ w.written
    rw [hx]
    exact List.mem_cons_self
  · rw [heq] at hchanged
    exact absurd hk hchanged

end World

namespace Program

variable {p : Program α} {w : World} {k : ObjectKey} {v : Json}

/-- an object that is not what it was before a run was written by it, and not as a new one -/
theorem exists_write_of_changed (hk : w.cluster.find? k = some v)
    (hchanged : (p.run World.answer w).state.cluster.find? k ≠ some v) :
    ∃ x ∈ (p.run World.answer w).state.writes, x.key = k ∧ x.verb ≠ .create := by
  suffices ∃ x ∈ (p.run World.answer w).state.written, x.key = k ∧ x.verb ≠ .create by
    simpa only [World.mem_writes] using this
  induction p generalizing w with
  | done a => exact absurd hk hchanged
  | ask c next ih =>
    by_cases hv : (World.answer c w).2.cluster.find? k = some v
    · exact ih _ hv hchanged
    · obtain ⟨x, hx, hkey, hcreate, _⟩ := World.written_of_changed hk hv
      exact ⟨x, written_subset_run (next (World.answer c w).1) _ x hx, hkey, hcreate⟩
  | rejectSecret t next ih => exact ih hk hchanged

theorem exists_delete_of_lost (hk : w.cluster.find? k = some v)
    (hlost : (p.run World.answer w).state.cluster.find? k = none) :
    ∃ x ∈ (p.run World.answer w).state.writes, x.verb = .delete ∧ x.key = k := by
  suffices ∃ x ∈ (p.run World.answer w).state.written, x.verb = .delete ∧ x.key = k by
    simpa only [World.mem_writes] using this
  induction p generalizing w v with
  | done a =>
    rw [show (run World.answer (done a) w).state = w from rfl, hk] at hlost
    cases hlost
  | ask c next ih =>
    cases hv : (World.answer c w).2.cluster.find? k with
    | some v' => exact ih _ hv hlost
    | none =>
      obtain ⟨x, hx, hkey, _, hdelete⟩ := World.written_of_changed hk (by rw [hv]; exact nofun)
      exact ⟨x, written_subset_run (next (World.answer c w).1) _ x hx, hdelete hv, hkey⟩
  | rejectSecret t next ih => exact ih hk hlost

end Program

/-! ## programs that may fail -/

namespace Pass

/-- a run that comes to a value has made such a write by then -/
def Makes (X : Write → Prop) (p : ExceptT ε Program α) : Prop :=
  ∀ w a, (p.run.run World.answer w).result = .ok a →
    ∃ x ∈ (p.run.run World.answer w).state.written, X x

variable {X : Write → Prop} {p : ExceptT ε Program α} {f : α → ExceptT ε Program β}

theorem Makes.mono {Y : Write → Prop} (h : Makes X p) (hXY : ∀ x, X x → Y x) : Makes Y p := by
  intro w a ha
  obtain ⟨x, hx, hX⟩ := h w a ha
  exact ⟨x, hx, hXY x hX⟩

theorem ok_of_run_bind {w : World} {b : β} (h : ((p >>= f).run.run World.answer w).result = .ok b) :
    ∃ a, (p.run.run World.answer w).result = .ok a ∧
      ((f a).run.run World.answer (p.run.run World.answer w).state).result = .ok b ∧
        ((p >>= f).run.run World.answer w).state =
          ((f a).run.run World.answer (p.run.run World.answer w).state).state := by
  have hb : (p >>= f).run.run World.answer w =
      Program.run World.answer (Program.bind p.run (ExceptT.bindCont f)) w := rfl
  rw [hb, Program.run_bind] at h ⊢
  cases hr : (p.run.run World.answer w).result with
  | ok a =>
    simp only [hr] at h ⊢
    exact ⟨a, rfl, h, rfl⟩
  | error e =>
    simp only [hr] at h
    exact nomatch h

theorem makes_bind_left (h : Makes X p) : Makes X (p >>= f) := by
  intro w b hb
  obtain ⟨a, ha, _, hstate⟩ := ok_of_run_bind hb
  obtain ⟨x, hx, hX⟩ := h w a ha
  refine ⟨x, ?_, hX⟩
  rw [hstate]
  exact Program.written_subset_run _ _ x hx

theorem makes_bind_right (h : ∀ a, Makes X (f a)) : Makes X (p >>= f) := by
  intro w b hb
  obtain ⟨a, _, hfa, hstate⟩ := ok_of_run_bind hb
  rw [hstate]
  exact h a _ b hfa

theorem makes_call {c : Call} (hwrite : ∀ a, Event.write? (.call c (.ok a)) = some c.write)
    (hhidden : Fault.hidden c = none) (hX : X c.write) : Makes X (call c) := fun _ a ha =>
  ⟨c.write, World.mem_written_of_ok ha (hwrite a) hhidden, hX⟩

theorem makes_throw {e : ε} : Makes X (throw e : ExceptT ε Program α) := fun _ _ ha => nomatch ha

theorem makes_adapt {g : ε → ε'} (h : Makes X p) : Makes X (p.adapt g) := by
  intro w a ha
  have hb : (p.adapt g).run.run World.answer w =
      Program.run World.answer (Program.bind p.run fun r => .done (r.mapError g)) w := rfl
  rw [hb, Program.run_bind] at ha ⊢
  cases hr : (p.run.run World.answer w).result with
  | ok a' => exact h w a' hr
  | error e =>
    simp only [hr] at ha
    exact nomatch ha

end Pass
end ConnectorControl
