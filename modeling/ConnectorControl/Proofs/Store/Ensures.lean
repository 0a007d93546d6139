import ConnectorControl.Proofs.Store.Disturbance

/-!
# What a program ensures on a disturbed store

`Program.Ensures d P p s Q`: started on the cluster `s` under the disturbance `d`, whatever replies
come, the program `p` makes each call in a state with which `P` holds, and ends with a value and a
cluster of which `Q` holds.  `Pass.Ensures` is the same for programs that may fail, with a second
postcondition for failures; each way to build such a program has one rule here, and proofs about
passes use the rules only.

`Program.Ensures.run` brings the judgement down to runs on a world with faults: to its result, to
its last state, and to the calls of the run (`Program.calls`), each with the state it is made in.
-/

namespace ConnectorControl

universe u

variable {α β ε ε' : Type} {σ : Type u} {d : Disturbance} {P : Call → Cluster → Prop}

namespace Program

/-! ## the judgement -/

/-- the calls are made as `P` allows, and the end is as `Q` says, under any replies -/
def Ensures (d : Disturbance) (P : Call → Cluster → Prop) :
    Program α → Cluster → (α → Cluster → Prop) → Prop
  | done a, s, Q => Q a s
  | ask c next, s, Q => P c s ∧ ∀ r s', Cluster.Replies d c s r s' → (next r).Ensures d P s' Q
  | rejectSecret _ next, s, Q => next.Ensures d P s Q

theorem ensures_bind {p : Program α} {f : α → Program β} {s : Cluster} {Q : β → Cluster → Prop} :
    Ensures d P (p.bind f) s Q ↔ Ensures d P p s fun a s' => Ensures d P (f a) s' Q := by
  induction p generalizing s with
  | done a => rfl
  | ask c next ih => simp only [bind, Ensures, ih]
  | rejectSecret t next ih => simp only [bind, Ensures, ih]

theorem Ensures.mono {p : Program α} {s : Cluster} {Q R : α → Cluster → Prop}
    (h : Ensures d P p s Q) (hQ : ∀ a s', Q a s' → R a s') : Ensures d P p s R := by
  induction p generalizing s with
  | done a => exact hQ a s h
  | ask c next ih => exact ⟨h.1, fun r s' hr => ih r (h.2 r s' hr)⟩
  | rejectSecret t next ih => exact ih h

theorem ensures_trivial (p : Program α) (s : Cluster) :
    Ensures d (fun _ _ => True) p s fun _ _ => True := by
  induction p generalizing s with
  | done a => trivial
  | ask c next ih => exact ⟨trivial, fun r s' _ => ih r s'⟩
  | rejectSecret t next ih => exact ih s

theorem Ensures.mono_calls {p : Program α} {s : Cluster} {Q : α → Cluster → Prop}
    {P' : Call → Cluster → Prop} (h : Ensures d P p s Q) (hP : ∀ c s', P c s' → P' c s') :
    Ensures d P' p s Q := by
  induction p generalizing s with
  | done a => exact h
  | ask c next ih => exact ⟨hP c s h.1, fun r s' hr => ih r (h.2 r s' hr)⟩
  | rejectSecret t next ih => exact ih h

/-! ## runs -/

/-- the calls of a run, each with the state that it is made in -/
def calls (h : Handler σ) : Program α → σ → List (Call × σ)
  | done _, _ => []
  | ask c next, s => (c, s) :: calls h (next (h c s).1) (h c s).2
  | rejectSecret _ next, s => calls h next s

theorem calls_bind (h : Handler σ) (p : Program α) (f : α → Program β) (s : σ) :
    (p.bind f).calls h s = p.calls h s ++ (f (p.run h s).result).calls h (p.run h s).state := by
  induction p generalizing s with
  | done a => rfl
  | ask c next ih => exact congrArg (List.cons (c, s)) (ih (h c s).1 (h c s).2)
  | rejectSecret t next ih => exact ih s

/-- what a program ensures holds of its run on a world -/
theorem Ensures.run {p : Program α} {w : World} {Q : α → Cluster → Prop}
    (h : Ensures d P p w.cluster Q) (hw : w.Within d) :
    (∀ m ∈ p.calls World.answer w, P m.1 m.2.cluster) ∧
      Q (p.run World.answer w).result (p.run World.answer w).state.cluster ∧
        (p.run World.answer w).state.Within d := by
  induction p generalizing w with
  | done a => exact ⟨fun m hm => absurd hm List.not_mem_nil, h, hw⟩
  | ask c next ih =>
    obtain ⟨hr, hw'⟩ := World.replies_answer hw c
    obtain ⟨h₁, h₂⟩ := ih _ (h.2 _ _ hr) hw'
    refine ⟨fun m hm => ?_, h₂⟩
    rcases List.mem_cons.1 hm with rfl | hm
    · exact h.1
    · exact h₁ m hm
  | rejectSecret t next ih => exact ih h hw

theorem written_run (p : Program α) (w : World) :
    ∃ new, (p.run World.answer w).state.written = new ++ w.written ∧
      ∀ x ∈ new, ∃ m ∈ p.calls World.answer w, Cluster.write? m.1 m.2.cluster = some x := by
  induction p generalizing w with
  | done a => exact ⟨[], rfl, fun x hx => absurd hx List.not_mem_nil⟩
  | ask c next ih =>
    obtain ⟨new, hnew, hmem⟩ := ih (World.answer c w).1 (World.answer c w).2
    obtain ⟨now, hnow, hnow'⟩ : ∃ now, (World.answer c w).2.written = now ++ w.written ∧
        ∀ x ∈ now, Cluster.write? c w.cluster = some x := by
      unfold World.answer
      split
      · exact ⟨_, rfl, fun x hx => Option.mem_toList.1 hx⟩
      · split
        · exact ⟨[], rfl, fun x hx => absurd hx List.not_mem_nil⟩
        · exact ⟨[], rfl, fun x hx => absurd hx List.not_mem_nil⟩
        · exact ⟨_, rfl, fun x hx => Option.mem_toList.1 hx⟩
    refine ⟨new ++ now, ?_, fun x hx => ?_⟩
    · show (run World.answer (next _) _).state.written = _
      rw [hnew, hnow, List.append_assoc]
    · rcases List.mem_append.1 hx with hx | hx
      · obtain ⟨m, hm, hx⟩ := hmem x hx
        exact ⟨m, List.mem_cons_of_mem _ hm, hx⟩
      · exact ⟨(c, w), List.mem_cons_self, hnow' x hx⟩
  | rejectSecret t next ih => exact ih w

end Program

/-! ## programs that may fail -/

namespace Pass

/-- a postcondition for values and one for failures, as one for both -/
def Ends (Q : α → Cluster → Prop) (E : ε → Cluster → Prop) : Except ε α → Cluster → Prop
  | .ok a, s => Q a s
  | .error e, s => E e s

/-- the calls are made as `P` allows; a value is as `Q` says and a failure as `E` says -/
def Ensures (d : Disturbance) (P : Call → Cluster → Prop) (p : ExceptT ε Program α) (s : Cluster)
    (Q : α → Cluster → Prop) (E : ε → Cluster → Prop) : Prop :=
  Program.Ensures d P p.run s (Ends Q E)

variable {s : Cluster} {Q : α → Cluster → Prop} {E : ε → Cluster → Prop}

theorem ensures_pure {a : α} : Ensures d P (pure a : ExceptT ε Program α) s Q E ↔ Q a s :=
  Iff.rfl

theorem ensures_throw {e : ε} : Ensures d P (throw e : ExceptT ε Program α) s Q E ↔ E e s :=
  Iff.rfl

theorem ensures_bind {p : ExceptT ε Program α} {f : α → ExceptT ε Program β}
    {Q : β → Cluster → Prop} :
    Ensures d P (p >>= f) s Q E ↔ Ensures d P p s (fun a s' => Ensures d P (f a) s' Q E) E := by
  unfold Ensures
  show Program.Ensures d P (Program.bind p.run (ExceptT.bindCont f)) s _ ↔ _
  rw [Program.ensures_bind]
  have h : ∀ (r : Except ε α) s', Program.Ensures d P (ExceptT.bindCont f r) s' (Ends Q E) ↔
      Ends (fun a s' => Program.Ensures d P (f a).run s' (Ends Q E)) E r s' := by
    intro r s'
    cases r with
    | ok a => exact Iff.rfl
    | error e => exact Iff.rfl
  simp only [h]

theorem ensures_call {c : Call} {Q : c.Answer → Cluster → Prop} {E : Failure → Cluster → Prop} :
    Ensures d P (call c) s Q E ↔ P c s ∧ ∀ r s', Cluster.Replies d c s r s' → Ends Q E r s' :=
  Iff.rfl

theorem ensures_ofExcept {r : Except Failure α} {E : Failure → Cluster → Prop} :
    Ensures d P (ofExcept r) s Q E ↔ Ends Q E r s :=
  Iff.rfl

theorem ensures_always {p : Program α} {E : Failure → Cluster → Prop} :
    Ensures d P (always p) s Q E ↔ Program.Ensures d P p s Q := by
  unfold Ensures
  show Program.Ensures d P (Program.bind p fun a => .done (Except.ok a : Except Failure α)) s _ ↔ _
  rw [Program.ensures_bind]
  exact Iff.rfl

theorem ensures_run {p : ExceptT ε Program α} {Q : Except ε α → Cluster → Prop} :
    Program.Ensures d P p.run s Q ↔
      Ensures d P p s (fun a => Q (.ok a)) (fun e => Q (.error e)) := by
  unfold Ensures
  have h : Ends (fun a => Q (.ok a)) (fun e => Q (.error e)) = Q := by
    funext r s'
    cases r with
    | ok a => rfl
    | error e => rfl
  rw [h]

theorem ensures_adapt {p : ExceptT ε Program α} {f : ε → ε'} {E : ε' → Cluster → Prop} :
    Ensures d P (p.adapt f) s Q E ↔ Ensures d P p s Q fun e => E (f e) := by
  unfold Ensures
  show Program.Ensures d P (Program.bind p.run fun r => .done (r.mapError f)) s _ ↔ _
  rw [Program.ensures_bind]
  have h : ∀ (r : Except ε α) s',
      Ends Q E (r.mapError f) s' = Ends Q (fun e => E (f e)) r s' := by
    intro r s'
    cases r with
    | ok a => rfl
    | error e => rfl
  simp only [Program.Ensures, h]

theorem Ensures.mono {p : ExceptT ε Program α} {Q' : α → Cluster → Prop} {E' : ε → Cluster → Prop}
    (h : Ensures d P p s Q E) (hQ : ∀ a s', Q a s' → Q' a s') (hE : ∀ e s', E e s' → E' e s') :
    Ensures d P p s Q' E' := by
  refine Program.Ensures.mono h fun r s' hr => ?_
  cases r with
  | ok a => exact hQ a s' hr
  | error e => exact hE e s' hr

theorem ensures_trivial (p : ExceptT ε Program α) :
    Ensures d (fun _ _ => True) p s (fun _ _ => True) fun _ _ => True := by
  refine Program.Ensures.mono (Program.ensures_trivial p.run s) fun r s' _ => ?_
  cases r with
  | ok a => trivial
  | error e => trivial

theorem Ensures.mono_calls {p : ExceptT ε Program α} {P' : Call → Cluster → Prop}
    (h : Ensures d P p s Q E) (hP : ∀ c s', P c s' → P' c s') : Ensures d P' p s Q E :=
  Program.Ensures.mono_calls h hP

theorem Ensures.mono_ok {p : ExceptT ε Program α} {Q' : α → Cluster → Prop}
    (h : Ensures d P p s Q E) (hQ : ∀ a s', Q a s' → Q' a s') : Ensures d P p s Q' E :=
  h.mono hQ fun _ _ he => he

/-! ## runs -/

/-- after a first part that gives a value comes the second part for that value -/
theorem run_bind_of_ok {h : Program.Handler σ} {p : ExceptT ε Program α}
    {f : α → ExceptT ε Program β} {x : σ} {a : α} (ha : (p.run.run h x).result = .ok a) :
    ((p >>= f).run.run h x).result = ((f a).run.run h (p.run.run h x).state).result ∧
      ((p >>= f).run.run h x).state = ((f a).run.run h (p.run.run h x).state).state := by
  have hb : (p >>= f).run.run h x = Program.run h (Program.bind p.run (ExceptT.bindCont f)) x := rfl
  rw [hb, Program.run_bind]
  simp only [ha]
  exact ⟨rfl, rfl⟩

end Pass
end ConnectorControl
