import ConnectorControl.Proofs.Store.Fetches

/-!
# Two runs side by side

`Program.Abreast p q s t Q`: run on the clusters `s` and `t`, with nothing in between, the programs
`p` and `q` end with values and clusters of which `Q` holds.  `Pass.Abreast` is the same for
programs that may fail: both come to a value, or both fail with the same failure.  Each way to build
such a program has one rule here, and two runs of a pass are compared by the rules only.

A fetch of what is the same on both sides gives the same (`Fetches.abreast`).  A world without
faults runs as its cluster does (`Program.run_of_noFaults`).
-/

namespace ConnectorControl

variable {α β γ δ ε ε' : Type} {s t : Cluster}

namespace Program

/-! ## runs on a cluster -/

theorem run_of_noFaults (p : Program α) {w : World} (hw : w.faults = []) :
    (p.run World.answer w).result = (p.run Cluster.answer w.cluster).result ∧
      (p.run World.answer w).state.cluster = (p.run Cluster.answer w.cluster).state ∧
        (p.run World.answer w).state.faults = [] := by
  induction p generalizing w with
  | done a => exact ⟨rfl, rfl, hw⟩
  | ask c next ih =>
    have hanswer : World.answer c w = World.passOn c w := by
      unfold World.answer
      rw [hw]
      show World.passOn c { w with faults := [] } = _
      rw [← hw]
    have hfaults : (World.answer c w).2.faults = [] := by
      rw [hanswer]
      exact hw
    have ih := ih (World.answer c w).1 hfaults
    rw [hanswer] at ih
    show (run World.answer (next (World.answer c w).1) (World.answer c w).2).result = _ ∧
      (run World.answer (next (World.answer c w).1) (World.answer c w).2).state.cluster = _ ∧
        (run World.answer (next (World.answer c w).1) (World.answer c w).2).state.faults = []
    rw [hanswer]
    exact ih
  | rejectSecret t next ih => exact ih hw

theorem Ensures.answer {p : Program α} {P : Call → Cluster → Prop} {Q : α → Cluster → Prop}
    {d : Disturbance} (h : Ensures d P p s Q) :
    Q (p.run Cluster.answer s).result (p.run Cluster.answer s).state := by
  induction p generalizing s with
  | done a => exact h
  | ask c next ih => exact ih _ (h.2 _ _ .answered)
  | rejectSecret t next ih => exact ih h

/-! ## two programs -/

/-- two programs, each on a cluster of its own, end as `Q` says -/
def Abreast (p : Program α) (q : Program β) (s t : Cluster)
    (Q : α → β → Cluster → Cluster → Prop) : Prop :=
  Q (p.run Cluster.answer s).result (q.run Cluster.answer t).result
    (p.run Cluster.answer s).state (q.run Cluster.answer t).state

variable {p : Program α} {q : Program β} {f : α → Program γ} {g : β → Program δ}

theorem abreast_bind {Q : γ → δ → Cluster → Cluster → Prop} :
    Abreast (p.bind f) (q.bind g) s t Q ↔
      Abreast p q s t fun a b s' t' => Abreast (f a) (g b) s' t' Q := by
  unfold Abreast
  rw [run_bind, run_bind]

theorem Abreast.mono {Q R : α → β → Cluster → Cluster → Prop} (h : Abreast p q s t Q)
    (hQ : ∀ a b s' t', Q a b s' t' → R a b s' t') : Abreast p q s t R := hQ _ _ _ _ h

theorem Ensures.abreast {d : Disturbance} {P : Call → Cluster → Prop} {Q : α → Cluster → Prop}
    {R : β → Cluster → Prop} (hp : Ensures d P p s Q) (hq : Ensures d P q t R) :
    Abreast p q s t fun a b s' t' => Q a s' ∧ R b t' :=
  ⟨hp.answer, hq.answer⟩

end Program

/-! ## programs that may fail -/

namespace Pass

/-- a postcondition for two values and one for a failure on both sides -/
def EndAlike (Q : α → β → Cluster → Cluster → Prop) (E : Cluster → Cluster → Prop) :
    Except ε α → Except ε β → Cluster → Cluster → Prop
  | .ok a, .ok b, s, t => Q a b s t
  | .error e, .error e', s, t => e = e' ∧ E s t
  | .ok _, .error _, _, _ => False
  | .error _, .ok _, _, _ => False

theorem EndAlike.result_eq {F : Cluster → Cluster → Prop} {r r' : Except ε α}
    (h : EndAlike (fun a b s t => a = b ∧ F s t) F r r' s t) : r = r' ∧ F s t := by
  cases r with
  | ok a =>
    cases r' with
    | ok b => exact ⟨congrArg _ h.1, h.2⟩
    | error e => exact h.elim
  | error e =>
    cases r' with
    | ok b => exact h.elim
    | error e' => exact ⟨congrArg _ h.1, h.2⟩

/-- two programs, each on a cluster of its own, both come to values, as `Q` says, or both fail with
one failure, as `E` says -/
def Abreast (p : ExceptT ε Program α) (q : ExceptT ε Program β) (s t : Cluster)
    (Q : α → β → Cluster → Cluster → Prop) (E : Cluster → Cluster → Prop) : Prop :=
  Program.Abreast p.run q.run s t (EndAlike Q E)

variable {Q : α → β → Cluster → Cluster → Prop} {E : Cluster → Cluster → Prop}
  {p : ExceptT ε Program α} {q : ExceptT ε Program β}

theorem abreast_ofExcept {Q : α → α → Cluster → Cluster → Prop} {r : Except Failure α}
    (hQ : ∀ a, r = .ok a → Q a a s t) (hE : E s t) :
    Abreast (ofExcept r) (ofExcept r) s t Q E := by
  cases r with
  | ok a => exact hQ a rfl
  | error e => exact ⟨rfl, hE⟩

theorem abreast_bind {f : α → ExceptT ε Program γ} {g : β → ExceptT ε Program δ}
    {Q : γ → δ → Cluster → Cluster → Prop}
    (h : Abreast p q s t (fun a b s' t' => Abreast (f a) (g b) s' t' Q E) E) :
    Abreast (p >>= f) (q >>= g) s t Q E := by
  unfold Abreast
  show Program.Abreast (Program.bind p.run (ExceptT.bindCont f))
    (Program.bind q.run (ExceptT.bindCont g)) s t _
  rw [Program.abreast_bind]
  refine h.mono fun r r' s' t' hr => ?_
  cases r with
  | ok a =>
    cases r' with
    | ok b => exact hr
    | error e => exact hr.elim
  | error e =>
    cases r' with
    | ok b => exact hr.elim
    | error e' => exact hr

theorem abreast_adapt {f : ε → ε'} (h : Abreast p q s t Q E) :
    Abreast (p.adapt f) (q.adapt f) s t Q E := by
  unfold Abreast
  show Program.Abreast (Program.bind p.run fun r => .done (r.mapError f))
    (Program.bind q.run fun r => .done (r.mapError f)) s t _
  rw [Program.abreast_bind]
  refine h.mono fun r r' s' t' hr => ?_
  cases r with
  | ok a =>
    cases r' with
    | ok b => exact hr
    | error e => exact hr.elim
  | error e =>
    cases r' with
    | ok b => exact hr.elim
    | error e' => exact ⟨congrArg f hr.1, hr.2⟩

theorem abreast_always {p : Program α} {q : Program β} {E : Cluster → Cluster → Prop} :
    Abreast (always p) (always q) s t Q E ↔ Program.Abreast p q s t Q := by
  unfold Abreast
  show Program.Abreast (Program.bind p fun a => .done (Except.ok a : Except Failure α))
    (Program.bind q fun b => .done (Except.ok b : Except Failure β)) s t _ ↔ _
  rw [Program.abreast_bind]
  exact Iff.rfl

theorem Abreast.mono {Q' : α → β → Cluster → Cluster → Prop} {E' : Cluster → Cluster → Prop}
    (h : Abreast p q s t Q E) (hQ : ∀ a b s' t', Q a b s' t' → Q' a b s' t')
    (hE : ∀ s' t', E s' t' → E' s' t') : Abreast p q s t Q' E' := by
  refine Program.Abreast.mono h fun r r' s' t' hr => ?_
  cases r with
  | ok a =>
    cases r' with
    | ok b => exact hQ a b s' t' hr
    | error e => exact hr.elim
  | error e =>
    cases r' with
    | ok b => exact hr.elim
    | error e' => exact ⟨hr.1, hE s' t' hr.2⟩

theorem Fetches.abreast {K : ObjectKey → Prop} {p : ExceptT ε Program α} (hp : Fetches K p)
    (h : ∀ k, K k → s.find? k = t.find? k) {Q : α → α → Cluster → Cluster → Prop}
    (hQ : ∀ a, p.run.value s = .ok a → Q a a s t) (hE : E s t) : Abreast p p s t Q E := by
  have hrun : ∀ s, Program.Ensures .none (fun _ _ => True) p.run s fun r s' =>
      s' = s ∧ r = p.run.value s := fun s =>
    Program.Fetches.ensures hp (fun _ _ => Disturbance.tame_none.spares _ _ _) fun _ _ => trivial
  have hvalue : p.run.value s = p.run.value t := Program.Fetches.congr hp h
  refine ((hrun s).abreast (hrun t)).mono fun r r' s' t' hr => ?_
  obtain ⟨⟨rfl, rfl⟩, rfl, rfl⟩ := hr
  rw [← hvalue]
  cases hv : p.run.value s' with
  | ok a => exact hQ a hv
  | error e => exact ⟨rfl, hE⟩

end Pass
end ConnectorControl
