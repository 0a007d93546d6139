import ConnectorControl.Proofs.Store.Listing

/-!
# What a program assures as long as calls fail only in some ways

`Program.Assures P F p Q`: whatever the store holds and whatever it replies, as long as it fails
only as `F` allows, the program `p` makes calls as `P` allows and ends as `Q` says.  In difference
to `Program.Ensures` nothing is known of the store here, but something of the failures: which of
them a program passes on, and which it makes itself.  `Pass.Assures` is the same for programs that
may fail.

A cluster itself fails in few ways (`Cluster.ofCluster_answer`), never with a verdict on a spec
(`Failure.IsVerdict`), and neither does a world whose faults do not (`Assures.run`).
-/

namespace ConnectorControl

variable {α β ε ε' : Type} {P : Call → Prop} {F : Failure → Prop}

/-- a failure that blames the spec: it is not valid, has no scaling rule, or lacks something -/
def Failure.IsVerdict : Failure → Prop
  | .invalid _ => True
  | .conversion _ => True
  | .missingKey _ => True
  | _ => False

def Failure.OfCluster : Failure → Prop
  | .api _ => True
  | .alreadyExists _ _ => True
  | .undecodable _ => True
  | _ => False

theorem Failure.OfCluster.not_isVerdict {e : Failure} (h : e.OfCluster) : ¬e.IsVerdict := by
  cases e <;> first | exact h.elim | exact not_false

/-! ## failures of a world -/

theorem Cluster.ofCluster_readObject {v : Json} {e : Failure} (h : readObject v = .error e) :
    e.OfCluster := by
  unfold readObject at h
  split at h
  · cases h
  · obtain rfl := Except.error.inj h
    exact trivial

theorem Cluster.ofCluster_answer {c : Call} {s : Cluster} {e : Failure}
    (h : (answer c s).1 = .error e) : e.OfCluster := by
  cases c with
  | get kind ns name =>
    unfold answer at h
    cases hv : s.find? ⟨kind, ns, name⟩ with
    | none =>
      simp only [hv] at h
      cases h
    | some v =>
      simp only [hv] at h
      cases ho : readObject v with
      | ok o =>
        rw [ho] at h
        cases h
      | error e' =>
        rw [ho] at h
        obtain rfl := Except.error.inj h
        exact ofCluster_readObject ho
  | create kind ns o =>
    unfold answer at h
    dsimp only at h
    split at h
    · obtain rfl := Except.error.inj h
      exact trivial
    · exact ofCluster_readObject h
  | patch kind ns name body =>
    unfold answer at h
    dsimp only at h
    split at h
    · obtain rfl := Except.error.inj h
      exact trivial
    · exact ofCluster_readObject h
  | patchStatus kind ns name body =>
    unfold answer at h
    dsimp only at h
    split at h
    · obtain rfl := Except.error.inj h
      exact trivial
    · cases h
  | list kind ns selector =>
    have h : (s.select kind ns selector).mapM readObject = .error e := h
    obtain ⟨v, _, hv⟩ := mapM_error h
    exact ofCluster_readObject hv
  | delete kind ns name => cases h

def World.FailsAs (F : Failure → Prop) (w : World) : Prop :=
  ∀ f ∈ w.faults, ∀ e, f.failure = some e → F e

theorem World.FailsAs.answer {w : World} (hw : w.FailsAs F) (hF : ∀ e, e.OfCluster → F e)
    (c : Call) : (∀ e, (World.answer c w).1 = .error e → F e) ∧ (World.answer c w).2.FailsAs F := by
  have hsame : ∀ f g : Fault, f.Same g → (∀ e, f.failure = some e → F e) →
      ∀ e, g.failure = some e → F e := fun f g hg hf e he => hf e (hg.failure ▸ he)
  obtain ⟨hrest, htaken⟩ := Fault.take_forall hsame c hw
  unfold World.answer
  rcases ht : Fault.take c w.faults with ⟨_ | f, faults⟩
  · rw [ht] at hrest
    exact ⟨fun e he => hF e (Cluster.ofCluster_answer he), hrest⟩
  · rw [ht] at hrest htaken
    obtain ⟨hf, _⟩ := htaken f rfl
    dsimp only
    split
    next _ _ e he =>
      refine ⟨fun e' he' => ?_, hrest⟩
      obtain rfl := Except.error.inj he'
      exact hf e he
    · exact ⟨nofun, hrest⟩
    · exact ⟨fun e he => hF e (Cluster.ofCluster_answer he), hrest⟩

/-! ## programs -/

namespace Program

/-- the calls are as `P` allows, and the end is as `Q` says unless a call fails in another way than
`F` allows -/
def Assures (P : Call → Prop) (F : Failure → Prop) : Program α → (α → Prop) → Prop
  | done a, Q => Q a
  | ask c next, Q => P c ∧ ∀ r : c.Reply, (∀ e, r = .error e → F e) → (next r).Assures P F Q
  | rejectSecret _ next, Q => next.Assures P F Q

variable {p : Program α} {Q : α → Prop}

theorem assures_bind {f : α → Program β} {Q : β → Prop} :
    (p.bind f).Assures P F Q ↔ p.Assures P F fun a => (f a).Assures P F Q := by
  induction p with
  | done a => rfl
  | ask c next ih => simp only [bind, Assures, ih]
  | rejectSecret t next ih => simp only [bind, Assures, ih]

theorem Assures.mono {Q' : α → Prop} (h : p.Assures P F Q) (hQ : ∀ a, Q a → Q' a) :
    p.Assures P F Q' := by
  induction p with
  | done a => exact hQ a h
  | ask c next ih => exact ⟨h.1, fun r hr => ih r (h.2 r hr)⟩
  | rejectSecret t next ih => exact ih h

/-- what a program assures holds of its runs in worlds that fail as allowed -/
theorem Assures.run {w : World} (h : p.Assures P F Q) (hF : ∀ e, ¬e.IsVerdict → F e)
    (hw : w.FailsAs F) :
    (∀ m ∈ p.calls World.answer w, P m.1) ∧ Q (p.run World.answer w).result ∧
      (p.run World.answer w).state.FailsAs F := by
  induction p generalizing w with
  | done a => exact ⟨fun m hm => absurd hm List.not_mem_nil, h, hw⟩
  | ask c next ih =>
    obtain ⟨hreply, hw'⟩ := hw.answer (fun e he => hF e he.not_isVerdict) c
    obtain ⟨hcalls, hend⟩ := ih _ (h.2 _ hreply) hw'
    refine ⟨fun m hm => ?_, hend⟩
    rcases List.mem_cons.1 hm with rfl | hm
    · exact h.1
    · exact hcalls m hm
  | rejectSecret t next ih => exact ih h hw

/-- of a second part it is enough to know what it assures after the first part of this run -/
theorem Assures.run_bind {f : α → Program β} {Q : β → Prop} {w : World}
    (hp : p.Assures P F fun _ => True) (hf : (f (p.run World.answer w).result).Assures P F Q)
    (hF : ∀ e, ¬e.IsVerdict → F e) (hw : w.FailsAs F) :
    (∀ m ∈ (p.bind f).calls World.answer w, P m.1) ∧
      Q ((p.bind f).run World.answer w).result := by
  obtain ⟨hcalls, _, hw'⟩ := hp.run hF hw
  obtain ⟨hcalls', hend, _⟩ := hf.run hF hw'
  rw [Program.run_bind, calls_bind]
  refine ⟨fun m hm => ?_, hend⟩
  rcases List.mem_append.1 hm with hm | hm
  · exact hcalls m hm
  · exact hcalls' m hm

end Program

/-! ## programs that may fail -/

namespace Pass

/-- a value is as `Q` says and a failure as `E` says, unless a call fails otherwise than `F` says -/
def Assures (P : Call → Prop) (F : Failure → Prop) (p : ExceptT ε Program α) (Q : α → Prop)
    (E : ε → Prop) : Prop :=
  p.run.Assures P F fun r => (∀ a, r = .ok a → Q a) ∧ ∀ e, r = .error e → E e

variable {p : ExceptT ε Program α} {Q : α → Prop} {E : ε → Prop}

theorem assures_pure {a : α} (h : Q a) : Assures P F (pure a : ExceptT ε Program α) Q E := by
  refine ⟨fun a' ha => ?_, nofun⟩
  obtain rfl := Except.ok.inj ha
  exact h

theorem assures_throw {e : ε} (h : E e) : Assures P F (throw e : ExceptT ε Program α) Q E := by
  refine ⟨nofun, fun e' he => ?_⟩
  obtain rfl := Except.error.inj he
  exact h

theorem assures_call {c : Call} (hP : P c) : Assures P F (call c) (fun _ => True) F :=
  ⟨hP, fun _ hr => ⟨fun _ _ => trivial, hr⟩⟩

theorem assures_bind {f : α → ExceptT ε Program β} {Q' : β → Prop} (hp : Assures P F p Q E)
    (hf : ∀ a, Q a → Assures P F (f a) Q' E) : Assures P F (p >>= f) Q' E := by
  refine Program.assures_bind.2 (Program.Assures.mono hp fun r hr => ?_)
  cases r with
  | ok a => exact hf a (hr.1 a rfl)
  | error e => exact assures_throw (hr.2 e rfl)

theorem assures_adapt {f : ε → ε'} {E' : ε' → Prop} (hp : Assures P F p Q E)
    (hE : ∀ e, E e → E' (f e)) : Assures P F (p.adapt f) Q E' := by
  refine Program.assures_bind.2 (Program.Assures.mono hp fun r hr => ?_)
  cases r with
  | ok a => exact assures_pure (hr.1 a rfl)
  | error e => exact assures_throw (hE e (hr.2 e rfl))

theorem assures_always {p : Program α} {E : Failure → Prop} (hp : p.Assures P F Q) :
    Assures P F (always p) Q E :=
  Program.assures_bind.2 (hp.mono fun _ ha => assures_pure ha)

end Pass
end ConnectorControl
