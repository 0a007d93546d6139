import ConnectorControl.Api.Server
import ConnectorControl.Proofs.Store.Alike
import ConnectorControl.Proofs.Store.Assures

/-!
# Secrets that a program rejects

Only a program looks into Secrets.  A store that is plain (`Handler.Plain`) replies as it likes, but
never that a Secret lacks keys.

`Program.Rejects p Q`: whatever a plain store replies, `Q` holds of the trigger types for which `p`
rejects Secrets, in order, and of what `p` comes to.  A program that may fail admits what it rejects
(`Pass.Admits`) when it rejects no Secret unless it fails for it, and then no other.
-/

namespace ConnectorControl

universe u

variable {α β ε ε' : Type} {σ : Type u}

/-- the trigger type for which a Secret lacks keys, if that is the failure -/
def Failure.rejected? : Failure → Option String
  | .secretMissesKeys _ type _ => some type
  | _ => none

theorem Failure.OfCluster.rejected?_eq_none {e : Failure} (h : e.OfCluster) :
    e.rejected? = none := by
  cases e <;> first | exact h.elim | rfl

theorem Failure.IsVerdict.rejected?_eq_none {e : Failure} (h : e.IsVerdict) :
    e.rejected? = none := by
  cases e <;> first | exact h.elim | rfl

/-! ## plain stores -/

def Call.Reply.Plain {c : Call} (r : c.Reply) : Prop := ∀ e, r = .error e → e.rejected? = none

theorem Call.Reply.plain_error {c : Call} {e : Failure} (h : e.rejected? = none) :
    Plain (c := c) (.error e) := by
  intro e' he
  obtain rfl := Except.error.inj he
  exact h

theorem Call.Reply.plain_ite {c : Call} {p : Prop} [Decidable p] {r r' : c.Reply} (hr : r.Plain)
    (hr' : r'.Plain) : Plain (if p then r else r') := by
  split
  · exact hr
  · exact hr'

/-- a store never fails for a Secret that lacks keys while it is as `I` says, and it stays so -/
def Program.Handler.Plain (I : σ → Prop) (h : Program.Handler σ) : Prop :=
  ∀ c s, I s → Call.Reply.Plain (h c s).1 ∧ I (h c s).2

theorem World.plain_answer :
    Program.Handler.Plain (World.FailsAs fun e => e.rejected? = none) World.answer :=
  fun c _ hw => hw.answer (fun _ he => he.rejected?_eq_none) c

theorem Call.plain_onError (c : Call) (e : ApiError) : Call.Reply.Plain (c.onError e) := by
  have hapi : ∀ {c : Call}, Call.Reply.Plain (c := c) (.error (.api e)) := Reply.plain_error rfl
  cases c with
  | get kind ns name => exact Reply.plain_ite nofun hapi
  | create kind ns o => exact Reply.plain_ite (Reply.plain_error rfl) hapi
  | patch kind ns name body => exact hapi
  | patchStatus kind ns name body => exact hapi
  | list kind ns selector => exact Reply.plain_ite nofun hapi
  | delete kind ns name => exact Reply.plain_ite nofun hapi

/-- whatever is replied by HTTP, no call fails for a Secret that lacks keys -/
theorem Call.plain_receive (c : Call) (r : HttpReply) : Call.Reply.Plain (c.receive r) := by
  refine Reply.plain_ite (Reply.plain_error rfl) (Reply.plain_ite (plain_onError c _) ?_)
  split
  · exact nofun
  · exact Reply.plain_error rfl

/-- an API server is plain, whatever happens behind it -/
theorem Call.plain_serve : Program.Handler.Plain (fun _ => True) Call.serve := by
  intro c w _
  refine ⟨?_, trivial⟩
  unfold serve
  split
  · exact Reply.plain_error rfl
  · exact plain_receive c _

/-! ## programs -/

namespace Program

/-- `Q` holds of the trigger types for which Secrets are rejected and of the end, unless a call
fails for a Secret that lacks keys -/
def Rejects : Program α → (List String → α → Prop) → Prop
  | done a, Q => Q [] a
  | ask c next, Q => ∀ r : c.Reply, r.Plain → (next r).Rejects Q
  | rejectSecret t next, Q => next.Rejects fun ts => Q (t :: ts)

variable {p : Program α} {Q : List String → α → Prop}

theorem Rejects.mono {Q' : List String → α → Prop} (h : p.Rejects Q)
    (hQ : ∀ ts a, Q ts a → Q' ts a) : p.Rejects Q' := by
  induction p generalizing Q Q' with
  | done a => exact hQ [] a h
  | ask c next ih => exact fun r hr => ih r (h r hr) hQ
  | rejectSecret t next ih => exact ih h fun ts => hQ (t :: ts)

theorem rejects_bind {f : α → Program β} {Q : List String → β → Prop} :
    (p.bind f).Rejects Q ↔ p.Rejects fun ts a => (f a).Rejects fun ts' => Q (ts ++ ts') := by
  induction p generalizing Q with
  | done a => rfl
  | ask c next ih => simp only [bind, Rejects, ih]
  | rejectSecret t next ih => simp only [bind, Rejects, ih, List.cons_append]

theorem Rejects.run {σ : Type} {I : σ → Prop} {h : Handler σ} (hp : p.Rejects Q) (hh : h.Plain I)
    {s : σ} (hs : I s) : Q (p.run h s).rejected (p.run h s).result ∧ I (p.run h s).state := by
  induction p generalizing s Q with
  | done a => exact ⟨hp, hs⟩
  | ask c next ih =>
    obtain ⟨hreply, hs'⟩ := hh c s hs
    exact ih _ (hp _ hreply) hs'
  | rejectSecret t next ih => exact ih hp hs

end Program

/-! ## programs that may fail -/

namespace Pass

/-- the rejected Secret that a result tells of, where `g` reads off the failure -/
def admitted (g : ε → Failure) : Except ε α → List String
  | .ok _ => []
  | .error e => (g e).rejected?.toList

def Admits (g : ε → Failure) (p : ExceptT ε Program α) : Prop :=
  p.run.Rejects fun ts r => ts = admitted g r

variable {g : ε → Failure}

theorem admits_pure {a : α} : Admits g (pure a : ExceptT ε Program α) := rfl

theorem admits_throw {e : ε} (h : (g e).rejected? = none) :
    Admits g (throw e : ExceptT ε Program α) := by
  show [] = (g e).rejected?.toList
  rw [h]
  rfl

theorem admits_ofExcept {r : Except Failure α} (h : ∀ e, r = .error e → e.rejected? = none) :
    Admits id (ofExcept r) := by
  cases r with
  | ok a => rfl
  | error e => exact admits_throw (h e rfl)

theorem admits_call {c : Call} : Admits id (call c) := fun _ hr => admits_ofExcept hr

theorem admits_bind {p : ExceptT ε Program α} {f : α → ExceptT ε Program β} (hp : Admits g p)
    (hf : ∀ a, Admits g (f a)) : Admits g (p >>= f) := by
  refine Program.rejects_bind.2 (Program.Rejects.mono hp fun ts r hr => ?_)
  cases r with
  | ok a =>
    rw [hr]
    exact hf a
  | error e => exact (List.append_nil ts).trans hr

theorem admits_adapt {p : ExceptT ε Program α} {f : ε → ε'} {g' : ε' → Failure}
    (hp : Admits g p) (hg : ∀ e, g' (f e) = g e) : Admits g' (p.adapt f) := by
  refine Program.rejects_bind.2 (Program.Rejects.mono hp fun ts r hr => ?_)
  cases r with
  | ok a => exact (List.append_nil ts).trans hr
  | error e =>
    show ts ++ [] = (g' (f e)).rejected?.toList
    rw [List.append_nil, hg, hr]
    rfl

theorem admits_always {p : Program α} (hp : p.Rejects fun ts _ => ts = []) :
    Admits id (always p) := by
  refine Program.rejects_bind.2 (Program.Rejects.mono hp fun ts a hts => ?_)
  exact (List.append_nil ts).trans hts

end Pass
end ConnectorControl
