import ConnectorControl.Store.Call

/-!
# Programs of store calls

A pass is a program: a tree of calls, each with a continuation for every reply, so what a pass does
can be said for any store, with faults or other clients in between.  A handler gives a store its
meaning, and `Program.run` runs a program on it and keeps the events in order.

`run_bind` says that a program runs its two parts one after the other.
-/

namespace ConnectorControl

universe u

inductive Program (α : Type) where
  | done (a : α)
  | ask (c : Call) (next : c.Reply → Program α)
  | rejectSecret (triggerType : String) (next : Program α)

namespace Program

variable {α β : Type} {σ : Type u}

def bind : Program α → (α → Program β) → Program β
  | done a, f => f a
  | ask c next, f => ask c fun r => bind (next r) f
  | rejectSecret t next, f => rejectSecret t (bind next f)

instance : Monad Program where
  pure := done
  bind := bind

@[simp] theorem pure_eq (a : α) : (pure a : Program α) = done a := rfl

@[simp] theorem bind_eq (p : Program α) (f : α → Program β) : p >>= f = p.bind f := rfl

@[simp] theorem bind_done (p : Program α) : p.bind done = p := by
  induction p with
  | done a => rfl
  | ask c next ih => simp [bind, ih]
  | rejectSecret t next ih => simp [bind, ih]

theorem bind_assoc {γ : Type} (p : Program α) (f : α → Program β) (g : β → Program γ) :
    (p.bind f).bind g = p.bind fun a => (f a).bind g := by
  induction p with
  | done a => rfl
  | ask c next ih => simp [bind, ih]
  | rejectSecret t next ih => simp [bind, ih]

instance : LawfulMonad Program :=
  LawfulMonad.mk' Program (fun p => bind_done p) (fun _ _ => rfl) bind_assoc

/-- makes a call and gives its reply -/
def attempt (c : Call) : Program c.Reply := ask c done

/-- notes that a Secret lacks keys -/
def noteRejected (triggerType : String) : Program Unit := rejectSecret triggerType (done ())

/-- the meaning of calls on a store -/
def Handler (σ : Type u) : Type u := (c : Call) → σ → c.Reply × σ

/-- how a program ended, what happened, and the store after it -/
structure Run (σ : Type u) (α : Type) where
  result : α
  events : List Event
  state : σ

def run (h : Handler σ) : Program α → σ → Run σ α
  | done a, s => ⟨a, [], s⟩
  | ask c next, s =>
    let reply := h c s
    let rest := run h (next reply.1) reply.2
    { rest with events := .call c reply.1 :: rest.events }
  | rejectSecret t next, s =>
    let rest := run h next s
    { rest with events := .secretRejected t :: rest.events }

theorem run_bind (h : Handler σ) (p : Program α) (f : α → Program β) (s : σ) :
    (p.bind f).run h s =
      let first := p.run h s
      let second := (f first.result).run h first.state
      { second with events := first.events ++ second.events } := by
  induction p generalizing s with
  | done a => rfl
  | ask c next ih => simp [bind, run, ih]
  | rejectSecret t next ih => simp [bind, run, ih]

/-- the changes to the store that a run was told of -/
def Run.writes (r : Run σ α) : List Write := r.events.filterMap Event.write?

end Program

/-- a program that may fail -/
abbrev Pass (α : Type) := ExceptT Failure Program α

namespace Pass

variable {α : Type}

/-- makes a call and fails when it fails -/
def call (c : Call) : Pass c.Answer := ExceptT.mk (Program.attempt c)

/-- a step that needs no calls -/
def ofExcept (r : Except Failure α) : Pass α := ExceptT.mk (.done r)

/-- a program that does not fail -/
def always (p : Program α) : Pass α := ExceptT.lift p

def get (kind : Kind) (ns name : String) : Pass (Option Object) := call (.get kind ns name)

def patch (kind : Kind) (ns name : String) (body : Json) : Pass Object :=
  call (.patch kind ns name body)

def patchStatus (kind : Kind) (ns name : String) (body : Json) : Pass Unit :=
  call (.patchStatus kind ns name body)

def list (kind : Kind) (ns selector : String) : Pass (List Object) :=
  call (.list kind ns selector)

def delete (kind : Kind) (ns name : String) : Pass Bool := call (.delete kind ns name)

end Pass
end ConnectorControl
