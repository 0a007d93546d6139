import ConnectorControl.Store.Program

/-!
# Turns on a store

Programs that run side by side take turns: in each round every program that is not done makes one
call, in the order of the programs.  A call that never reaches the store gets its reply at once and
does not take a turn.

`run_ofProgram` says that a program alone takes its turns as if it was run without any.
-/

namespace ConnectorControl

/-- a computation in turns, each of which may change the state -/
inductive Turns (σ α : Type) where
  | done (a : α)
  | turn (next : σ → Turns σ α) (state : σ → σ)

namespace Turns

variable {σ α β : Type}

def map (f : α → β) : Turns σ α → Turns σ β
  | done a => done (f a)
  | turn next state => turn (fun s => map f (next s)) state

/-- the turns of two computations in rounds, the first one being first in each of them -/
def both : Turns σ α → Turns σ β → Turns σ (α × β)
  | done a, q => q.map fun b => (a, b)
  | turn next state, done b => (turn next state).map fun a => (a, b)
  | turn next state, turn next' state' =>
    turn (fun s => both (next s) (next' (state s))) (fun s => state' (state s))

/-- the turns of several computations in rounds -/
def all : List (Turns σ α) → Turns σ (List α)
  | [] => done []
  | t :: ts => (both t (all ts)).map fun p => p.1 :: p.2

/-- takes all the turns -/
def run : Turns σ α → σ → α × σ
  | done a, s => (a, s)
  | turn next state, s => run (next s) (state s)

/-- The turns of a program on a store, with what happens in it.  Some calls have a reply without the
store. -/
def ofProgram (h : Program.Handler σ) (unsent? : (c : Call) → Option c.Reply) :
    Program α → Turns σ (α × List Event)
  | .done a => done (a, [])
  | .ask c next =>
    match unsent? c with
    | some reply => (ofProgram h unsent? (next reply)).map fun r => (r.1, .call c reply :: r.2)
    | none =>
      turn
        (fun s =>
          let reply := (h c s).1
          (ofProgram h unsent? (next reply)).map fun r => (r.1, .call c reply :: r.2))
        (fun s => (h c s).2)
  | .rejectSecret t next =>
    (ofProgram h unsent? next).map fun r => (r.1, .secretRejected t :: r.2)

@[simp] theorem run_map (f : α → β) (t : Turns σ α) (s : σ) :
    (t.map f).run s = (f (t.run s).1, (t.run s).2) := by
  induction t generalizing s with
  | done a => rfl
  | turn next state ih => simp [map, run, ih]

theorem run_ofProgram (h : Program.Handler σ) (p : Program α) (s : σ) :
    (ofProgram h (fun _ => none) p).run s =
      let r := p.run h s
      ((r.result, r.events), r.state) := by
  induction p generalizing s with
  | done a => rfl
  | ask c next ih => simp [ofProgram, run, Program.run, ih]
  | rejectSecret t next ih => simp [ofProgram, Program.run, ih]

end Turns
end ConnectorControl
