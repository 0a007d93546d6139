import ConnectorControl.Store.Cluster

/-!
# Faults

A fault makes calls of one verb on one kind, and on one name if it gives one, end otherwise than the
cluster would have it: with a failure, or as if there were no object.  It may let a number of calls
through first, and act only a number of times.  Each call is taken by the first fault, in order of
addition, that acts on it.

A world is a cluster behind faults; it keeps what calls have written.
-/

namespace ConnectorControl

structure Fault where
  verb : Verb
  kind : Kind
  name : Option String
  /-- the failure to end with; a fault without one hides the object -/
  failure : Option Failure
  /-- how often it still acts; without a number, always -/
  times : Option Nat
  /-- how many calls it still lets through -/
  skip : Nat

namespace Fault

def concerns (f : Fault) (c : Call) : Bool :=
  f.verb = c.verb && f.kind = c.kind && (f.name.all fun n => n = c.name)

/-- the fault that takes a call, and the faults after it -/
def take (c : Call) : List Fault → Option Fault × List Fault
  | [] => (none, [])
  | f :: fs =>
    let pass (f : Fault) := let (taken, rest) := take c fs; (taken, f :: rest)
    if !f.concerns c || f.times = some 0 then pass f
    else if 0 < f.skip then pass { f with skip := f.skip - 1 }
    else (some f, { f with times := f.times.map (· - 1) } :: fs)

/-- the reply of a call that finds no object, if it has one -/
def hidden : (c : Call) → Option c.Answer
  | .get _ _ _ => some none
  | .list _ _ _ => some []
  | .delete _ _ _ => some false
  | .create _ _ _ => none
  | .patch _ _ _ _ => none
  | .patchStatus _ _ _ _ => none

end Fault

/-- a cluster with the faults in front of it -/
structure World where
  cluster : Cluster
  faults : List Fault
  /-- what calls have written, the latest first -/
  written : List Write

namespace World

def empty : World := ⟨.empty, [], []⟩

/-- what calls have written, in order -/
def writes (w : World) : List Write := w.written.reverse

/-- forgets what has been written -/
def withoutWrites (w : World) : World := { w with written := [] }

/-- lets the cluster reply -/
def passOn (c : Call) (w : World) : c.Reply × World :=
  let r := Cluster.answer c w.cluster
  let written := (Cluster.write? c w.cluster).toList ++ w.written
  (r.1, { w with cluster := r.2, written })

/-- the reply to a call unless a fault takes it -/
def answer : Program.Handler World := fun c w =>
  match Fault.take c w.faults with
  | (none, faults) => passOn c { w with faults }
  | (some f, faults) =>
    match f.failure, Fault.hidden c with
    | some e, _ => (.error e, { w with faults })
    | none, some a => (.ok a, { w with faults })
    | none, none => passOn c { w with faults }

end World
end ConnectorControl
