import ConnectorControl.Controller.Operator
import ConnectorControl.Controller.Watch
import ConnectorControl.Store.Turns

/-!
# The controller

The controller makes a pass over each Connector that its watches ask for.  How a pass ends says when
the next one comes; what the watches tell makes it come at once.  A pass takes no time, and passes
that are due at the same time take turns.  Times are in milliseconds from the start.

No pass is made before the Connectors have been listed, and none over a Connector that is not
cached.  The controller breaks off at a delay too long for any clock, and when its watches break.
-/

namespace ConnectorControl

structure Controller where
  operator : Operator
  /-- the namespace that is watched, or all of them -/
  scope : Option String
  clock : Nat → Moment
  /-- what is drawn for the jitter of delays -/
  draw : Float

namespace Controller

structure State where
  operator : OperatorState World
  watching : Watching
  queue : Queue
  /-- whether a pass has come to a delay too long for any clock -/
  stopped : Bool

/-- whether the controller has broken off: it makes no more passes, and its watches end -/
def State.isBroken (s : State) : Bool := s.stopped || s.watching.broken

variable (c : Controller)

/-- the state at time zero -/
def start (w : World) : State := ⟨.initial w, .initial, [], false⟩

/-! ## passes -/

/-- the longest delay, in milliseconds -/
def longestDelay : Nat := 180 * 24 * 60 * 60 * 1000

/-- the milliseconds until the next pass, at least one -/
def delayOf (d : Duration) : Nat := min longestDelay (max 1 d.millisecondsUp)

/-- asks for the next pass over a Connector -/
def requeue (now : Nat) (con : Connector) (d : Duration) (s : State) : State :=
  { s with queue := s.queue.add con.ref (now + delayOf d) }

/-- takes note of a pass over a Connector and asks for the next one -/
def finish (now : Nat) (s : State) (con : Connector)
    (pass : Except Failure Action × List Event) : State :=
  let op := c.operator.conclude (c.clock now) 0.0 con pass.2 pass.1 s.operator
  match pass.1 with
  | .ok .awaitChange => { s with operator := op }
  | .ok (.requeue d) => requeue now con d { s with operator := op }
  | .error e =>
    let (delay, op) := c.operator.onFailure c.draw con e op
    match delay with
    | some d => requeue now con d { s with operator := op }
    | none => { s with operator := op, stopped := true }

/-- makes the passes over some Connectors -/
def visit (now : Nat) (cons : List Connector) (s : State) : State :=
  let turns := cons.map fun con =>
    Turns.ofProgram Call.serve Call.unsent? (c.operator.passOver (c.clock now) con).run
  let (passes, server) := (Turns.all turns).run s.operator.store
  (cons.zip passes).foldl (fun s p => c.finish now s p.1 p.2)
    { s with operator := { s.operator with store := server } }

/-- makes the passes that are due -/
def visitDue (now : Nat) (s : State) : State :=
  if s.watching.cache.isNone then s
  else
    c.visit now ((s.queue.due now).filterMap s.watching.cached?)
      { s with queue := s.queue.later now }

/-! ## time -/

/-- does what there is to do at some time -/
def settle (now : Nat) (s : State) : State :=
  let w := s.watching.poll c.scope s.operator.store.cluster now
  c.visitDue now
    { s with
      watching := { w with asked := [] }
      queue := w.asked.foldl (fun q r => q.add r now) s.queue }

/-- the next time after some time that there is something to do at -/
def next? (now : Nat) (s : State) : Option Nat :=
  let passes := if s.watching.cache.isNone then [] else s.queue.map (·.2)
  ((passes ++ s.watching.pauses.finish.toList).filter fun t => now < t).min?

/-- does what there is to do from some time on, before another time -/
def runUntil (finish now : Nat) (s : State) : State :=
  if s.isBroken then s
  else
    let s := c.settle now s
    match next? now s with
    | none => s
    | some t => if now < t ∧ t < finish then runUntil finish t s else s
termination_by finish - now

/-- goes on from one time to another, and leaves what is due then for later -/
def advance (now time : Nat) (s : State) : State :=
  if now < time then c.runUntil time now s else s

/-- tells the watches of a change -/
def notice (event : WatchEvent) (kind : Kind) (ns : String) (v : Json) (s : State) : State :=
  { s with watching := s.watching.notice c.scope event kind ns v }

end Controller
end ConnectorControl
