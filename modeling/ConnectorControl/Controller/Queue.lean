import ConnectorControl.Table

/-!
# The queue of passes

A Connector waits for at most one pass, at a time in milliseconds.  Asked for twice, the pass comes
at the earlier of both times.
-/

namespace ConnectorControl

/-- what a Connector is known by -/
structure ConnectorRef where
  ns : Option String
  name : String
deriving DecidableEq

/-- when the next pass over each Connector is due -/
abbrev Queue := List (ConnectorRef × Nat)

namespace Queue

/-- asks for a pass -/
def add (q : Queue) (r : ConnectorRef) (time : Nat) : Queue :=
  match Entries.find? r q with
  | none => q ++ [(r, time)]
  | some t => if t ≤ time then q else Entries.erase r q ++ [(r, time)]

/-- the Connectors whose passes are due by some time -/
def due (q : Queue) (time : Nat) : List ConnectorRef := (q.filter fun e => e.2 ≤ time).map (·.1)

/-- the passes that are not due by some time -/
def later (q : Queue) (time : Nat) : Queue := q.filter fun e => time < e.2

end Queue
end ConnectorControl
