import ConnectorControl.Failure
import ConnectorControl.Time.Duration

/-!
# Delays after failures

The delay before the next attempt grows by a constant factor with every failure, up to a ceiling.
Random jitter spreads it to both sides.  A failure that needs a change by the user waits for the
longest time at once.
-/

namespace ConnectorControl

structure Backoff where
  /-- the delay after the first failure -/
  initial : Duration
  /-- the ceiling of every delay -/
  longest : Duration
  multiplier : Float
  /-- the part of a delay that jitter adds or takes away at most -/
  jitter : Float

namespace Backoff

def standard : Backoff where
  initial := .ofSeconds 5
  longest := .ofSeconds 300
  multiplier := 2.0
  jitter := 0.1

/-- from this exponent on the delay grows no more -/
def lastExponent : Nat := 30

/-- `r * a ^ n`, by squaring -/
def powerTimes {α : Type} [Mul α] (r a : α) (n : Nat) : α :=
  let r := if n % 2 = 1 then r * a else r
  if h : n / 2 = 0 then r else powerTimes r (a * a) (n / 2)
termination_by n
decreasing_by omega

/-- the seconds to wait, before they are made a duration; what is not a number counts as zero -/
def secondsFor (b : Backoff) (draw : Float) (attempt : Nat) : Float :=
  let base := b.initial.toFloat * powerTimes 1.0 b.multiplier (min attempt lastExponent)
  let wanted := base + (draw * 2.0 - 1.0) * (base * b.jitter)
  let positive := if 0.0 < wanted then wanted else 0.0
  if positive < b.longest.toFloat then positive else b.longest.toFloat

/-- The delay after a number of failures, for a random draw between zero and one.  There is none
when the ceiling allows more seconds than a duration has. -/
def delay? (b : Backoff) (draw : Float) (attempt : Nat) : Option Duration :=
  Duration.ofFloat? (b.secondsFor draw attempt)

/-- the delay after a failure that so many others came before -/
def delayAfter? (b : Backoff) (draw : Float) (e : Failure) (attempt : Nat) : Option Duration :=
  if e.isRetryable then b.delay? draw attempt else some b.longest

end Backoff
end ConnectorControl
