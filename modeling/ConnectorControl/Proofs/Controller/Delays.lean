import Mathlib.Algebra.Group.Basic
import ConnectorControl.Controller.Backoff
import ConnectorControl.Proofs.Time.Duration

/-!
# The delay after some failures

The delay after a failure that is retried is what the failures before it make of the first delay
(`waits_delay?`).  There is one, and it is at most the longest one, if that is a duration itself
(`Waits.le_longest`).
-/

namespace ConnectorControl
namespace Backoff

/-- repeated squaring makes powers -/
theorem powerTimes_eq {M : Type} [Monoid M] (r a : M) (n : Nat) :
    powerTimes r a n = r * a ^ n := by
  induction n using Nat.strongRecOn generalizing r a with | _ n ih =>
  have hr : (if n % 2 = 1 then r * a else r) = r * a ^ (n % 2) := by
    rcases Nat.mod_two_eq_zero_or_one n with h | h
    · rw [h, if_neg zero_ne_one, pow_zero, mul_one]
    · rw [h, if_pos rfl, pow_one]
  have hn : n % 2 + 2 * (n / 2) = n := Nat.mod_add_div n 2
  unfold powerTimes
  rw [hr]
  dsimp only
  split
  case isTrue h => rw [Nat.mod_eq_of_lt (by omega)]
  case isFalse h => rw [ih _ (by omega), ← pow_two, ← pow_mul, mul_assoc, ← pow_add, hn]

/-- The delay with a number of failures before it: the first one times the multiplier to the power
of that number, or of 30, with the jitter of a draw, neither negative nor above the longest one. -/
def Waits (b : Backoff) (draw : Float) (failed : Nat) (delay : Option Duration) : Prop :=
  let base := b.initial.toFloat * powerTimes 1.0 b.multiplier (min failed 30)
  let wanted := base + (draw * 2.0 - 1.0) * (base * b.jitter)
  let positive := if 0.0 < wanted then wanted else 0.0
  let seconds := if positive < b.longest.toFloat then positive else b.longest.toFloat
  Duration.Nearest seconds delay

variable {b : Backoff} {draw : Float} {failed : Nat} {delay : Option Duration}

theorem waits_delay? (b : Backoff) (draw : Float) (failed : Nat) :
    b.Waits draw failed (b.delay? draw failed) :=
  Duration.nearest_ofFloat? (b.secondsFor draw failed)

example : [0, 1, 3, 30].map (standard.delay? 0.5) =
    [5, 10, 40, 300].map fun n => some (.ofSeconds n) := by decide +kernel

theorem Waits.unique (h : b.Waits draw failed delay) {d : Duration}
    (h' : b.Waits draw failed (some d)) : delay = some d :=
  Duration.Nearest.unique h h'

theorem magnitude?_capped {wanted longest : Float} {m : ℚ}
    (hm : Duration.magnitude? longest = some m) :
    let positive := if 0.0 < wanted then wanted else 0.0
    ∃ a, Duration.magnitude? (if positive < longest then positive else longest) = some a ∧
      a ≤ m := by
  intro positive
  by_cases hlt : positive < longest
  · rw [if_pos hlt]
    by_cases hpos : 0.0 < wanted
    · have hwanted : positive = wanted := if_pos hpos
      rw [hwanted] at hlt ⊢
      exact Duration.magnitude?_of_lt hpos hlt hm
    · have hzero : positive = 0.0 := if_neg hpos
      rw [hzero]
      exact ⟨0, rfl, Duration.magnitude?_nonneg hm⟩
  · rw [if_neg hlt]
    exact ⟨m, hm, le_rfl⟩

/-- if the longest delay is a duration, every delay is one, and none is longer -/
theorem Waits.le_longest (h : b.Waits draw failed delay) {most : Duration}
    (hmost : Duration.Nearest b.longest.toFloat (some most)) :
    ∃ d, delay = some d ∧ d.nanoseconds ≤ most.nanoseconds :=
  Duration.Nearest.le (fun _ hm => magnitude?_capped hm) h hmost

end Backoff
end ConnectorControl
