/-!
# Durations

A duration is a whole number of nanoseconds.  One that is computed as a float of seconds is rounded
to the nearest nanosecond, a half going to the even one, and needs fewer seconds than 64 bits hold.
-/

namespace ConnectorControl

structure Duration where
  nanoseconds : Nat
deriving DecidableEq, Inhabited

namespace Duration

def ofSeconds (n : Nat) : Duration := ⟨n * 1000000000⟩

def ofMilliseconds (n : Nat) : Duration := ⟨n * 1000000⟩

/-- the whole seconds -/
def seconds (d : Duration) : Nat := d.nanoseconds / 1000000000

/-- the nanoseconds beyond the whole seconds -/
def subseconds (d : Duration) : Nat := d.nanoseconds % 1000000000

/-- the milliseconds that have passed once the duration is over -/
def millisecondsUp (d : Duration) : Nat := (d.nanoseconds + 999999) / 1000000

/-- the longest duration: as many seconds as 64 bits hold, and almost one more -/
def longest : Duration := ⟨(Nat.pow 2 64 - 1) * 1000000000 + 999999999⟩

/-! ## floats of seconds -/

/-- the float nearest to the whole seconds, plus the rest -/
def toFloat (d : Duration) : Float :=
  Float.ofScientific d.seconds false 0 + Float.ofScientific d.subseconds false 0 / 1e9

/-- a quotient to the nearest integer, a half going to the even one -/
def roundHalfEven (num den : Nat) : Nat :=
  let below := num / den
  let rest := num % den
  if 2 * rest < den then below
  else if 2 * rest = den && below % 2 = 0 then below
  else below + 1

/-- the duration of a float that is not negative -/
def ofFloat? (x : Float) : Option Duration :=
  let bits := x.toBits.toNat % Nat.pow 2 63
  let e := bits / Nat.pow 2 52
  let f := bits % Nat.pow 2 52
  let m := if e = 0 then f else f + Nat.pow 2 52
  let q : Int := (if e = 0 then 1 else e : Nat) - 1075
  let d := roundHalfEven (m * Nat.pow 2 q.toNat * 1000000000) (Nat.pow 2 (-q).toNat)
  if e = 2047 ∨ Nat.pow 2 64 * 1000000000 ≤ d then none else some ⟨d⟩

end Duration
end ConnectorControl
