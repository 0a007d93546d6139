import Mathlib.Algebra.Order.Field.Power
import Mathlib.Data.Rat.Cast.Order
import Mathlib.Tactic.FieldSimp
import Mathlib.Tactic.Linarith
import Mathlib.Tactic.Positivity
import Mathlib.Tactic.Ring
import ConnectorControl.Time.Duration

/-!
# Durations of floats

A float is zero, a whole number of units of some power of two, infinite or not a number
(`unpacks`).  The duration of one that is a number of seconds is the nearest number of nanoseconds,
if 64 bits hold the seconds (`nearest_ofFloat?`).  Durations are in the order of their floats
(`Nearest.le`).
-/

namespace ConnectorControl
namespace Duration

open Float.Model (UnpackedFloat Format)
open Float.Model.UnpackedFloat (Sign unpackExponent unpackMantissa)

/-! ## rounding -/

/-- an integer that is nearest to a number, and the even one of two that are -/
structure Rounds (x : ℚ) (r : Nat) : Prop where
  near : |(r : ℚ) - x| ≤ 1 / 2
  even : |(r : ℚ) - x| = 1 / 2 → r % 2 = 0

theorem Rounds.mono {x y : ℚ} {r r' : Nat} (h : Rounds x r) (h' : Rounds y r') (hxy : x ≤ y) :
    r ≤ r' := by
  by_contra hlt
  have hle : (r' : ℚ) + 1 ≤ r := by exact_mod_cast not_le.1 hlt
  obtain ⟨-, hupper⟩ := abs_le.1 h.near
  obtain ⟨hlower, -⟩ := abs_le.1 h'.near
  -- both are halfway between two integers then, and one after the other
  have hr : (r : ℚ) - x = 1 / 2 := by linarith
  have hr' : (r' : ℚ) - y = -(1 / 2) := by linarith
  have heven := h.even (by rw [hr]; norm_num)
  have heven' := h'.even (by rw [hr']; norm_num)
  have hnext : r = r' + 1 := by
    have : (r : ℚ) = r' + 1 := by linarith
    exact_mod_cast this
  omega

theorem Rounds.down {n : Nat} {t : ℚ} (h : 0 ≤ t) (hle : t ≤ 1 / 2)
    (heven : t = 1 / 2 → n % 2 = 0) : Rounds (n + t) n := by
  have hdist : |(n : ℚ) - (n + t)| = t := by
    rw [sub_add_cancel_left, abs_neg, abs_of_nonneg h]
  exact ⟨hdist.trans_le hle, fun h => heven (hdist.symm.trans h)⟩

theorem Rounds.up {n : Nat} {t : ℚ} (h : t ≤ 1) (hle : 1 / 2 ≤ t)
    (heven : t = 1 / 2 → (n + 1) % 2 = 0) : Rounds (n + t) (n + 1) := by
  have hdist : |((n + 1 : Nat) : ℚ) - (n + t)| = 1 - t := by
    rw [Nat.cast_succ, add_sub_add_left_eq_sub, abs_of_nonneg (sub_nonneg.2 h)]
  exact ⟨hdist.trans_le (by linarith), fun h => heven (by linarith [hdist.symm.trans h])⟩

theorem cast_div_add (num : Nat) {den : Nat} (h : 0 < den) :
    (num : ℚ) / den = (num / den : Nat) + (num % den : Nat) / den := by
  have hsplit : (num : ℚ) = den * (num / den : Nat) + (num % den : Nat) := by
    exact_mod_cast (Nat.div_add_mod num den).symm
  have hden : (den : ℚ) ≠ 0 := by exact_mod_cast h.ne'
  field_simp
  linarith

theorem rounds_roundHalfEven (num : Nat) {den : Nat} (h : 0 < den) :
    Rounds (num / den) (roundHalfEven num den) := by
  have hden : (0 : ℚ) < den := by exact_mod_cast h
  have hrest : ((num % den : Nat) : ℚ) / den < 1 :=
    (div_lt_one hden).2 (by exact_mod_cast Nat.mod_lt num h)
  unfold roundHalfEven
  rw [cast_div_add num h]
  dsimp only
  generalize num / den = below
  generalize num % den = rest at hrest ⊢
  rcases lt_trichotomy (2 * rest) den with hlt | heq | hgt
  · have hhalf : (rest : ℚ) / den < 1 / 2 := by
      rw [div_lt_div_iff₀ hden two_pos]
      exact_mod_cast (by omega : rest * 2 < 1 * den)
    rw [if_pos hlt]
    exact .down (by positivity) hhalf.le fun h => absurd h hhalf.ne
  · have hhalf : (rest : ℚ) / den = 1 / 2 := by
      rw [div_eq_div_iff hden.ne' two_ne_zero]
      exact_mod_cast (by omega : rest * 2 = 1 * den)
    rw [if_neg heq.not_lt]
    by_cases heven : below % 2 = 0
    · rw [if_pos (by simp [heq, heven])]
      exact .down (by positivity) hhalf.le fun _ => heven
    · rw [if_neg (by simp [heven])]
      exact .up hrest.le hhalf.ge fun _ => by omega
  · have hhalf : 1 / 2 < (rest : ℚ) / den := by
      rw [div_lt_div_iff₀ two_pos hden]
      exact_mod_cast (by omega : 1 * den < rest * 2)
    rw [if_neg hgt.not_gt, if_neg (by simp [hgt.ne'])]
    exact .up hrest.le hhalf.le fun h => absurd h hhalf.ne'

/-! ## floats as numbers -/

/-- the absolute value of a float that is a number -/
def magnitude? (x : Float) : Option ℚ :=
  match x.toModel.unpack with
  | .zero _ => some 0
  | .finite _ m e _ => some (m * (2 : ℚ) ^ e)
  | _ => none

theorem magnitude?_nonneg {x : Float} {q : ℚ} (h : magnitude? x = some q) : 0 ≤ q := by
  unfold magnitude? at h
  split at h
  · cases h; exact le_rfl
  · cases h; positivity
  · cases h

/-- what a float is, by the fields for its exponent and its fraction -/
inductive Unpacks (e f : Nat) : UnpackedFloat → Prop
  | infinity (s : Sign) : e = 2047 → Unpacks e f (.infinity s)
  | notANumber : e = 2047 → Unpacks e f .notANumber
  | zero (s : Sign) : e = 0 → f = 0 → Unpacks e f (.zero s)
  | subnormal (s : Sign) {m : Nat} {q : Int} (hm : 0 < m) :
    e = 0 → m = f → q = -1074 → Unpacks e f (.finite s m q hm)
  | normal (s : Sign) {m : Nat} {q : Int} (hm : 0 < m) :
    0 < e → e < 2047 → m = f + 2 ^ 52 → q = e - 1075 → Unpacks e f (.finite s m q hm)

theorem toNat_unpackExponent (b : BitVec Format.binary64.numBits) :
    (unpackExponent b).toNat = b.toNat % 2 ^ 63 / 2 ^ 52 := by
  rw [unpackExponent, BitVec.toNat_cast, BitVec.extractLsb_toNat, Nat.shiftRight_eq_div_pow]
  show b.toNat / 2 ^ 52 % 2 ^ 11 = _
  omega

theorem toNat_unpackMantissa (b : BitVec Format.binary64.numBits) :
    (unpackMantissa b).toNat = b.toNat % 2 ^ 63 % 2 ^ 52 := by
  rw [unpackMantissa, BitVec.toNat_cast, BitVec.extractLsb_toNat, Nat.shiftRight_zero]
  show b.toNat % 2 ^ 52 = _
  omega

theorem toNat_one_append (f : BitVec 52) : (1#1 ++ f).toNat = f.toNat + 2 ^ 52 := by
  rw [BitVec.toNat_append, ← Nat.shiftLeft_add_eq_or_of_lt f.isLt, Nat.add_comm]
  rfl

theorem unpacks (b : BitVec Format.binary64.numBits) :
    Unpacks (b.toNat % 2 ^ 63 / 2 ^ 52) (b.toNat % 2 ^ 63 % 2 ^ 52)
      (UnpackedFloat.unpack Format.binary64 b) := by
  rw [← toNat_unpackExponent, ← toNat_unpackMantissa]
  have he : (unpackExponent b).toNat < 2 ^ 11 := (unpackExponent b).isLt
  unfold UnpackedFloat.unpack
  dsimp only
  by_cases hlast : unpackExponent b = -1#_
  · have hlast' : (unpackExponent b).toNat = 2047 := congrArg BitVec.toNat hlast
    rw [if_pos hlast]
    by_cases hf : unpackMantissa b = 0#_
    · rw [if_pos hf]
      exact .infinity _ hlast'
    · rw [if_neg hf]
      exact .notANumber hlast'
  rw [if_neg hlast]
  have hlast' : (unpackExponent b).toNat ≠ 2047 := fun h => hlast (BitVec.eq_of_toNat_eq h)
  by_cases hzero : unpackExponent b = 0#_
  · have hzero' : (unpackExponent b).toNat = 0 := congrArg BitVec.toNat hzero
    rw [if_pos hzero]
    by_cases hf : unpackMantissa b = 0#_
    · rw [dif_pos hf]
      exact .zero _ hzero' (congrArg BitVec.toNat hf)
    · rw [dif_neg hf]
      exact .subnormal _ _ hzero' rfl (by rw [hzero']; rfl)
  · have hzero' : (unpackExponent b).toNat ≠ 0 := fun h => hzero (BitVec.eq_of_toNat_eq h)
    rw [if_neg hzero]
    exact .normal _ _ (by omega) (by omega) (toNat_one_append _) rfl

theorem magnitude?_eq (x : Float) :
    let bits := x.toBits.toNat % 2 ^ 63
    let e := bits / 2 ^ 52
    let f := bits % 2 ^ 52
    magnitude? x = if e = 2047 then none
      else some ((if e = 0 then f else f + 2 ^ 52 : Nat) *
        (2 : ℚ) ^ (((if e = 0 then 1 else e : Nat) : Int) - 1075)) := by
  intro bits e f
  have h : Unpacks e f x.toModel.unpack := unpacks _
  clear_value e f
  unfold magnitude?
  generalize x.toModel.unpack = u at h ⊢
  cases h with
  | infinity s he => rw [if_pos he]
  | notANumber he => rw [if_pos he]
  | zero s he hf =>
    subst he hf
    rw [if_neg (by decide), if_pos rfl, Nat.cast_zero, zero_mul]
  | subnormal s hm he hm' hq =>
    subst he hm' hq
    rfl
  | normal s hm he hlt hm' hq =>
    subst hm' hq
    rw [if_neg hlt.ne, if_neg he.ne', if_neg he.ne']

/-- the significand and the exponent of a float that is not zero -/
structure Canonical (m : Nat) (e : Int) : Prop where
  lowest : -1074 ≤ e
  highest : m < 2 ^ 53
  leading : e = -1074 ∨ 2 ^ 52 ≤ m

theorem Canonical.le {m m' : Nat} {e e' : Int} (h : Canonical m e) (h' : Canonical m' e')
    (hle : e < e' ∨ e = e' ∧ m ≤ m') : (m : ℚ) * 2 ^ e ≤ m' * 2 ^ e' := by
  rcases hle with hlt | ⟨rfl, hle⟩
  · have hlead : 2 ^ 52 ≤ m' := h'.leading.resolve_left (by have := h.lowest; omega)
    calc (m : ℚ) * 2 ^ e ≤ 2 ^ 53 * 2 ^ e := by
          gcongr
          exact_mod_cast h.highest.le
      _ = 2 ^ 52 * 2 ^ (e + 1) := by rw [zpow_add_one₀ two_ne_zero]; ring
      _ ≤ 2 ^ 52 * 2 ^ e' := by
          gcongr
          · norm_num
          · omega
      _ ≤ m' * 2 ^ e' := by
          gcongr
          exact_mod_cast hlead
  · gcongr

theorem canonical_of_unpack {x : Float} {s : Sign} {m : Nat} {e : Int} {hm : 0 < m}
    (h : x.toModel.unpack = .finite s m e hm) : Canonical m e := by
  have hx : Unpacks _ _ x.toModel.unpack := unpacks _
  rw [h] at hx
  cases hx with
  | subnormal s hm he hm' hq => constructor <;> omega
  | normal s hm he hlt hm' hq => constructor <;> omega

theorem compare_of_lt {x y : Float} (h : x < y) :
    UnpackedFloat.compare x.toModel.unpack y.toModel.unpack = some .lt := by
  have h : UnpackedFloat.lt x.toModel.unpack y.toModel.unpack = true := of_decide_eq_true h
  exact beq_iff_eq.1 h

theorem positive_of_compare {u : UnpackedFloat}
    (h : UnpackedFloat.compare (.zero .positive) u = some .lt) :
    u = .infinity .positive ∨ ∃ m e hm, u = .finite .positive m e hm := by
  cases u with
  | notANumber => cases h
  | zero s => cases h
  | infinity s => cases s with
    | negative => cases h
    | positive => exact .inl rfl
  | finite s m e hm => cases s with
    | negative => cases h
    | positive => exact .inr ⟨m, e, hm, rfl⟩

theorem above_of_compare {m : Nat} {e : Int} {hm : 0 < m} {u : UnpackedFloat}
    (h : UnpackedFloat.compare (.finite .positive m e hm) u = some .lt) :
    u = .infinity .positive ∨
      ∃ m' e' hm', u = .finite .positive m' e' hm' ∧ (e < e' ∨ e = e' ∧ m ≤ m') := by
  cases u with
  | notANumber => cases h
  | zero s => cases h
  | infinity s => cases s with
    | negative => cases h
    | positive => exact .inl rfl
  | finite s m' e' hm' => cases s with
    | negative => cases h
    | positive =>
      have hthen : (compare e e').then (compare m m') = .lt := Option.some.inj h
      refine .inr ⟨m', e', hm', rfl, ?_⟩
      rcases Ordering.then_eq_lt.1 hthen with hlt | ⟨heq, hlt⟩
      · exact .inl (compare_lt_iff_lt.1 hlt)
      · exact .inr ⟨compare_eq_iff_eq.1 heq, (compare_lt_iff_lt.1 hlt).le⟩

theorem not_above_infinity (u : UnpackedFloat) :
    UnpackedFloat.compare (.infinity .positive) u ≠ some .lt := by
  intro h
  cases u with
  | infinity s => cases s <;> cases h
  | _ => cases h

/-- a positive float below a number is that number or less -/
theorem magnitude?_of_lt {x y : Float} (hpos : 0.0 < x) (hlt : x < y) {b : ℚ}
    (hy : magnitude? y = some b) : ∃ a, magnitude? x = some a ∧ a ≤ b := by
  have hzero : (0.0 : Float).toModel.unpack = .zero .positive := rfl
  have hpos := compare_of_lt hpos
  have hlt := compare_of_lt hlt
  rw [hzero] at hpos
  rcases positive_of_compare hpos with hx | ⟨m, e, hm, hx⟩
  · rw [hx] at hlt
    exact absurd hlt (not_above_infinity _)
  rw [hx] at hlt
  unfold magnitude? at hy ⊢
  rcases above_of_compare hlt with hy' | ⟨m', e', hm', hy', hle⟩
  · rw [hy'] at hy
    cases hy
  · rw [hy'] at hy
    cases hy
    rw [hx]
    exact ⟨_, rfl, (canonical_of_unpack hx).le (canonical_of_unpack hy') hle⟩

/-! ## the duration of a float -/

theorem two_zpow_eq (q : Int) : (2 : ℚ) ^ q = 2 ^ q.toNat / 2 ^ (-q).toNat := by
  rcases Int.le_total 0 q with hq | hq
  · rw [Int.toNat_of_nonpos (neg_nonpos.2 hq), pow_zero, div_one, ← zpow_natCast,
      Int.toNat_of_nonneg hq]
  · rw [Int.toNat_of_nonpos hq, pow_zero, one_div, ← zpow_natCast,
      Int.toNat_of_nonneg (neg_nonneg.2 hq), zpow_neg, inv_inv]

theorem rounds_scaled (m k : Nat) (q : Int) :
    Rounds (m * 2 ^ q * k) (roundHalfEven (m * 2 ^ q.toNat * k) (2 ^ (-q).toNat)) := by
  have h := rounds_roundHalfEven (m * 2 ^ q.toNat * k) (Nat.two_pow_pos (-q).toNat)
  have hx : (m : ℚ) * 2 ^ q * k = (m * 2 ^ q.toNat * k : Nat) / (2 ^ (-q).toNat : Nat) := by
    rw [two_zpow_eq]
    push_cast
    ring
  rwa [hx]

/-- The duration of a float of seconds has the nearest number of nanoseconds.  There is none for
more seconds than 64 bits hold, and none for what is no number. -/
inductive Nearest (x : Float) : Option Duration → Prop
  | rounded {q : ℚ} {r : Nat} : magnitude? x = some q → Rounds (q * 10 ^ 9) r →
    r < 2 ^ 64 * 10 ^ 9 → Nearest x (some ⟨r⟩)
  | tooLong {q : ℚ} {r : Nat} : magnitude? x = some q → Rounds (q * 10 ^ 9) r →
    2 ^ 64 * 10 ^ 9 ≤ r → Nearest x none
  | notANumber : magnitude? x = none → Nearest x none

theorem nearest_ofFloat? (x : Float) : Nearest x (ofFloat? x) := by
  have hmag := magnitude?_eq x
  dsimp only at hmag
  unfold ofFloat?
  dsimp only [Nat.pow_eq]
  generalize x.toBits.toNat % 2 ^ 63 / 2 ^ 52 = e at hmag ⊢
  generalize x.toBits.toNat % 2 ^ 63 % 2 ^ 52 = f at hmag ⊢
  by_cases he : e = 2047
  · rw [if_pos he] at hmag
    rw [if_pos (.inl he)]
    exact .notANumber hmag
  · rw [if_neg he] at hmag
    have hround := rounds_scaled (if e = 0 then f else f + 2 ^ 52) 1000000000
      ((if e = 0 then 1 else e : Nat) - 1075)
    generalize roundHalfEven _ _ = r at hround ⊢
    by_cases hlong : 2 ^ 64 * 1000000000 ≤ r
    · rw [if_pos (.inr hlong)]
      exact .tooLong hmag (by exact_mod_cast hround) hlong
    · rw [if_neg (not_or_intro he hlong)]
      exact .rounded hmag (by exact_mod_cast hround) (not_le.1 hlong)

/-- a float that is at most another has a duration if the other has one, and at most that -/
theorem Nearest.le {x y : Float} {dx : Option Duration} {dy : Duration}
    (hle : ∀ b, magnitude? y = some b → ∃ a, magnitude? x = some a ∧ a ≤ b)
    (hx : Nearest x dx) (hy : Nearest y (some dy)) :
    ∃ d, dx = some d ∧ d.nanoseconds ≤ dy.nanoseconds := by
  cases hy with | @rounded b s hb hs hlt =>
  obtain ⟨a, ha, hab⟩ := hle b hb
  have hmono : ∀ {q r}, magnitude? x = some q → Rounds (q * 10 ^ 9) r → r ≤ s := by
    intro q r hq hr
    rw [ha] at hq
    cases hq
    exact hr.mono hs (by gcongr)
  cases hx with
  | rounded hq hr _ => exact ⟨_, rfl, hmono hq hr⟩
  | tooLong hq hr hlong => exact absurd (hlong.trans (hmono hq hr)) hlt.not_ge
  | notANumber hnone => rw [hnone] at ha; cases ha

theorem Nearest.unique {x : Float} {d : Option Duration} {d' : Duration} (h : Nearest x d)
    (h' : Nearest x (some d')) : d = some d' := by
  obtain ⟨⟨n⟩, rfl, hle⟩ := Nearest.le (fun b hb => ⟨b, hb, le_rfl⟩) h h'
  obtain ⟨_, hn, hge⟩ := Nearest.le (fun b hb => ⟨b, hb, le_rfl⟩) h' h
  cases hn
  exact congrArg (fun n => some (Duration.mk n)) (le_antisymm hle hge)

end Duration
end ConnectorControl
