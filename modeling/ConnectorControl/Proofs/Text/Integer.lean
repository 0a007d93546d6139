import Mathlib.Data.List.Basic
import ConnectorControl.Text.Blank
import ConnectorControl.Text.Integer

/-!
# Decimal text of integers

An integer is read back from the text that it is written as (`int?_toString`), one of 32 bits too,
up to both ends of its range (`int32?_toString`).  There are no blanks in such a text, so nothing is
trimmed from it (`trim_toString`).
-/

namespace ConnectorControl
namespace Text

/-! ## digits -/

theorem digit?_of_isDigit {c : Char} (h : c.isDigit = true) :
    digit? c = some (c.toNat - '0'.toNat) := by
  have hrange : 48 ≤ c.val ∧ c.val ≤ 57 := by
    simpa [Char.isDigit] using h
  unfold digit?
  exact if_pos hrange

theorem natOfDigits_of_digits {cs : List Char} (h : ∀ c ∈ cs, c.isDigit = true) (n : Nat) :
    natOfDigits n cs = some (Nat.ofDigitChars 10 cs n) := by
  induction cs generalizing n with
  | nil => rfl
  | cons c cs ih =>
    have hc := digit?_of_isDigit (h c List.mem_cons_self)
    have hcs : ∀ c ∈ cs, c.isDigit = true := fun c hc => h c (List.mem_cons_of_mem _ hc)
    rw [natOfDigits, hc]
    show natOfDigits (10 * n + (c.toNat - '0'.toNat)) cs = _
    rw [ih hcs, Nat.ofDigitChars_cons]

theorem isDigit_of_mem_toDigits {n : Nat} {c : Char} (h : c ∈ Nat.toDigits 10 n) :
    c.isDigit = true :=
  Nat.isDigit_of_mem_toDigits (by decide) (by decide) h

theorem nat?_toDigits (n : Nat) : nat? (Nat.toDigits 10 n) = some n := by
  have hread : natOfDigits 0 (Nat.toDigits 10 n) = some n := by
    rw [natOfDigits_of_digits fun c => isDigit_of_mem_toDigits, Nat.ofDigitChars_ten_toDigits]
  cases hdigits : Nat.toDigits 10 n with
  | nil => exact absurd hdigits Nat.toDigits_ne_nil
  | cons c cs =>
    rw [hdigits] at hread
    exact hread

/-! ## integers -/

theorem int?_of_digits {s : String} (h : ∀ c ∈ s.toList, c.isDigit = true) :
    int? s = (nat? s.toList).map Int.ofNat := by
  unfold int?
  split
  next cs hs =>
    have := h '-' (hs ▸ List.mem_cons_self)
    exact absurd this (by decide)
  next cs hs =>
    have := h '+' (hs ▸ List.mem_cons_self)
    exact absurd this (by decide)
  · rfl

theorem toList_toString_natCast (n : Nat) : (toString (n : Int)).toList = Nat.toDigits 10 n :=
  Nat.toList_repr

theorem toList_toString_negSucc (n : Nat) :
    (toString (Int.negSucc n)).toList = '-' :: Nat.toDigits 10 (n + 1) := by
  show ("-" ++ Nat.repr (n + 1)).toList = _
  rw [String.toList_append, Nat.toList_repr]
  rfl

theorem int?_toString (n : Int) : int? (toString n) = some n := by
  cases n with
  | ofNat n =>
    have hlist := toList_toString_natCast n
    have hdigits : ∀ c ∈ (toString (n : Int)).toList, c.isDigit = true := by
      rw [hlist]
      exact fun c => isDigit_of_mem_toDigits
    show int? (toString (n : Int)) = _
    rw [int?_of_digits hdigits, hlist, nat?_toDigits]
    rfl
  | negSucc n =>
    unfold int?
    rw [toList_toString_negSucc]
    simp only [nat?_toDigits]
    rfl

/-- every integer of 32 bits is read back -/
theorem int32?_toString (n : Int32) : int32? (toString n.toInt) = some n := by
  have hlow : Int32.minValue.toInt ≤ n.toInt := n.minValue_le_toInt
  have hhigh : n.toInt ≤ Int32.maxValue.toInt := n.toInt_le
  unfold int32?
  rw [int?_toString]
  show (if _ then some (Int32.ofInt n.toInt) else none) = some n
  rw [if_pos ⟨hlow, hhigh⟩, Int32.ofInt_toInt]

example : int32? (toString Int32.minValue.toInt) = some (-2147483648) := by decide +kernel

/-! ## blanks -/

theorem trim_of_forall {s : String} (h : ∀ c ∈ s.toList, isBlankChar c = false) : trim s = s := by
  have hdrop : ∀ cs : List Char, (∀ c ∈ cs, isBlankChar c = false) →
      cs.dropWhile isBlankChar = cs := by
    intro cs hcs
    cases cs with
    | nil => rfl
    | cons c cs => exact List.dropWhile_cons_of_neg (by simp [hcs c List.mem_cons_self])
  have hreverse : ∀ c ∈ s.toList.reverse, isBlankChar c = false := fun c hc =>
    h c (List.mem_reverse.1 hc)
  unfold trim trimChars
  rw [hdrop _ h, hdrop _ hreverse, List.reverse_reverse, String.ofList_toList]

theorem not_blank_of_isDigit {c : Char} (h : c.isDigit = true) : isBlankChar c = false := by
  have hrange : 48 ≤ c.toNat ∧ c.toNat ≤ 57 := by
    simpa [Char.isDigit, Char.le_def, UInt32.le_iff_toNat_le] using h
  have houtside : ∀ r ∈ blankRanges, c.toNat < r.1 ∨ r.2 < c.toNat := by
    simp only [blankRanges, List.forall_mem_cons]
    refine ⟨?_, ?_, ?_, ?_, ?_, ?_, ?_, ?_, ?_, ?_, List.forall_mem_nil _⟩ <;> omega
  unfold isBlankChar
  rw [List.any_eq_false]
  intro r hr
  have := houtside r hr
  simp only [Bool.and_eq_true, decide_eq_true_eq]
  omega

theorem trim_toString (n : Int) : trim (toString n) = toString n := by
  refine trim_of_forall fun c hc => ?_
  cases n with
  | ofNat n =>
    have hc : c ∈ (toString (n : Int)).toList := hc
    rw [toList_toString_natCast] at hc
    exact not_blank_of_isDigit (isDigit_of_mem_toDigits hc)
  | negSucc n =>
    rw [toList_toString_negSucc] at hc
    rcases List.mem_cons.1 hc with rfl | hc
    · decide
    · exact not_blank_of_isDigit (isDigit_of_mem_toDigits hc)

end Text
end ConnectorControl
