import Mathlib.Data.Int.Order.Basic
import Mathlib.Tactic.Linarith

/-!
# Sixty-four bits, with and without a sign

How an unsigned 64-bit number reads as a signed one, and when a signed product did not wrap around.
Nothing here names the program verified with it.

`mul_div_cancel_iff` is the fact behind the usual overflow test: divide the wrapped product
back, and compare.  For a positive divisor the comparison succeeds **exactly** when the product
was in range, because a wrapped product is off by at least `2 ^ 64`, and a truncated quotient times
the divisor is off by less than the divisor.
-/

namespace Word

/-- The signed reading of an unsigned word. -/
lemma toInt_toInt64 (x : UInt64) :
    x.toInt64.toInt = if x.toNat < 2 ^ 63 then (x.toNat : ℤ) else (x.toNat : ℤ) - 2 ^ 64 := by
  have hx : x.toNat < 2 ^ 64 := x.toNat_lt
  have h : x.toInt64.toInt = (x.toNat : ℤ).bmod (2 ^ 64) := by
    show x.toInt64.toBitVec.toInt = _
    rw [UInt64.toBitVec_toInt64, BitVec.toInt_eq_toNat_bmod]
    rfl
  rw [h, Int.bmod_def]
  split_ifs <;> omega

/-- Below `2 ^ 63` the two readings agree. -/
lemma toInt_toInt64_of_lt {x : UInt64} (h : x.toNat < 2 ^ 63) : x.toInt64.toInt = x.toNat := by
  rw [toInt_toInt64, if_pos h]

/-- A word that reads as non-negative is below `2 ^ 63`. -/
lemma toNat_lt_of_nonneg {x : UInt64} (h : 0 ≤ x.toInt64.toInt) : x.toNat < 2 ^ 63 := by
  have hx : x.toNat < 2 ^ 64 := x.toNat_lt
  rw [toInt_toInt64] at h
  split_ifs at h <;> omega

/-- A product in range is the exact one. -/
lemma toInt_mul_of_range {p u : Int64} (hlo : -2 ^ 63 ≤ p.toInt * u.toInt)
    (hhi : p.toInt * u.toInt < 2 ^ 63) : (p * u).toInt = p.toInt * u.toInt := by
  rw [Int64.toInt_mul]
  exact Int.bmod_eq_of_le (by simpa using hlo) (by simpa using hhi)

/-- The division is defined: it is not by zero, and the exact quotient is in range. -/
structure DivDefined (t u : Int64) : Prop where
  nonzero : u.toInt ≠ 0
  lower : -2 ^ 63 ≤ t.toInt.tdiv u.toInt
  upper : t.toInt.tdiv u.toInt < 2 ^ 63

/-- A division that is defined yields the exact quotient. -/
lemma DivDefined.toInt_div {t u : Int64} (h : DivDefined t u) :
    (t / u).toInt = t.toInt.tdiv u.toInt := by
  rw [Int64.toInt_div]
  exact Int.bmod_eq_of_le (by simpa using h.lower) (by simpa using h.upper)

/-- For a positive divisor the quotient is never the one that overflows. -/
lemma divDefined_of_pos {t u : Int64} (hu : 0 < u.toInt) : DivDefined t u := by
  have hlo : -2 ^ 63 ≤ t.toInt := t.le_toInt
  have hhi : t.toInt < 2 ^ 63 := t.toInt_lt
  have habs := Int.natAbs_tdiv_le_natAbs t.toInt u.toInt
  rcases Int.le_total 0 t.toInt with h | h
  · have hq := Int.tdiv_nonneg h (le_of_lt hu)
    refine ⟨ne_of_gt hu, ?_, ?_⟩ <;> omega
  · -- a quotient of a negative dividend is not positive, so `2 ^ 63` is out of reach
    have hq := Int.tdiv_nonneg (Int.neg_nonneg_of_nonpos h) (le_of_lt hu)
    rw [Int.neg_tdiv] at hq
    refine ⟨ne_of_gt hu, ?_, ?_⟩ <;> omega

/-- **The overflow test is exact** for a positive divisor. -/
theorem mul_div_cancel_iff {p u : Int64} (hu : 0 < u.toInt) :
    p * u / u = p ↔ -2 ^ 63 ≤ p.toInt * u.toInt ∧ p.toInt * u.toInt < 2 ^ 63 := by
  constructor
  · intro h
    have hq : (p * u).toInt.tdiv u.toInt = p.toInt := by
      rw [← (divDefined_of_pos hu).toInt_div, h]
    have hlo : -2 ^ 63 ≤ (p * u).toInt := (p * u).le_toInt
    have hhi : (p * u).toInt < 2 ^ 63 := (p * u).toInt_lt
    have hdecomp : u.toInt * p.toInt + (p * u).toInt.tmod u.toInt = (p * u).toInt := by
      rw [← hq]
      exact Int.mul_tdiv_add_tmod _ _
    have hrem : |(p * u).toInt.tmod u.toInt| < u.toInt := by
      have := Int.natAbs_tmod (p * u).toInt u.toInt
      have hlt := Nat.mod_lt (p * u).toInt.natAbs (show 0 < u.toInt.natAbs by omega)
      rw [Int.abs_eq_natAbs]
      omega
    -- the wrapped product differs from the exact one by a multiple of `2 ^ 64`
    have hcong : (p * u).toInt % 2 ^ 64 = (p.toInt * u.toInt) % 2 ^ 64 := by
      rw [Int64.toInt_mul]
      exact_mod_cast Int.bmod_emod
    have hu' : u.toInt < 2 ^ 63 := u.toInt_lt
    have hcomm : u.toInt * p.toInt = p.toInt * u.toInt := Int.mul_comm _ _
    rw [hcomm] at hdecomp
    generalize p.toInt * u.toInt = exact at *
    generalize (p * u).toInt = wrapped at *
    rcases abs_cases (wrapped.tmod u.toInt) with ⟨h', _⟩ | ⟨h', _⟩ <;> rw [h'] at hrem <;> omega
  · rintro ⟨hlo, hhi⟩
    have hmul := toInt_mul_of_range hlo hhi
    have : (p * u / u).toInt = p.toInt := by
      rw [(divDefined_of_pos hu).toInt_div, hmul]
      exact Int.mul_tdiv_cancel _ (by omega)
    exact Int64.toInt_inj.mp this

end Word
