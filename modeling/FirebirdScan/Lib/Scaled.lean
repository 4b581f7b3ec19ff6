import Mathlib.Algebra.Order.Field.Rat
import Mathlib.Algebra.Order.Round
import Mathlib.Data.Int.ModEq
import Mathlib.RingTheory.Coprime.Lemmas
import Mathlib.Tactic.Linarith
import Mathlib.Tactic.Positivity
import Mathlib.Tactic.Ring

/-!
# `Lib.Scaled` — a number sent as a fixed-width integer with a decimal scale

A sender rounds a number to an integer and stores its low `w` bits; the receiver reads them as a signed
integer times a power of ten. `arrives_iff` says when the receiver gets the number that was sent: when it is
zero, or an integer of the width under scale zero. In every other case rounding, wrapping or scaling has
changed it, and no two of them ever cancel out.
-/

namespace Scaled

/-- `q` is an integer of `w` bits. -/
def FitsWidth (w : Nat) (q : ℚ) : Prop := ∃ n : Int, q = n ∧ -2 ^ (w - 1) ≤ n ∧ n < 2 ^ (w - 1)

/-- What the receiver gets for the integer `n`. -/
def received (w : Nat) (s n : Int) : ℚ := (n.bmod (2 ^ w) : Int) * (10 : ℚ) ^ s

variable {w : Nat} {n s : Int} {q : ℚ}

theorem two_pow_eq (hw : 0 < w) : ((2 ^ w : Nat) : Int) = 2 * 2 ^ (w - 1) := by
  obtain ⟨v, rfl⟩ : ∃ v, w = v + 1 := ⟨w - 1, by omega⟩
  push_cast
  exact pow_succ' 2 v

/-- Wrapping leaves the integers of the width alone. -/
theorem bmod_of_fits (hw : 0 < w) (hlo : -2 ^ (w - 1) ≤ n) (hhi : n < 2 ^ (w - 1)) :
    n.bmod (2 ^ w) = n := by
  have h := two_pow_eq hw
  exact Int.bmod_eq_of_le (by omega) (by omega)

theorem bmod_bounds (hw : 0 < w) : -2 ^ (w - 1) ≤ n.bmod (2 ^ w) ∧ n.bmod (2 ^ w) < 2 ^ (w - 1) := by
  have h := two_pow_eq hw
  have hpos : 0 < 2 ^ w := Nat.two_pow_pos w
  have hlo := Int.le_bmod (x := n) hpos
  have hhi := Int.bmod_lt (x := n) hpos
  constructor <;> omega

/-- Wrapping never makes an integer larger. -/
theorem abs_bmod_le (hw : 0 < w) : |n.bmod (2 ^ w)| ≤ |n| := by
  obtain ⟨hlo, hhi⟩ := bmod_bounds (n := n) hw
  by_cases hfits : -2 ^ (w - 1) ≤ n ∧ n < 2 ^ (w - 1)
  · rw [bmod_of_fits hw hfits.1 hfits.2]
  · rw [abs_le]
    have habs := le_abs_self n
    have habs' := neg_abs_le n
    constructor <;> omega

/-- A number an integer away from `n` by less than one is `n`. -/
theorem eq_of_near {m : Int} (hn : |(n : ℚ) - q| ≤ 1 / 2) (hq : q = m) : m = n := by
  have hlt : |((n - m : Int) : ℚ)| < 1 := by
    rw [hq] at hn
    push_cast
    linarith
  have hint : |n - m| < 1 := by exact_mod_cast hlt
  have hzero := Int.abs_lt_one_iff.mp hint
  omega

/-- A negative scale makes every other number smaller than what was sent. -/
theorem eq_zero_of_neg_scale (hw : 0 < w) (hs : s < 0) (hn : |(n : ℚ) - q| ≤ 1 / 2)
    (h : received w s n = q) : q = 0 := by
  by_contra hq
  obtain ⟨t, rfl⟩ : ∃ t : Nat, s = -(t + 1 : Nat) := ⟨(-s - 1).toNat, by omega⟩
  have hpow : (10 : ℚ) ≤ 10 ^ (t + 1) := by
    have hone : (1 : ℚ) ≤ 10 ^ t := one_le_pow₀ (by norm_num)
    rw [pow_succ]
    linarith
  have hne : (10 : ℚ) ^ (t + 1) ≠ 0 := by positivity
  have hm : ((n.bmod (2 ^ w) : Int) : ℚ) = q * 10 ^ (t + 1) := by
    rw [← h, received, zpow_neg, zpow_natCast, mul_assoc, inv_mul_cancel₀ hne, mul_one]
  have hbig : 10 * |q| ≤ |((n.bmod (2 ^ w) : Int) : ℚ)| := by
    rw [hm, abs_mul, abs_of_pos (show (0 : ℚ) < 10 ^ (t + 1) by positivity)]
    nlinarith [abs_nonneg q]
  have hsmall : |((n.bmod (2 ^ w) : Int) : ℚ)| ≤ |(n : ℚ)| := by
    exact_mod_cast abs_bmod_le (n := n) hw
  have hnear : |(n : ℚ)| ≤ |q| + 1 / 2 := by
    have htri := abs_sub_abs_le_abs_sub (n : ℚ) q
    linarith
  have hlt : |(n : ℚ)| < 1 := by linarith
  have hn0 : n = 0 := by
    have hint : |n| < 1 := by exact_mod_cast hlt
    exact Int.abs_lt_one_iff.mp hint
  rw [hn0, Int.zero_bmod, Int.cast_zero] at hm
  exact (mul_ne_zero hq hne) hm.symm

/-- A positive scale would have to undo the wrapping, which only zero survives. -/
theorem eq_zero_of_pos_scale (hw : 0 < w) (hs : 0 < s) (hn : |(n : ℚ) - q| ≤ 1 / 2)
    (h : received w s n = q) : q = 0 := by
  obtain ⟨t, rfl⟩ : ∃ t : Nat, s = (t + 1 : Nat) := ⟨(s - 1).toNat, by omega⟩
  have hq : q = ((n.bmod (2 ^ w) * 10 ^ (t + 1) : Int) : ℚ) := by
    rw [← h, received, zpow_natCast]
    push_cast
    rfl
  have hsent := eq_of_near hn hq
  -- the wrapped integer is congruent to ten to the scale times itself
  have hdvd : ((2 ^ w : Nat) : Int) ∣ n.bmod (2 ^ w) * (10 ^ (t + 1) - 1) := by
    have hself := Int.dvd_self_sub_bmod (x := n) (m := 2 ^ w)
    rw [mul_sub, mul_one, hsent]
    exact hself
  have hodd : IsCoprime (((2 ^ w : Nat) : Int)) (10 ^ (t + 1) - 1) := by
    push_cast
    refine IsCoprime.pow_left ⟨5 * 10 ^ t, -1, ?_⟩
    rw [pow_succ]
    ring
  have hm := hodd.dvd_of_dvd_mul_right hdvd
  have hzero : n.bmod (2 ^ w) = 0 := by
    obtain ⟨hlo, hhi⟩ := bmod_bounds (n := n) hw
    have hpow := two_pow_eq hw
    have hpos : (0 : Int) < 2 ^ (w - 1) := by positivity
    refine Int.eq_zero_of_abs_lt_dvd hm ?_
    rw [abs_lt]
    constructor <;> omega
  rw [hq, hzero]
  simp

/-- **When the number arrives**, if the sender rounds to a nearest integer. -/
theorem arrives_iff (hw : 0 < w) (hn : |(n : ℚ) - q| ≤ 1 / 2) :
    received w s n = q ↔ q = 0 ∨ (s = 0 ∧ FitsWidth w q) := by
  constructor
  · intro h
    rcases lt_trichotomy s 0 with hs | rfl | hs
    · exact .inl (eq_zero_of_neg_scale hw hs hn h)
    · rw [received, zpow_zero, mul_one] at h
      exact .inr ⟨rfl, n.bmod (2 ^ w), h.symm, bmod_bounds hw⟩
    · exact .inl (eq_zero_of_pos_scale hw hs hn h)
  · rintro (rfl | ⟨rfl, m, rfl, hlo, hhi⟩)
    · have hn0 := eq_of_near (m := 0) hn (by simp)
      rw [received, ← hn0]
      simp
    · obtain rfl := eq_of_near hn rfl
      rw [received, bmod_of_fits hw hlo hhi, zpow_zero, mul_one]

end Scaled
