import Mathlib.Algebra.Order.Field.Rat
import Mathlib.Tactic.NormNum

/-!
# `Lib.Ieee` — binary floating-point data as the rationals they denote

A format is a precision and an exponent range; `Represents` says which rationals a format holds. A datum
of the format is one of those rationals, an infinity or a NaN, so a value outside the format cannot be
built. Only the value of a datum is kept: the two zeros and the NaN payloads are not told apart.
-/

namespace Ieee

/-- A binary format: significand of `precision` bits, units `2^minExp … 2^maxExp`. -/
structure Format where
  precision : Nat
  minExp : Int
  maxExp : Int
deriving DecidableEq

/-- IEEE 754 single precision. -/
def binary32 : Format := ⟨24, -149, 104⟩

/-- IEEE 754 double precision. -/
def binary64 : Format := ⟨53, -1074, 971⟩

/-- `fmt` holds the rational `q` exactly. -/
def Format.Represents (fmt : Format) (q : ℚ) : Prop :=
  ∃ m e : Int, m.natAbs < 2 ^ fmt.precision ∧ fmt.minExp ≤ e ∧ e ≤ fmt.maxExp ∧ q = m * 2 ^ e

/-- A datum of a format. -/
inductive Datum (fmt : Format) where
  | finite (q : ℚ) (held : fmt.Represents q)
  | infinite (negative : Bool)
  | nan
deriving DecidableEq

/-- What a datum denotes, whatever its format. -/
inductive Quantity where
  | finite (q : ℚ)
  | infinite (negative : Bool)
  | nan
deriving DecidableEq

def Datum.quantity {fmt : Format} : Datum fmt → Quantity
  | .finite q _ => .finite q
  | .infinite negative => .infinite negative
  | .nan => .nan

/-- The format has a datum for the quantity. -/
def Format.Holds (fmt : Format) : Quantity → Prop
  | .finite q => fmt.Represents q
  | _ => True

/-- The exponents of a format are finitely many, and each leaves one significand to try. -/
theorem Format.represents_iff {fmt : Format} {q : ℚ} :
    fmt.Represents q ↔ ∃ k ∈ List.range (fmt.maxExp - fmt.minExp + 1).toNat,
      (q * 2 ^ (-(fmt.minExp + (k : Int)))).den = 1 ∧
        (q * 2 ^ (-(fmt.minExp + (k : Int)))).num.natAbs < 2 ^ fmt.precision := by
  have hcancel : ∀ (m : ℚ) (e : Int), m * 2 ^ e * 2 ^ (-e) = m := by
    intro m e
    rw [mul_assoc, ← zpow_add₀ (by norm_num), add_neg_cancel, zpow_zero, mul_one]
  constructor
  · rintro ⟨m, e, hm, hmin, hmax, rfl⟩
    refine ⟨(e - fmt.minExp).toNat, List.mem_range.mpr (by omega), ?_⟩
    rw [show fmt.minExp + ((e - fmt.minExp).toNat : Int) = e by omega, hcancel]
    exact ⟨Rat.den_intCast m, by simpa using hm⟩
  · rintro ⟨k, hk, hden, hnum⟩
    have hk := List.mem_range.mp hk
    refine ⟨_, fmt.minExp + k, hnum, by omega, by omega, ?_⟩
    have hint := Rat.den_eq_one_iff _ |>.mp hden
    have hback := hcancel q (-(fmt.minExp + (k : Int)))
    rw [neg_neg] at hback
    rw [hint, hback]

instance (fmt : Format) (q : ℚ) : Decidable (fmt.Represents q) :=
  decidable_of_iff _ Format.represents_iff.symm

/-- Double precision holds what single precision does. -/
theorem holds_binary64 {x : Quantity} (h : binary32.Holds x) : binary64.Holds x := by
  cases x with
  | finite q =>
      obtain ⟨m, e, hm, hmin, hmax, rfl⟩ := h
      simp only [binary32] at hm hmin hmax
      exact ⟨m, e, Nat.lt_trans hm (by decide), by simp only [binary64]; omega,
        by simp only [binary64]; omega, rfl⟩
  | infinite negative => exact trivial
  | nan => exact trivial

theorem Datum.holds {fmt : Format} (x : Datum fmt) : fmt.Holds x.quantity := by
  cases x with
  | finite q held => exact held
  | infinite negative => exact trivial
  | nan => exact trivial

end Ieee
