import FirebirdScan.Lib.SearchCondition
import Mathlib.Data.Int.Order.Basic
import Mathlib.Order.Compare
import Mathlib.Tactic.Linarith

/-!
# `Lib.Grid` — rounding a constant down to the grid of what it is compared with

Stored values are whole multiples of a unit, and are compared as such: `a` for `u * a`. A constant `c` off
the grid is rounded down to `c / u` first. Then `a < c / u` is not `u * a < c`; `decides_ediv_iff` and
`mem_ediv_iff` say for which operators, and for which lists, the rounding changes an answer for one of the
values that can be stored.
-/

namespace Grid

open SearchCondition

variable {u : Int} {storable : Int → Prop}

/-- Rounding down does not pass a multiple of the unit. -/
theorem le_ediv_iff (hu : 0 < u) (a c : Int) : a ≤ c / u ↔ u * a ≤ c := by
  rw [Int.le_ediv_iff_mul_le hu, Int.mul_comm]

theorem mul_ediv_le (hu : 0 < u) (c : Int) : u * (c / u) ≤ c := (le_ediv_iff hu _ _).mp (Int.le_refl _)

/-- A value is the rounded constant, but not the constant, only where the constant is off the grid. -/
theorem eq_ediv_iff (c : Int) : u * (c / u) = c ↔ u ∣ c :=
  ⟨fun h => ⟨c / u, h.symm⟩, fun h => Int.mul_ediv_cancel' h⟩

/-- On one side of the rounded constant nothing changes. -/
theorem compare_of_ne (hu : 0 < u) {a c : Int} (hne : a ≠ c / u) : compare a (c / u) = compare (u * a) c := by
  have hle := le_ediv_iff hu a c
  rcases lt_or_gt_of_ne hne with hlt | hgt
  · have hmul : u * a < c := by
      calc u * a < u * (c / u) := Int.mul_lt_mul_of_pos_left hlt hu
        _ ≤ c := mul_ediv_le hu c
    rw [compare_lt_iff_lt.mpr hlt, compare_lt_iff_lt.mpr hmul]
  · have hmul : c < u * a := by
      by_contra hnot
      exact absurd (hle.mpr (by omega)) (by omega)
    rw [compare_gt_iff_gt.mpr hgt, compare_gt_iff_gt.mpr hmul]

/-- At the rounded constant, the value is at most the constant. -/
theorem compare_at (hu : 0 < u) (c : Int) :
    compare (c / u) (c / u) = .eq ∧
    compare (u * (c / u)) c = if u ∣ c then .eq else .lt := by
  refine ⟨compare_eq_iff_eq.mpr rfl, ?_⟩
  split_ifs with h
  · exact compare_eq_iff_eq.mpr ((eq_ediv_iff c).mpr h)
  · have hne : u * (c / u) ≠ c := fun heq => h ((eq_ediv_iff c).mp heq)
    exact compare_lt_iff_lt.mpr (lt_of_le_of_ne (mul_ediv_le hu c) hne)

/-- **Rounding a constant down is harmless** for every storable value exactly if it is on the grid, or no
    value that rounds to it can be stored, or the operator is `≤` or `>`. -/
theorem decides_ediv_iff (hu : 0 < u) (op : CompareOp) (c : Int) :
    (∀ a, storable a → op.decides (compare a (c / u)) = op.decides (compare (u * a) c)) ↔
      u ∣ c ∨ ¬storable (c / u) ∨ op = .le ∨ op = .gt := by
  obtain ⟨hself, hmul⟩ := compare_at hu c
  constructor
  · intro h
    by_cases hgrid : u ∣ c
    · exact .inl hgrid
    by_cases hst : storable (c / u)
    · have hat := h _ hst
      rw [hself, hmul, if_neg hgrid] at hat
      refine .inr (.inr ?_)
      cases op with
      | le => exact .inl rfl
      | gt => exact .inr rfl
      | eq | ne | lt | ge => exact absurd hat (by decide)
    · exact .inr (.inl hst)
  · intro h a ha
    by_cases hat : a = c / u
    · subst hat
      rw [hself, hmul]
      rcases h with hgrid | hst | rfl | rfl
      · rw [if_pos hgrid]
      · exact absurd ha hst
      · split_ifs <;> rfl
      · split_ifs <;> rfl
    · rw [compare_of_ne hu hat]

/-- **Rounding a list down is harmless** exactly if every storable value one of its elements rounds to is
    itself one of them. -/
theorem mem_ediv_iff {ι : Type} (hu : 0 < u) (cs : List ι) (f : ι → Int) :
    (∀ a, storable a → ((∃ c ∈ cs, a = f c / u) ↔ ∃ c ∈ cs, u * a = f c)) ↔
      ∀ c ∈ cs, storable (f c / u) → ∃ e ∈ cs, u * (f c / u) = f e := by
  constructor
  · intro h c hc hst
    exact (h _ hst).mp ⟨c, hc, rfl⟩
  · intro h a ha
    constructor
    · rintro ⟨c, hc, rfl⟩
      exact h c hc ha
    · rintro ⟨c, hc, heq⟩
      refine ⟨c, hc, ?_⟩
      rw [← heq, Int.mul_ediv_cancel_left a (by omega)]

/-- The origin does not matter. -/
theorem compare_add_right (a b n : Int) : compare (a + n) (b + n) = compare a b := by
  rcases lt_trichotomy a b with hlt | rfl | hgt
  · rw [compare_lt_iff_lt.mpr hlt, compare_lt_iff_lt.mpr (by omega)]
  · rw [compare_eq_iff_eq.mpr rfl, compare_eq_iff_eq.mpr rfl]
  · rw [compare_gt_iff_gt.mpr hgt, compare_gt_iff_gt.mpr (by omega)]

theorem decides_eq_compare {a b : Int} : CompareOp.eq.decides (compare a b) = true ↔ a = b := by
  rw [CompareOp.decides, beq_iff_eq, compare_eq_iff_eq]

/-! ## Counting in two units -/

theorem compare_natCast (m n : Nat) : compare (m : Int) n = compare m n := by
  rcases lt_trichotomy m n with hlt | heq | hgt
  · rw [compare_lt_iff_lt.mpr hlt, compare_lt_iff_lt.mpr (by exact_mod_cast hlt)]
  · rw [compare_eq_iff_eq.mpr heq, compare_eq_iff_eq.mpr (by exact_mod_cast heq)]
  · rw [compare_gt_iff_gt.mpr hgt, compare_gt_iff_gt.mpr (by exact_mod_cast hgt)]

/-- The larger unit first, and then the smaller one, is the order of the sums. -/
theorem compare_then {n t v : Nat} (ht : t < n) (hv : v < n) (a b : Int) :
    (compare a b).then (compare t v) = compare (a * n + t) (b * n + v) := by
  rcases lt_trichotomy a b with hlt | rfl | hgt
  · have hsum : a * n + t < b * n + v := by nlinarith
    rw [compare_lt_iff_lt.mpr hlt, compare_lt_iff_lt.mpr hsum]
    rfl
  · rw [compare_eq_iff_eq.mpr rfl, Ordering.eq_then, ← compare_natCast]
    rcases lt_trichotomy (t : Int) v with hlt | heq | hgt
    · rw [compare_lt_iff_lt.mpr hlt, compare_lt_iff_lt.mpr (by omega)]
    · rw [compare_eq_iff_eq.mpr heq, compare_eq_iff_eq.mpr (by omega)]
    · rw [compare_gt_iff_gt.mpr hgt, compare_gt_iff_gt.mpr (by omega)]
  · have hsum : b * n + v < a * n + t := by nlinarith
    rw [compare_gt_iff_gt.mpr hgt, compare_gt_iff_gt.mpr hsum]
    rfl

end Grid
