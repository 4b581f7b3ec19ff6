import Mathlib.Data.List.Basic
import Mathlib.Data.List.Pairwise

/-!
# `Lib.Tiling` — integer intervals that tile an interval

`Tiles lo hi cells` says that a list of intervals cuts `[lo, hi]` into nonempty pieces, in order and without
gap or overlap. The one way to get a tiling that is needed is from a list of cuts: strictly increasing
boundaries `b 0 < b 1 < … < b n` give the cells `[b i, b (i + 1) - 1]` (`tiles_cells`).

A list that is dealt out to classes can be put together again (`flatMap_filter_perm`).
-/

namespace Tiling

/-- The intervals `cells` are nonempty, increasing and disjoint, start at `lo`, end at `hi`, and every
    number of `[lo, hi]` lies in exactly one of them. -/
structure Tiles (lo hi : Int) (cells : List (Int × Int)) : Prop where
  nonempty : ∀ c ∈ cells, c.1 ≤ c.2
  increasing : cells.Pairwise fun c d => c.2 < d.1
  first : cells.head?.map Prod.fst = some lo
  last : cells.getLast?.map Prod.snd = some hi
  within : ∀ c ∈ cells, lo ≤ c.1 ∧ c.2 ≤ hi
  unique_cell : ∀ k, lo ≤ k → k ≤ hi → ∃! c, c ∈ cells ∧ c.1 ≤ k ∧ k ≤ c.2

/-- Every number of the tiled interval lies in some cell. -/
theorem Tiles.covers {lo hi : Int} {cells : List (Int × Int)} (h : Tiles lo hi cells) {k : Int}
    (hlo : lo ≤ k) (hhi : k ≤ hi) : ∃ c ∈ cells, c.1 ≤ k ∧ k ≤ c.2 := by
  obtain ⟨c, ⟨hc, hk⟩, -⟩ := h.unique_cell k hlo hhi
  exact ⟨c, hc, hk⟩

variable {b : Nat → Int} {n : Nat}

/-- The cells between `n + 1` cuts. -/
def cells (b : Nat → Int) (n : Nat) : List (Int × Int) :=
  (List.range n).map fun i => (b i, b (i + 1) - 1)

theorem mem_cells {c : Int × Int} : c ∈ cells b n ↔ ∃ i < n, c = (b i, b (i + 1) - 1) := by
  simp only [cells, List.mem_map, List.mem_range]
  constructor
  · rintro ⟨i, hi, rfl⟩
    exact ⟨i, hi, rfl⟩
  · rintro ⟨i, hi, rfl⟩
    exact ⟨i, hi, rfl⟩

/-- Cuts that increase step by step increase over any distance. -/
theorem cuts_mono (hb : ∀ i < n, b i < b (i + 1)) {i j : Nat} (hij : i ≤ j) (hj : j ≤ n) : b i ≤ b j := by
  induction j with
  | zero =>
      obtain rfl : i = 0 := by omega
      exact Int.le_refl _
  | succ j ih =>
      rcases Nat.lt_or_eq_of_le hij with h | rfl
      · have hstep := hb j (by omega)
        have hprev := ih (by omega) (by omega)
        omega
      · exact Int.le_refl _

/-- A number between the first cut and the last lies between two neighbours. -/
theorem exists_cell {k : Int} (hlo : b 0 ≤ k) (hhi : k < b n) : ∃ i < n, b i ≤ k ∧ k < b (i + 1) := by
  induction n with
  | zero => omega
  | succ n ih =>
      by_cases h : k < b n
      · obtain ⟨i, hi, hk⟩ := ih h
        exact ⟨i, by omega, hk⟩
      · exact ⟨n, by omega, by omega, hhi⟩

/-- **Strictly increasing cuts give a tiling.** -/
theorem tiles_cells (hn : 0 < n) (hb : ∀ i < n, b i < b (i + 1)) : Tiles (b 0) (b n - 1) (cells b n) where
  nonempty := by
    intro c hc
    obtain ⟨i, hi, rfl⟩ := mem_cells.mp hc
    have hstep := hb i hi
    show b i ≤ b (i + 1) - 1
    omega
  increasing := by
    rw [cells, List.pairwise_map]
    refine List.Pairwise.imp_of_mem ?_ List.pairwise_lt_range
    intro i j _ hj hij
    have hmono := cuts_mono hb (show i + 1 ≤ j from hij) (Nat.le_of_lt (List.mem_range.mp hj))
    show b (i + 1) - 1 < b j
    omega
  first := by
    obtain ⟨m, rfl⟩ : ∃ m, n = m + 1 := ⟨n - 1, by omega⟩
    simp [cells, List.range_succ_eq_map]
  last := by
    obtain ⟨m, rfl⟩ : ∃ m, n = m + 1 := ⟨n - 1, by omega⟩
    simp [cells, List.range_succ]
  within := by
    intro c hc
    obtain ⟨i, hi, rfl⟩ := mem_cells.mp hc
    have h0 := cuts_mono hb (Nat.zero_le i) (Nat.le_of_lt hi)
    have hn' := cuts_mono hb (show i + 1 ≤ n from hi) (Nat.le_refl n)
    exact ⟨h0, by show b (i + 1) - 1 ≤ b n - 1; omega⟩
  unique_cell := by
    intro k hlo hhi
    obtain ⟨i, hi, hk⟩ := exists_cell (b := b) (n := n) hlo (by omega)
    refine ⟨(b i, b (i + 1) - 1), ⟨mem_cells.mpr ⟨i, hi, rfl⟩, hk.1, by show k ≤ b (i + 1) - 1; omega⟩, ?_⟩
    rintro c ⟨hc, hk1, hk2⟩
    obtain ⟨j, hj, rfl⟩ := mem_cells.mp hc
    have hk1' : b j ≤ k := hk1
    have hk2' : k ≤ b (j + 1) - 1 := hk2
    -- two cells that share a number have the same index: the cuts between them would be out of order
    rcases Nat.lt_trichotomy i j with h | rfl | h
    · have := cuts_mono hb (show i + 1 ≤ j from h) (Nat.le_of_lt hj)
      omega
    · rfl
    · have := cuts_mono hb (show j + 1 ≤ i from h) (Nat.le_of_lt hi)
      omega

/-! ## What lies in the cells -/

/-- At most one element has a property that no two of them share. -/
theorem countP_le_one {α : Type} {p : α → Bool} {l : List α} (h : l.Pairwise fun a b => p a = true → p b = false) :
    l.countP p ≤ 1 := by
  induction l with
  | nil => exact Nat.zero_le 1
  | cons a l ih =>
      obtain ⟨hfirst, hrest⟩ := List.pairwise_cons.mp h
      cases ha : p a with
      | false =>
          rw [List.countP_cons_of_neg (by rw [ha]; exact Bool.false_ne_true)]
          exact ih hrest
      | true =>
          have hnone : l.countP p = 0 := by
            rw [List.countP_eq_zero]
            intro b hb
            rw [hfirst b hb ha]
            exact Bool.false_ne_true
          have hone : (a :: l).countP p = 1 := by rw [List.countP_cons_of_pos ha, hnone]
          exact Nat.le_of_eq hone

/-- A number lies in one cell, or outside the interval in none. -/
theorem Tiles.countP {lo hi : Int} {cells : List (Int × Int)} (h : Tiles lo hi cells) (k : Int) :
    cells.countP (fun c => decide (c.1 ≤ k ∧ k ≤ c.2)) = if lo ≤ k ∧ k ≤ hi then 1 else 0 := by
  split_ifs with hk
  · obtain ⟨c, hc, hin⟩ := h.covers hk.1 hk.2
    have hpos : 0 < cells.countP fun c => decide (c.1 ≤ k ∧ k ≤ c.2) :=
      List.countP_pos_iff.mpr ⟨c, hc, decide_eq_true hin⟩
    have hle : (cells.countP fun c => decide (c.1 ≤ k ∧ k ≤ c.2)) ≤ 1 := by
      refine countP_le_one (h.increasing.imp ?_)
      intro c d hcd hc
      have hle := (of_decide_eq_true hc).2
      exact decide_eq_false fun hd => by omega
    omega
  · rw [List.countP_eq_zero]
    intro c hc hin
    obtain ⟨hlo, hhi⟩ := h.within c hc
    obtain ⟨h1, h2⟩ := of_decide_eq_true hin
    exact hk ⟨by omega, by omega⟩

/-- **Dealt out and put together**: if every row belongs to one class, or to none when it is not wanted, then the
    rows of all classes are the rows that are wanted. -/
theorem flatMap_filter_perm {σ α : Type} {classes : List σ} {p : σ → α → Bool} {q : α → Bool} {rows : List α}
    (h : ∀ row ∈ rows, classes.countP (fun s => p s row) = if q row then 1 else 0) :
    (classes.flatMap fun s => rows.filter (p s)).Perm (rows.filter q) := by
  classical
  -- how often a row is in a filtered list
  have hcount (r : α → Bool) (row : α) : (rows.filter r).count row = if r row then rows.count row else 0 := by
    split_ifs with hr
    · exact List.count_filter hr
    · refine List.count_eq_zero.mpr fun hmem => hr ?_
      exact (List.mem_filter.mp hmem).2
  have hsum (row : α) (l : List σ) :
      (l.map fun s => (rows.filter (p s)).count row).sum = l.countP (fun s => p s row) * rows.count row := by
    induction l with
    | nil => rw [List.map_nil, List.sum_nil, List.countP_nil, Nat.zero_mul]
    | cons s l ih =>
        rw [List.map_cons, List.sum_cons, ih, hcount, List.countP_cons, Nat.add_mul, Nat.add_comm]
        cases p s row with
        | false => rw [if_neg Bool.false_ne_true, if_neg Bool.false_ne_true, Nat.zero_mul]
        | true => rw [if_pos rfl, if_pos rfl, Nat.one_mul]
  refine List.perm_iff_count.mpr fun row => ?_
  rw [List.count_flatMap, hcount]
  refine (hsum row classes).trans ?_
  by_cases hrow : row ∈ rows
  · rw [h row hrow]
    split_ifs
    · exact Nat.one_mul _
    · exact Nat.zero_mul _
  · rw [List.count_eq_zero_of_not_mem hrow, Nat.mul_zero, ite_self]

end Tiling
