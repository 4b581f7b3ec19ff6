import Mathlib.Data.List.Sort
import Mathlib.Order.Basic

/-!
# `Lib.OrderedMap` — maps that are iterated in the order of their keys

Such a map is the list of its entries, with ascending keys. `assign` is `m[key] = value`. Two maps with the same
entries are the same list (`Ascending.eq_of_mem_iff`).
-/

namespace OrderedMap

variable {κ α : Type} [LinearOrder κ]

/-- The keys ascend. -/
def Ascending (m : List (κ × α)) : Prop := m.Pairwise fun a b => a.1 < b.1

/-- `m[key] = value`. -/
def assign (key : κ) (value : α) : List (κ × α) → List (κ × α)
  | [] => [(key, value)]
  | entry :: m =>
      if key < entry.1 then (key, value) :: entry :: m
      else if key = entry.1 then (key, value) :: m
      else entry :: assign key value m

variable {key : κ} {value : α} {m : List (κ × α)}

/-- The entries after an assignment, for a key that was not there. -/
theorem mem_assign (hnew : key ∉ m.map Prod.fst) {entry : κ × α} :
    entry ∈ assign key value m ↔ entry = (key, value) ∨ entry ∈ m := by
  induction m with
  | nil => exact List.mem_singleton.trans (or_iff_left List.not_mem_nil).symm
  | cons first m ih =>
      rw [List.map_cons, List.mem_cons, not_or] at hnew
      obtain ⟨hfirst, hm⟩ := hnew
      unfold assign
      rw [if_neg hfirst]
      split_ifs with hlt
      · exact List.mem_cons
      · rw [List.mem_cons, ih hm, List.mem_cons]
        exact or_left_comm

theorem mem_keys_assign {k : κ} : k ∈ (assign key value m).map Prod.fst ↔ k = key ∨ k ∈ m.map Prod.fst := by
  induction m with
  | nil => exact List.mem_singleton.trans (or_iff_left List.not_mem_nil).symm
  | cons first m ih =>
      unfold assign
      split_ifs with hlt heq
      · exact List.mem_cons
      · rw [List.map_cons, List.map_cons, List.mem_cons, List.mem_cons, ← heq, or_self_left]
      · rw [List.map_cons, List.map_cons, List.mem_cons, ih, List.mem_cons]
        exact or_left_comm

theorem Ascending.assign (h : Ascending m) : Ascending (assign key value m) := by
  induction m with
  | nil => exact List.pairwise_singleton _ _
  | cons first m ih =>
      obtain ⟨hfirst, hm⟩ := List.pairwise_cons.mp h
      unfold OrderedMap.assign
      split_ifs with hlt heq
      · refine List.pairwise_cons.mpr ⟨?_, h⟩
        intro entry hentry
        rcases List.mem_cons.mp hentry with rfl | hentry
        · exact hlt
        · exact lt_trans hlt (hfirst entry hentry)
      · refine List.pairwise_cons.mpr ⟨?_, hm⟩
        intro entry hentry
        show key < entry.1
        rw [heq]
        exact hfirst entry hentry
      · refine List.pairwise_cons.mpr ⟨?_, ih hm⟩
        intro entry hentry
        rcases mem_keys_assign.mp (List.mem_map_of_mem hentry) with hkey | hmem
        · rw [hkey]
          exact lt_of_le_of_ne (not_lt.mp hlt) (Ne.symm heq)
        · obtain ⟨other, hother, hsame⟩ := List.mem_map.mp hmem
          rw [← hsame]
          exact hfirst other hother

theorem Ascending.nodup (h : Ascending m) : m.Nodup := by
  apply List.Pairwise.imp _ h
  intro a b hlt heq
  rw [heq] at hlt
  exact lt_irrefl _ hlt

/-- **A map is determined by its entries.** -/
theorem Ascending.eq_of_mem_iff {m' : List (κ × α)} (h : Ascending m) (h' : Ascending m')
    (hmem : ∀ entry, entry ∈ m ↔ entry ∈ m') : m = m' := by
  apply List.Perm.eq_of_pairwise _ h h' ((List.perm_ext_iff_of_nodup h.nodup h'.nodup).mpr hmem)
  intro a b _ _ hab hba
  exact absurd (lt_trans hab hba) (lt_irrefl _)

end OrderedMap
