import Mathlib.Data.List.Basic
import Mathlib.Data.List.Nodup

/-!
# `Lib.Window` — a window of the elements that pass a test

A list is filtered, and a window of what is left is taken. Whether an element is in the window depends on how
many elements ahead of it pass the test (`window_eq_filter`). So two tests give the same window of the elements
that pass both exactly when no such element is in the one window and not in the other
(`filter_window_eq_iff`).
-/

namespace Window

variable {α : Type} [DecidableEq α]

/-- The number of elements ahead of `a` that pass the test. -/
def ahead (p : α → Bool) : List α → α → Nat
  | [], _ => 0
  | b :: rest, a => if b = a then 0 else (if p b then 1 else 0) + ahead p rest a

/-- The elements from position `lo` up to position `hi`. -/
def window (lo hi : Nat) (as : List α) : List α := (as.take hi).drop lo

/-- The element is within the window of those that pass the test. -/
def within (p : α → Bool) (lo hi : Nat) (as : List α) (a : α) : Bool := lo ≤ ahead p as a && ahead p as a < hi

theorem within_iff {p : α → Bool} {lo hi : Nat} {as : List α} {a : α} :
    within p lo hi as a = true ↔ lo ≤ ahead p as a ∧ ahead p as a < hi := by
  unfold within
  rw [Bool.and_eq_true, decide_eq_true_eq, decide_eq_true_eq]

theorem ahead_head (p : α → Bool) (a : α) (rest : List α) : ahead p (a :: rest) a = 0 := if_pos rfl

theorem ahead_tail {p : α → Bool} {a b : α} (hne : b ≠ a) (rest : List α) :
    ahead p (b :: rest) a = (if p b then 1 else 0) + ahead p rest a := if_neg hne

/-- **The window of a filtered list** holds the elements that have the right number ahead of them. -/
theorem window_eq_filter {as : List α} (hnodup : as.Nodup) (p : α → Bool) (lo hi : Nat) :
    window lo hi (as.filter p) = as.filter fun a => p a && within p lo hi as a := by
  induction as generalizing lo hi with
  | nil =>
      unfold window
      rw [List.filter_nil, List.take_nil, List.drop_nil]
      rfl
  | cons b rest ih =>
      obtain ⟨hb, hrest⟩ := List.nodup_cons.mp hnodup
      -- for the others one element more is ahead, if it passes
      have htail {lo' hi' : Nat}
          (h : ∀ n, lo ≤ (if p b then 1 else 0) + n ∧ (if p b then 1 else 0) + n < hi ↔ lo' ≤ n ∧ n < hi') :
          (rest.filter fun a => p a && within p lo hi (b :: rest) a) = window lo' hi' (rest.filter p) := by
        rw [ih hrest]
        refine List.filter_congr fun a ha => congrArg (p a && ·) (Bool.eq_iff_iff.mpr ?_)
        have hne : b ≠ a := fun h => hb (h ▸ ha)
        rw [within_iff, within_iff, ahead_tail hne]
        exact h _
      have hhead : within p lo hi (b :: rest) b = true ↔ lo = 0 ∧ 0 < hi := by
        rw [within_iff, ahead_head]
        omega
      by_cases hp : p b = true
      · rw [List.filter_cons_of_pos hp]
        cases hi with
        | zero =>
            have hout : within p lo 0 (b :: rest) b = false :=
              Bool.eq_false_iff.mpr fun h => absurd (hhead.mp h).2 (Nat.lt_irrefl 0)
            rw [List.filter_cons_of_neg (by simp [hout]), @htail lo 0 fun n => by omega]
            simp [window]
        | succ hi =>
            cases lo with
            | zero =>
                have hin : within p 0 (hi + 1) (b :: rest) b = true := hhead.mpr ⟨rfl, Nat.succ_pos hi⟩
                rw [List.filter_cons_of_pos (by simp [hp, hin]), @htail 0 hi fun n => by rw [if_pos hp]; omega]
                rfl
            | succ lo =>
                have hout : within p (lo + 1) (hi + 1) (b :: rest) b = false :=
                  Bool.eq_false_iff.mpr fun h => nomatch (hhead.mp h).1
                rw [List.filter_cons_of_neg (by simp [hout]), @htail lo hi fun n => by rw [if_pos hp]; omega]
                rfl
      · rw [List.filter_cons_of_neg hp, List.filter_cons_of_neg (by simp [hp]),
          @htail lo hi fun n => by rw [if_neg hp]; omega]

omit [DecidableEq α] in
theorem filter_eq_filter_iff {as : List α} {p q : α → Bool} :
    as.filter p = as.filter q ↔ ∀ a ∈ as, p a = q a := by
  constructor
  · intro h a ha
    have hmem : a ∈ as.filter p ↔ a ∈ as.filter q := by rw [h]
    rw [List.mem_filter, List.mem_filter] at hmem
    exact Bool.eq_iff_iff.mpr ⟨fun hp => (hmem.mp ⟨ha, hp⟩).2, fun hq => (hmem.mpr ⟨ha, hq⟩).2⟩
  · exact List.filter_congr

/-- **Two divisions of one test.** Before the window `p` is applied and behind it `k`, or `q` and `l`; the
    elements are the same exactly when the windows have the same of those that pass everything. -/
theorem filter_window_eq_iff {as : List α} (hnodup : as.Nodup) {p q k l : α → Bool}
    (hsame : ∀ a ∈ as, (p a && k a) = (q a && l a)) (lo hi : Nat) :
    (window lo hi (as.filter p)).filter k = (window lo hi (as.filter q)).filter l ↔
      ∀ a ∈ as, (p a && k a) = true → within p lo hi as a = within q lo hi as a := by
  rw [window_eq_filter hnodup, window_eq_filter hnodup, List.filter_filter, List.filter_filter, filter_eq_filter_iff]
  refine forall₂_congr fun a ha => ?_
  have hleft : (k a && (p a && within p lo hi as a)) = (p a && k a && within p lo hi as a) := by
    rw [← Bool.and_assoc, Bool.and_comm (k a)]
  have hright : (l a && (q a && within q lo hi as a)) = (p a && k a && within q lo hi as a) := by
    rw [← Bool.and_assoc, Bool.and_comm (l a), ← hsame a ha]
  rw [hleft, hright]
  cases p a && k a with
  | false => exact iff_of_true rfl nofun
  | true => exact ⟨fun h _ => h, fun h => h rfl⟩

end Window
