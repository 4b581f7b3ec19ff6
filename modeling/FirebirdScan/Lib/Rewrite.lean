import Mathlib.Data.List.Basic
import Mathlib.Data.List.Infix

/-!
# `Lib.Rewrite` — every match of a rule replaced, from left to right

A `Rule` looks at the front of a text: where it applies, it says what to write and what is left of the text. `rewrite`
applies it wherever it can, and copies a character where it cannot.

The rules of proof are `rewrite_keep`, on a text in which the rule applies nowhere, and `rewrite_append`: what two
texts become stays related behind a common front, if the rule does not tell the two apart across the front's end.
-/

namespace Rewrite

variable {α : Type*}

/-- A rule for the front of a text. -/
structure Rule (α : Type*) where
  apply : List α → Option (List α × List α)
  shrinks : ∀ s out rest, apply s = some (out, rest) → rest.length < s.length

/-- The loop. Every round leaves a shorter text, so the length is fuel enough. -/
def rewriteFrom (r : Rule α) : Nat → List α → List α
  | _, [] => []
  | 0, _ :: _ => []
  | fuel + 1, c :: s =>
      match r.apply (c :: s) with
      | some (out, rest) => out ++ rewriteFrom r fuel rest
      | none => c :: rewriteFrom r fuel s

/-- The text with every match replaced. -/
def rewrite (r : Rule α) (s : List α) : List α := rewriteFrom r s.length s

variable {r : Rule α} {c : α} {s out rest : List α}

theorem rewriteFrom_nil (r : Rule α) (fuel : Nat) : rewriteFrom r fuel [] = [] := by
  cases fuel <;> rfl

/-- More fuel than that changes nothing. -/
theorem rewriteFrom_fuel : ∀ {fuel fuel' : Nat} {s : List α}, s.length ≤ fuel → s.length ≤ fuel' →
    rewriteFrom r fuel s = rewriteFrom r fuel' s := by
  intro fuel
  induction fuel with
  | zero =>
      intro fuel' s h _
      obtain rfl := List.length_eq_zero_iff.mp (Nat.le_zero.mp h)
      rw [rewriteFrom_nil, rewriteFrom_nil]
  | succ fuel ih =>
      intro fuel' s h h'
      cases s with
      | nil => rw [rewriteFrom_nil, rewriteFrom_nil]
      | cons c s =>
          rw [List.length_cons] at h h'
          obtain ⟨fuel', rfl⟩ : ∃ n, fuel' = n + 1 := ⟨fuel' - 1, by omega⟩
          rw [rewriteFrom, rewriteFrom]
          rcases happly : r.apply (c :: s) with _ | ⟨out, rest⟩
          · exact congrArg (c :: ·) (ih (by omega) (by omega))
          · have hlt := r.shrinks _ _ _ happly
            rw [List.length_cons] at hlt
            exact congrArg (out ++ ·) (ih (by omega) (by omega))

@[simp] theorem rewrite_nil (r : Rule α) : rewrite r [] = [] := rfl

/-- A match. -/
theorem rewrite_some (h : r.apply s = some (out, rest)) : rewrite r s = out ++ rewrite r rest := by
  have hlt := r.shrinks _ _ _ h
  cases s with
  | nil => exact absurd hlt (Nat.not_lt_zero _)
  | cons c s =>
      rw [List.length_cons] at hlt
      unfold rewrite
      rw [List.length_cons, rewriteFrom, h]
      exact congrArg (out ++ ·) (rewriteFrom_fuel (by omega) le_rfl)

/-- No match. -/
theorem rewrite_none (h : r.apply (c :: s) = none) : rewrite r (c :: s) = c :: rewrite r s := by
  unfold rewrite
  rw [List.length_cons, rewriteFrom, h]

/-! ## Fronts -/

/-- **A front in which the rule applies nowhere** is copied. -/
theorem rewrite_keep {front back : List α}
    (h : ∀ s, s ≠ [] → s <:+ front → r.apply (s ++ back) = none) :
    rewrite r (front ++ back) = front ++ rewrite r back := by
  induction front with
  | nil => rfl
  | cons c front ih =>
      have hhead := h (c :: front) (List.cons_ne_nil c front) List.suffix_rfl
      rw [List.cons_append] at hhead
      rw [List.cons_append, rewrite_none hhead, List.cons_append]
      exact congrArg (c :: ·) (ih fun s hs hsuffix => h s hs (hsuffix.trans (List.suffix_cons c front)))

/-- The rule does the same to two texts with a common front: it applies to neither; or it writes the same, and
    leaves the same, or what stands behind a shorter front. -/
inductive SameBehind (r : Rule α) (front back back' : List α) : Prop where
  | none : r.apply (front ++ back) = none → r.apply (front ++ back') = none → SameBehind r front back back'
  | swallows (out rest : List α) : r.apply (front ++ back) = some (out, rest) →
      r.apply (front ++ back') = some (out, rest) → SameBehind r front back back'
  | within (out front' : List α) : front'.length < front.length → r.apply (front ++ back) = some (out, front' ++ back) →
      r.apply (front ++ back') = some (out, front' ++ back') → SameBehind r front back back'

/-- **A common front.** A relation that holds of equal texts and survives a common front holds of what two texts
    become behind any front, if it holds of what they become by themselves and the rule does the same to both. -/
theorem rewrite_append {back back' : List α} {related : List α → List α → Prop} (hrefl : ∀ s, related s s)
    (hfront : ∀ x s s', related s s' → related (x ++ s) (x ++ s'))
    (hback : related (rewrite r back) (rewrite r back'))
    (hsame : ∀ front, front ≠ [] → SameBehind r front back back') (front : List α) :
    related (rewrite r (front ++ back)) (rewrite r (front ++ back')) := by
  induction hlength : front.length using Nat.strongRecOn generalizing front with
  | ind n ih =>
      subst hlength
      cases front with
      | nil => exact hback
      | cons c front =>
          cases hsame (c :: front) (List.cons_ne_nil c front) with
          | none h h' =>
              rw [List.cons_append] at h h' ⊢
              rw [List.cons_append, rewrite_none h, rewrite_none h']
              exact hfront [c] _ _ (ih front.length (Nat.lt_succ_self _) front rfl)
          | swallows out rest h h' =>
              rw [rewrite_some h, rewrite_some h']
              exact hrefl _
          | within out front' hlt h h' =>
              rw [rewrite_some h, rewrite_some h']
              exact hfront out _ _ (ih front'.length hlt front' rfl)

/-! ## Runs of characters -/

/-- A run of characters ends where one stands that does not belong to it. -/
theorem takeWhile_append_stop {p : α → Bool} (hc : p c = false) (l s : List α) :
    (l ++ c :: s).takeWhile p = l.takeWhile p := by
  induction l with
  | nil => simp [hc]
  | cons b l ih =>
      rw [List.cons_append, List.takeWhile_cons, List.takeWhile_cons, ih]

theorem dropWhile_append_stop {p : α → Bool} (hc : p c = false) (l s : List α) :
    (l ++ c :: s).dropWhile p = l.dropWhile p ++ c :: s := by
  induction l with
  | nil => simp [hc]
  | cons b l ih =>
      rw [List.cons_append, List.dropWhile_cons, List.dropWhile_cons, ih]
      split_ifs <;> rfl

end Rewrite
