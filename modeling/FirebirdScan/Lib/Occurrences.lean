import Mathlib.Data.List.Infix

/-!
# `Lib.Occurrences` — a text cut at the occurrences of a pattern

The occurrences of a pattern are searched from left to right, each behind the end of the one before. `Cut pat s pieces`
says that `pieces` is what stands between them; the pieces joined by the pattern are the text again. A text has exactly
one cut (`Cut.functional`, `Cut.exists`). No occurrence of an empty pattern is searched for.
-/

namespace Occurrences

variable {α : Type*} {pat p p' s s' : List α}

/-- In the text `p ++ s` the pattern begins nowhere within `p`. -/
def Free (pat p s : List α) : Prop := ∀ q, q ≠ [] → q <:+ p → ¬ pat <+: q ++ s

/-- The pieces of a text between the occurrences of a pattern. -/
inductive Cut (pat : List α) : List α → List (List α) → Prop
  | last {s : List α} : pat = [] ∨ Free pat s [] → Cut pat s [s]
  | next {p s : List α} {pieces : List (List α)} : pat ≠ [] → Free pat p (pat ++ s) → Cut pat s pieces →
      Cut pat (p ++ (pat ++ s)) (p :: pieces)

theorem Free.nil (pat s : List α) : Free pat [] s := fun _ hne hsuffix => absurd (List.suffix_nil.mp hsuffix) hne

/-- The pattern does not begin at the front of what it does not begin in, nor further on. -/
theorem free_cons {c : α} : Free pat (c :: p) s ↔ ¬ pat <+: c :: (p ++ s) ∧ Free pat p s := by
  constructor
  · intro h
    refine ⟨h (c :: p) (List.cons_ne_nil c p) List.suffix_rfl, ?_⟩
    intro q hne hsuffix
    exact h q hne (hsuffix.trans (List.suffix_cons c p))
  · rintro ⟨hhead, hfree⟩ q hne hsuffix
    rcases List.suffix_cons_iff.mp hsuffix with rfl | hsuffix
    · exact hhead
    · exact hfree q hne hsuffix

/-- A text has no occurrence of the pattern, or a first one. -/
theorem free_or_first (pat s : List α) :
    Free pat s [] ∨ ∃ p t, s = p ++ (pat ++ t) ∧ Free pat p (pat ++ t) := by
  induction s with
  | nil => exact .inl (Free.nil pat [])
  | cons c s ih =>
      by_cases hhead : pat <+: c :: s
      · obtain ⟨t, ht⟩ := hhead
        exact .inr ⟨[], t, ht.symm, Free.nil pat _⟩
      rcases ih with hfree | ⟨p, t, rfl, hfree⟩
      · refine .inl (free_cons.mpr ⟨?_, hfree⟩)
        rw [List.append_nil]
        exact hhead
      · exact .inr ⟨c :: p, t, rfl, free_cons.mpr ⟨hhead, hfree⟩⟩

/-- Every text has a cut. -/
theorem Cut.exists (pat s : List α) : ∃ pieces, Cut pat s pieces := by
  induction hn : s.length using Nat.strong_induction_on generalizing s with
  | h n ih =>
      subst hn
      by_cases hpat : pat = []
      · exact ⟨[s], .last (.inl hpat)⟩
      rcases free_or_first pat s with hfree | ⟨p, t, rfl, hfree⟩
      · exact ⟨[s], .last (.inr hfree)⟩
      · have hlen : t.length < (p ++ (pat ++ t)).length := by
          have hpos := List.length_pos_iff.mpr hpat
          rw [List.length_append, List.length_append]
          omega
        obtain ⟨pieces, h⟩ := ih t.length hlen t rfl
        exact ⟨p :: pieces, .next hpat hfree h⟩

/-- The first occurrence stands at one place only. -/
theorem first_unique (h : Free pat p (pat ++ s)) (h' : Free pat p' (pat ++ s'))
    (heq : p ++ (pat ++ s) = p' ++ (pat ++ s')) : p = p' ∧ s = s' := by
  have hle {p p' s s' : List α} (h' : Free pat p' (pat ++ s')) (heq : p ++ (pat ++ s) = p' ++ (pat ++ s')) :
      p'.length ≤ p.length := by
    by_contra hlt
    rw [not_le] at hlt
    rcases List.append_eq_append_iff.mp heq with ⟨q, rfl, hq⟩ | ⟨q, rfl, -⟩
    · have hne : q ≠ [] := by
        rintro rfl
        rw [List.append_nil] at hlt
        exact lt_irrefl _ hlt
      exact h' q hne (List.suffix_append p q) (hq ▸ List.prefix_append pat s)
    · rw [List.length_append] at hlt
      omega
  have hlen : p.length = p'.length := le_antisymm (hle h heq.symm) (hle h' heq)
  obtain ⟨hp, hrest⟩ := List.append_inj heq hlen
  exact ⟨hp, List.append_cancel_left hrest⟩

theorem not_free_of_next (hpat : pat ≠ []) (h : Free pat (p ++ (pat ++ s)) []) : False := by
  refine h (pat ++ s) ?_ (List.suffix_append p _) ?_
  · intro hnil
    exact hpat (List.append_eq_nil_iff.mp hnil).1
  · rw [List.append_nil]
    exact List.prefix_append pat s

/-- **The cut of a text is determined.** -/
theorem Cut.functional {pieces pieces' : List (List α)} (h : Cut pat s pieces) (h' : Cut pat s pieces') :
    pieces = pieces' := by
  induction h generalizing pieces' with
  | last hlast =>
      cases h' with
      | last _ => rfl
      | next hpat _ _ => exact (not_free_of_next hpat (hlast.resolve_left hpat)).elim
  | @next p s pieces hpat hfree _ ih =>
      generalize ht : p ++ (pat ++ s) = t at h'
      cases h' with
      | last hlast => exact (not_free_of_next hpat (ht ▸ hlast.resolve_left hpat)).elim
      | next _ hfree' h' =>
          obtain ⟨rfl, rfl⟩ := first_unique hfree hfree' ht
          rw [ih h']

/-- The pieces joined by the pattern are the text. -/
theorem Cut.join {pieces : List (List α)} (h : Cut pat s pieces) : pieces ≠ [] ∧ pat.intercalate pieces = s := by
  induction h with
  | last _ => exact ⟨List.cons_ne_nil _ _, List.intercalate_singleton⟩
  | next _ _ _ ih =>
      refine ⟨List.cons_ne_nil _ _, ?_⟩
      rw [List.intercalate_cons_of_ne_nil ih.1, ih.2, List.append_assoc]

end Occurrences
