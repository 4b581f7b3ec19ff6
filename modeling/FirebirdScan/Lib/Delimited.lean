import Mathlib.Data.List.Basic
import Mathlib.Data.List.DropRight

/-!
# `Lib.Delimited` — a text cut at a delimiter

`splitFirst` and `splitLast` are what a search for a character and two substrings give; `lines` is a stream read
line by line, up to any delimiter. A stream that ends with the delimiter has no empty line behind it, so `lines`
undoes `join` on lines that are not empty (`lines_join`).
-/

namespace Delimited

variable {α : Type*} [DecidableEq α] {c : α} {l r s : List α}

/-! ## One delimiter -/

/-- What stands before and behind the first `c`. -/
def splitFirst (c : α) : List α → Option (List α × List α)
  | [] => none
  | b :: s => if b = c then some ([], s) else (splitFirst c s).map fun p => (b :: p.1, p.2)

@[simp] theorem splitFirst_nil (c : α) : splitFirst c ([] : List α) = none := rfl

theorem splitFirst_cons (c b : α) (s : List α) :
    splitFirst c (b :: s) = if b = c then some ([], s) else (splitFirst c s).map fun p => (b :: p.1, p.2) := rfl

theorem splitFirst_append (hl : c ∉ l) (r : List α) : splitFirst c (l ++ c :: r) = some (l, r) := by
  induction l with
  | nil => exact if_pos rfl
  | cons b l ih =>
      obtain ⟨hne, hl⟩ := List.ne_and_not_mem_of_not_mem_cons hl
      rw [List.cons_append, splitFirst_cons, if_neg (Ne.symm hne), ih hl]
      rfl

theorem splitFirst_eq_none : splitFirst c s = none ↔ c ∉ s := by
  induction s with
  | nil => simp
  | cons b s ih =>
      rw [splitFirst_cons, List.mem_cons, not_or]
      by_cases h : b = c
      · rw [if_pos h]
        simp [h]
      · rw [if_neg h, Option.map_eq_none_iff, ih]
        exact ⟨fun hs => ⟨Ne.symm h, hs⟩, fun hs => hs.2⟩

theorem splitFirst_eq_some : splitFirst c s = some (l, r) ↔ c ∉ l ∧ s = l ++ c :: r := by
  constructor
  · intro h
    by_cases hmem : c ∈ s
    · -- a text that has a `c` has a first one
      obtain ⟨l', r', hs, hl'⟩ := List.eq_append_cons_of_mem hmem
      rw [hs, splitFirst_append hl' r'] at h
      obtain ⟨rfl, rfl⟩ := Prod.mk.inj (Option.some.inj h)
      exact ⟨hl', hs⟩
    · rw [splitFirst_eq_none.mpr hmem] at h
      cases h
  · rintro ⟨hl, rfl⟩
    exact splitFirst_append hl r

/-- What stands before and behind the last `c`. -/
def splitLast (c : α) (s : List α) : Option (List α × List α) :=
  (splitFirst c s.reverse).map fun p => (p.2.reverse, p.1.reverse)

theorem splitLast_append (l : List α) (hr : c ∉ r) : splitLast c (l ++ c :: r) = some (l, r) := by
  have hrev : (l ++ c :: r).reverse = r.reverse ++ c :: l.reverse := by simp
  rw [splitLast, hrev, splitFirst_append (by simpa using hr), Option.map_some, List.reverse_reverse,
    List.reverse_reverse]

theorem splitLast_eq_some : splitLast c s = some (l, r) ↔ c ∉ r ∧ s = l ++ c :: r := by
  constructor
  · intro h
    obtain ⟨⟨r', l'⟩, hrev, hp⟩ := Option.map_eq_some_iff.mp h
    obtain ⟨hr', hs⟩ := splitFirst_eq_some.mp hrev
    obtain ⟨rfl, rfl⟩ := Prod.mk.inj hp
    refine ⟨by simpa using hr', ?_⟩
    rw [← List.reverse_reverse s, hs]
    simp
  · rintro ⟨hr, rfl⟩
    exact splitLast_append l hr

theorem splitLast_eq_none : splitLast c s = none ↔ c ∉ s := by
  rw [splitLast, Option.map_eq_none_iff, splitFirst_eq_none, List.mem_reverse]

/-! ## Lines -/

/-- The lines of a stream, the current one read up to `line`. -/
def linesFrom (c : α) : List α → List α → List (List α)
  | line, [] => if line = [] then [] else [line]
  | line, b :: s => if b = c then line :: linesFrom c [] s else linesFrom c (line ++ [b]) s

/-- The lines of a stream. -/
def lines (c : α) (s : List α) : List (List α) := linesFrom c [] s

/-- Lines joined by the delimiter. -/
def join (c : α) : List (List α) → List α
  | [] => []
  | [l] => l
  | l :: l' :: ls => l ++ c :: join c (l' :: ls)

theorem linesFrom_nil (c : α) (line : List α) : linesFrom c line [] = if line = [] then [] else [line] := rfl

theorem linesFrom_cons (c : α) (line : List α) (b : α) (s : List α) :
    linesFrom c line (b :: s) = if b = c then line :: linesFrom c [] s else linesFrom c (line ++ [b]) s := rfl

omit [DecidableEq α] in
theorem join_cons (c : α) (l l' : List α) (ls : List (List α)) :
    join c (l :: l' :: ls) = l ++ c :: join c (l' :: ls) := rfl

theorem linesFrom_append (line : List α) (hl : c ∉ l) (s : List α) :
    linesFrom c line (l ++ s) = linesFrom c (line ++ l) s := by
  induction l generalizing line with
  | nil => rw [List.nil_append, List.append_nil]
  | cons b l ih =>
      obtain ⟨hne, hl⟩ := List.ne_and_not_mem_of_not_mem_cons hl
      rw [List.cons_append, linesFrom_cons, if_neg (Ne.symm hne), ih _ hl, List.append_assoc]
      rfl

theorem lines_cons (hl : c ∉ l) (s : List α) : lines c (l ++ c :: s) = l :: lines c s := by
  rw [lines, linesFrom_append [] hl, List.nil_append, linesFrom_cons, if_pos rfl]
  rfl

theorem lines_single (hl : c ∉ l) (hne : l ≠ []) : lines c l = [l] := by
  have h := linesFrom_append [] hl []
  rw [List.append_nil, List.nil_append, linesFrom_nil, if_neg hne] at h
  exact h

theorem mem_linesFrom_infix {line : List α} (h : l ∈ linesFrom c line s) : l <:+: line ++ s := by
  induction s generalizing line with
  | nil =>
      rw [linesFrom_nil] at h
      split_ifs at h
      · cases h
      · obtain rfl := List.mem_singleton.mp h
        exact (List.prefix_append l []).isInfix
  | cons b s ih =>
      rw [linesFrom_cons] at h
      split_ifs at h
      · rcases List.mem_cons.mp h with rfl | h
        · exact (List.prefix_append l (b :: s)).isInfix
        · exact (ih h).trans ((List.suffix_cons b s).isInfix.trans (List.suffix_append line (b :: s)).isInfix)
      · have hline := ih h
        rwa [List.append_assoc] at hline

/-- A line stands in the stream. -/
theorem mem_lines_infix (h : l ∈ lines c s) : l <:+: s := mem_linesFrom_infix h

/-- Lines that are not empty are read back. -/
theorem lines_join {ls : List (List α)} (h : ∀ l ∈ ls, c ∉ l ∧ l ≠ []) : lines c (join c ls) = ls := by
  induction ls with
  | nil => rfl
  | cons l ls ih =>
      obtain ⟨hl, hne⟩ := h l List.mem_cons_self
      have hrest := ih fun l' hl' => h l' (List.mem_cons_of_mem _ hl')
      cases ls with
      | nil => exact lines_single hl hne
      | cons l' ls => rw [join_cons, lines_cons hl, hrest]

omit [DecidableEq α] in
theorem mem_join {b : α} {ls : List (List α)} (hb : b ≠ c) : b ∈ join c ls ↔ ∃ l ∈ ls, b ∈ l := by
  induction ls with
  | nil => simp [join]
  | cons l ls ih =>
      cases ls with
      | nil => simp [join]
      | cons l' ls =>
          rw [join_cons, List.mem_append, List.mem_cons, ih]
          simp [hb]

omit [DecidableEq α] in
/-- The delimiter occurs in the text of two or more lines. -/
theorem delimiter_mem_join {ls : List (List α)} (h : ∀ l ∈ ls, c ∉ l) : c ∈ join c ls ↔ 2 ≤ ls.length := by
  match ls with
  | [] => simp [join]
  | [l] => simpa [join] using h l List.mem_cons_self
  | l :: l' :: ls => simp [join_cons]

/-! ## Trimming -/

omit [DecidableEq α] in
/-- What is trimmed at the end goes; what stands before it is trimmed on. -/
theorem rdropWhile_append {p : α → Bool} (l : List α) (hr : ∀ b ∈ r, p b = true) :
    (l ++ r).rdropWhile p = l.rdropWhile p := by
  unfold List.rdropWhile
  rw [List.reverse_append, List.dropWhile_append_of_pos (by simpa using hr)]

omit [DecidableEq α] in
/-- A text that ends in nothing to trim. -/
theorem rdropWhile_eq_self {p : α → Bool} (hne : s ≠ []) (h : ∀ b, s.getLast? = some b → p b = false)
    (l : List α) : (l ++ s).rdropWhile p = l ++ s := by
  rw [List.rdropWhile_eq_self_iff]
  intro hl
  have hlast := h ((l ++ s).getLast hl)
    (by rw [List.getLast_append_of_ne_nil _ hne, List.getLast?_eq_some_getLast hne])
  simp [hlast]

end Delimited
