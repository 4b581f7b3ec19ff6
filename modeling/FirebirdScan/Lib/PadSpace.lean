import FirebirdScan.Lib.SearchCondition
import Mathlib.Data.List.DropRight
import Mathlib.Order.Defs.LinearOrder

/-!
# `Lib.PadSpace` — comparing strings as if the shorter were padded with blanks

`order` is the lexicographic order, in which a proper prefix comes first; `padOrder` pads the shorter string
with blanks before it compares (SQL's PAD SPACE). The two differ only if one string is a proper prefix of the
other, and then the rest of the longer one decides: `BlankTail` when it is all blanks, `ControlTail` when
its first other character is below the blank.

`decides_padOrder_iff` says for each comparison operator when the difference shows, `decides_cut_iff` when it
does if one string was cut as well.
-/

namespace PadSpace

open SearchCondition

variable {α : Type} [LT α] [DecidableLT α] [DecidableEq α]

/-! ## The two orders -/

/-- The lexicographic order. -/
def order : List α → List α → Ordering
  | [], [] => .eq
  | [], _ :: _ => .lt
  | _ :: _, [] => .gt
  | x :: a, y :: b => if x < y then .lt else if x = y then order a b else .gt

/-- The string with blanks up to length `n`. -/
def pad (blank : α) (n : Nat) (s : List α) : List α := s ++ List.replicate (n - s.length) blank

/-- The order under PAD SPACE. -/
def padOrder (blank : α) (a b : List α) : Ordering :=
  order (pad blank (max a.length b.length) a) (pad blank (max a.length b.length) b)

/-- The string without its trailing blanks. -/
def rtrim (blank : α) (s : List α) : List α := s.rdropWhile (· = blank)

/-! ## Lexicographic order -/

section Order

theorem order_nil_left {b : List α} (hb : b ≠ []) : order [] b = .lt := by
  cases b with
  | nil => exact absurd rfl hb
  | cons y b => rfl

variable [Std.Asymm (fun a b : α => a < b)]

omit [DecidableLT α] [DecidableEq α] in
theorem not_lt_self (x : α) : ¬x < x := fun h => Std.Asymm.asymm (r := fun a b : α => a < b) x x h h

@[simp] theorem order_cons_self (x : α) (a b : List α) : order (x :: a) (x :: b) = order a b := by
  rw [order, if_neg (not_lt_self x), if_pos rfl]

/-- A common prefix does not matter. -/
@[simp] theorem order_append_left (p a b : List α) : order (p ++ a) (p ++ b) = order a b := by
  induction p with
  | nil => rfl
  | cons x p ih => rw [List.cons_append, List.cons_append, order_cons_self, ih]

theorem order_self (a : List α) : order a a = .eq := by
  induction a with
  | nil => rfl
  | cons x a ih => rw [order_cons_self, ih]

omit [Std.Asymm (fun a b : α => a < b)] in
/-- After strings of one length, a common suffix does not matter. -/
theorem order_append_right {a b : List α} (hlen : a.length = b.length) {s : List α}
    (hs : order s s = .eq) : order (a ++ s) (b ++ s) = order a b := by
  induction a generalizing b with
  | nil =>
      obtain rfl := List.length_eq_zero_iff.mp hlen.symm
      exact hs
  | cons x a ih =>
      cases b with
      | nil => simp at hlen
      | cons y b =>
          have htail := ih (b := b) (by simpa using hlen)
          simp only [List.cons_append, order, htail]

theorem order_eq_iff {a b : List α} : order a b = .eq ↔ a = b := by
  constructor
  · intro h
    induction a generalizing b with
    | nil =>
        cases b with
        | nil => rfl
        | cons y b => cases h
    | cons x a ih =>
        cases b with
        | nil => cases h
        | cons y b =>
            rw [order] at h
            split_ifs at h with hlt heq
            rw [heq, ih h]
  · rintro rfl
    exact order_self a

variable [Std.Trichotomous (fun a b : α => a < b)]

omit [DecidableLT α] [DecidableEq α] [Std.Asymm (fun a b : α => a < b)] in
theorem lt_of_not {x y : α} (hlt : ¬x < y) (hne : x ≠ y) : y < x := by
  by_contra h
  exact hne (Std.Trichotomous.trichotomous (r := fun a b : α => a < b) x y hlt h)

theorem order_swap (a b : List α) : order b a = (order a b).swap := by
  induction a generalizing b with
  | nil => cases b <;> rfl
  | cons x a ih =>
      cases b with
      | nil => rfl
      | cons y b =>
          by_cases heq : x = y
          · subst heq
            rw [order_cons_self, order_cons_self, ih]
          · by_cases hlt : x < y
            · have hnot : ¬y < x := Std.Asymm.asymm (r := fun a b : α => a < b) x y hlt
              rw [order, order, if_pos hlt, if_neg hnot, if_neg (Ne.symm heq)]
              rfl
            · rw [order, order, if_neg hlt, if_neg heq, if_pos (lt_of_not hlt heq)]
              rfl

end Order

/-! ## Padding -/

omit [LT α] [DecidableLT α] [DecidableEq α] in
theorem length_pad {blank : α} {n : Nat} {s : List α} (h : s.length ≤ n) : (pad blank n s).length = n := by
  simp only [pad, List.length_append, List.length_replicate]
  omega

omit [LT α] [DecidableLT α] [DecidableEq α] in
theorem pad_append_replicate {blank : α} {n j : Nat} {s : List α} (h : s.length + j ≤ n) :
    pad blank n (s ++ List.replicate j blank) = pad blank n s := by
  rw [pad, pad, List.append_assoc, List.replicate_append_replicate]
  congr 2
  simp only [List.length_append, List.length_replicate]
  omega

omit [LT α] [DecidableLT α] [DecidableEq α] in
/-- Padding further appends blanks. -/
theorem pad_le {blank : α} {m n : Nat} {s : List α} (hs : s.length ≤ m) (hmn : m ≤ n) :
    pad blank n s = pad blank m s ++ List.replicate (n - m) blank := by
  rw [pad, pad, List.append_assoc, List.replicate_append_replicate]
  congr 2
  omega

section Pad

variable [Std.Asymm (fun a b : α => a < b)] {blank : α}

/-- Padding to any common length that fits both gives the same outcome. -/
theorem padOrder_eq {a b : List α} {n : Nat} (ha : a.length ≤ n) (hb : b.length ≤ n) :
    padOrder blank a b = order (pad blank n a) (pad blank n b) := by
  have hmax : max a.length b.length ≤ n := by omega
  rw [pad_le (m := max a.length b.length) (n := n) (by omega) hmax,
    pad_le (m := max a.length b.length) (n := n) (s := b) (by omega) hmax]
  exact (order_append_right (by rw [length_pad (by omega), length_pad (by omega)]) (order_self _)).symm

/-- Trailing blanks on the left do not matter. -/
theorem padOrder_append_replicate (a b : List α) (j : Nat) :
    padOrder blank (a ++ List.replicate j blank) b = padOrder blank a b := by
  have hlen : (a ++ List.replicate j blank).length = a.length + j := by simp
  rw [padOrder_eq (n := a.length + j + b.length) (by omega) (by omega),
    padOrder_eq (a := a) (n := a.length + j + b.length) (by omega) (by omega),
    pad_append_replicate (by omega)]

/-- Trailing blanks on the right do not matter. -/
theorem padOrder_append_replicate_right (a b : List α) (j : Nat) :
    padOrder blank a (b ++ List.replicate j blank) = padOrder blank a b := by
  have hlen : (b ++ List.replicate j blank).length = b.length + j := by simp
  rw [padOrder_eq (n := a.length + j + b.length) (by omega) (by omega),
    padOrder_eq (b := b) (n := a.length + j + b.length) (by omega) (by omega),
    pad_append_replicate (by omega)]

omit [LT α] [DecidableLT α] [Std.Asymm (fun a b : α => a < b)] in
/-- A string is its trimmed form and blanks. -/
theorem eq_rtrim_append (blank : α) (s : List α) : ∃ j, s = rtrim blank s ++ List.replicate j blank := by
  refine ⟨(s.rtakeWhile (· = blank)).length, ?_⟩
  have htail : s.rtakeWhile (· = blank) = List.replicate (s.rtakeWhile (· = blank)).length blank := by
    refine List.eq_replicate_iff.mpr ⟨rfl, fun x hx => ?_⟩
    simpa using List.mem_rtakeWhile_imp hx
  calc s = s.rdropWhile (· = blank) ++ s.rtakeWhile (· = blank) := List.rdropWhile_append_rtakeWhile.symm
    _ = _ := by rw [← htail, rtrim]

/-- Trimming does not matter. -/
theorem padOrder_rtrim (s b : List α) : padOrder blank (rtrim blank s) b = padOrder blank s b := by
  obtain ⟨j, hj⟩ := eq_rtrim_append blank s
  conv_rhs => rw [hj]
  exact (padOrder_append_replicate _ _ _).symm

end Pad

/-! ## Where the two orders differ -/

/-- `b` is `a` and at least one blank. -/
def BlankTail (blank : α) (a b : List α) : Prop :=
  a <+: b ∧ a ≠ b ∧ ∀ x ∈ b.drop a.length, x = blank

/-- `b` is `a`, any number of blanks, and then a character below the blank. -/
def ControlTail (blank : α) (a b : List α) : Prop :=
  a <+: b ∧ ∃ x ∈ ((b.drop a.length).dropWhile (· = blank)).head?, x < blank

instance (blank : α) (a b : List α) : Decidable (BlankTail blank a b) :=
  inferInstanceAs (Decidable (_ ∧ _))

instance (blank : α) (a b : List α) : Decidable (ControlTail blank a b) :=
  inferInstanceAs (Decidable (_ ∧ _))

/-- The operator decides `a` and `b` differently under PAD SPACE. -/
def Differs (blank : α) (op : CompareOp) (a b : List α) : Prop :=
  match op with
  | .eq | .ne => BlankTail blank a b ∨ BlankTail blank b a
  | .lt | .ge => BlankTail blank a b ∨ ControlTail blank a b ∨ ControlTail blank b a
  | .gt | .le => BlankTail blank b a ∨ ControlTail blank a b ∨ ControlTail blank b a

instance (blank : α) (op : CompareOp) (a b : List α) : Decidable (Differs blank op a b) := by
  unfold Differs
  cases op <;> infer_instance

section Differs

variable [Std.Asymm (fun a b : α => a < b)] [Std.Trichotomous (fun a b : α => a < b)] {blank : α}

/-- Blanks against a string of the same length: the first character that is not a blank decides. -/
theorem order_blanks (blank : α) (k : List α) :
    (order (List.replicate k.length blank) k = .eq ↔ ∀ x ∈ k, x = blank) ∧
    (order (List.replicate k.length blank) k = .gt ↔
      ∃ x ∈ (k.dropWhile (· = blank)).head?, x < blank) := by
  induction k with
  | nil => simp [order]
  | cons y k ih =>
      rw [List.length_cons, List.replicate_succ]
      by_cases hy : y = blank
      · subst hy
        simpa using ih
      · have hdrop : (y :: k).dropWhile (· = blank) = y :: k := by simp [hy]
        rw [hdrop, order]
        by_cases hlt : blank < y
        · have hnot : ¬y < blank := Std.Asymm.asymm (r := fun a b : α => a < b) blank y hlt
          simp [hlt, hy, hnot]
        · simp [hlt, Ne.symm hy, hy, lt_of_not hlt (Ne.symm hy)]

omit [Std.Trichotomous (fun a b : α => a < b)] in
/-- A proper prefix, padded, is compared with the rest of the longer string. -/
theorem padOrder_extended (a k : List α) :
    padOrder blank a (a ++ k) = order (List.replicate k.length blank) k := by
  have hlen : (a ++ k).length = a.length + k.length := List.length_append
  rw [padOrder_eq (n := a.length + k.length) (by omega) (by omega), pad, pad, List.append_assoc,
    order_append_left, hlen, Nat.sub_self, List.replicate_zero, List.append_nil, Nat.add_sub_cancel_left]

theorem padOrder_swap (a b : List α) : padOrder blank b a = (padOrder blank a b).swap := by
  rw [padOrder, padOrder, Nat.max_comm, order_swap]

/-- What the tails mean for the outcome, if `b` extends `a`. -/
theorem padOrder_extension (blank : α) {a k : List α} (hk : k ≠ []) :
    order a (a ++ k) = .lt ∧
    (padOrder blank a (a ++ k) = .eq ↔ BlankTail blank a (a ++ k)) ∧
    (padOrder blank a (a ++ k) = .gt ↔ ControlTail blank a (a ++ k)) ∧
    ¬BlankTail blank (a ++ k) a ∧ ¬ControlTail blank (a ++ k) a := by
  have hnot : ¬(a ++ k) <+: a := by
    intro h
    have hlen := h.length_le
    rw [List.length_append] at hlen
    exact hk (List.length_eq_zero_iff.mp (by omega))
  obtain ⟨heq, hgt⟩ := order_blanks blank k
  refine ⟨?_, ?_, ?_, fun h => hnot h.1, fun h => hnot h.1⟩
  · have h := order_append_left a [] k
    rw [List.append_nil] at h
    rw [h, order_nil_left hk]
  · rw [padOrder_extended, heq, BlankTail, List.drop_left]
    exact ⟨fun h => ⟨List.prefix_append _ _, by simpa using hk, h⟩, fun h => h.2.2⟩
  · rw [padOrder_extended, hgt, ControlTail, List.drop_left]
    exact ⟨fun h => ⟨List.prefix_append _ _, h⟩, fun h => h.2⟩

omit [LT α] [DecidableLT α] [DecidableEq α] [Std.Asymm (fun a b : α => a < b)]
  [Std.Trichotomous (fun a b : α => a < b)] in
/-- Two strings are equal, one extends the other, or they part at some character. -/
theorem extension_cases (a b : List α) :
    a = b ∨ (∃ k, k ≠ [] ∧ b = a ++ k) ∨ (∃ k, k ≠ [] ∧ a = b ++ k) ∨
      ∃ p x y a' b', x ≠ y ∧ a = p ++ x :: a' ∧ b = p ++ y :: b' := by
  induction a generalizing b with
  | nil =>
      cases b with
      | nil => exact .inl rfl
      | cons y b => exact .inr (.inl ⟨y :: b, by simp, rfl⟩)
  | cons x a ih =>
      cases b with
      | nil => exact .inr (.inr (.inl ⟨x :: a, by simp, rfl⟩))
      | cons y b =>
          by_cases hxy : x = y
          · subst hxy
            rcases ih b with rfl | ⟨k, hk, rfl⟩ | ⟨k, hk, rfl⟩ | ⟨p, u, v, a', b', huv, rfl, rfl⟩
            · exact .inl rfl
            · exact .inr (.inl ⟨k, hk, rfl⟩)
            · exact .inr (.inr (.inl ⟨k, hk, rfl⟩))
            · exact .inr (.inr (.inr ⟨x :: p, u, v, a', b', huv, rfl, rfl⟩))
          · exact .inr (.inr (.inr ⟨[], x, y, a, b, hxy, rfl, rfl⟩))

omit [Std.Trichotomous (fun a b : α => a < b)] in
/-- Strings that part compare alike, and neither is the other's tail. -/
theorem padOrder_parting (blank : α) (p : List α) {x y : α} (hxy : x ≠ y) (a b : List α) :
    padOrder blank (p ++ x :: a) (p ++ y :: b) = order (p ++ x :: a) (p ++ y :: b) ∧
    ¬(p ++ x :: a) <+: (p ++ y :: b) ∧ ¬(p ++ y :: b) <+: (p ++ x :: a) := by
  refine ⟨?_, fun h => ?_, fun h => ?_⟩
  · simp [padOrder, pad, order, hxy]
  · rw [List.prefix_append_right_inj, List.cons_prefix_cons] at h
    exact hxy h.1
  · rw [List.prefix_append_right_inj, List.cons_prefix_cons] at h
    exact hxy h.1.symm

/-- **When the padding decides.** An operator gives the same answer with and without padding, unless the
    longer string's tail makes the difference the operator sees. -/
theorem decides_padOrder_iff (op : CompareOp) (a b : List α) :
    op.decides (padOrder blank a b) = op.decides (order a b) ↔ ¬Differs blank op a b := by
  rcases extension_cases a b with rfl | ⟨k, hk, rfl⟩ | ⟨k, hk, rfl⟩ | ⟨p, x, y, a', b', hxy, rfl, rfl⟩
  -- equal, `b` longer, `a` longer, and parted: only the middle two are decided by the padding
  · have hno : ¬BlankTail blank a a := fun h => h.2.1 rfl
    have hno' : ¬ControlTail blank a a := by simp [ControlTail]
    have hpad : padOrder blank a a = .eq := order_self _
    rw [hpad, order_self]
    cases op <;> simp [Differs, hno, hno']
  · obtain ⟨hlt, heq, hgt, hno, hno'⟩ := padOrder_extension blank (a := a) hk
    rw [hlt]
    cases op <;> simp only [Differs, ← heq, ← hgt, hno, hno', or_false, false_or] <;>
      cases padOrder blank a (a ++ k) <;> decide
  · obtain ⟨hlt, heq, hgt, hno, hno'⟩ := padOrder_extension blank (a := b) hk
    rw [order_swap, hlt, padOrder_swap]
    cases op <;> simp only [Differs, ← heq, ← hgt, hno, hno', false_or] <;>
      cases padOrder blank b (b ++ k) <;> decide
  · obtain ⟨hpad, hno, hno'⟩ := padOrder_parting blank p hxy a' b'
    rw [hpad]
    have h1 : ∀ u v : List α, ¬u <+: v → ¬BlankTail blank u v ∧ ¬ControlTail blank u v :=
      fun u v h => ⟨fun ht => h ht.1, fun ht => h ht.1⟩
    cases op <;> simp [Differs, h1 _ _ hno, h1 _ _ hno']

/-- Under PAD SPACE, strings are equal if they are up to trailing blanks. -/
theorem padOrder_eq_iff (a b : List α) : padOrder blank a b = .eq ↔ rtrim blank a = rtrim blank b := by
  have hpad : ∀ (s : List α) (n : Nat), rtrim blank (pad blank n s) = rtrim blank s := by
    intro s n
    rw [pad, rtrim, rtrim]
    induction n - s.length with
    | zero => rw [List.replicate_zero, List.append_nil]
    | succ j ih =>
        rw [List.replicate_succ', ← List.append_assoc, List.rdropWhile_concat_pos _ _ _ (by simp), ih]
  constructor
  · intro h
    rw [padOrder, order_eq_iff] at h
    calc rtrim blank a = rtrim blank (pad blank (max a.length b.length) a) := (hpad a _).symm
      _ = rtrim blank b := by rw [h, hpad]
  · intro h
    rw [← padOrder_rtrim, padOrder_swap, ← padOrder_rtrim, ← h, padOrder, order_self]
    rfl

/-! ## A string that was cut -/

omit [Std.Trichotomous (fun a b : α => a < b)] in
/-- What follows a string matters only to the strings that extend it. -/
theorem order_append_of_not_prefix {a b : List α} (h : ¬b <+: a) (r : List α) :
    order a (b ++ r) = order a b := by
  rcases extension_cases a b with rfl | ⟨k, hk, rfl⟩ | ⟨k, -, rfl⟩ | ⟨p, x, y, a', b', hxy, rfl, rfl⟩
  · exact absurd (List.prefix_refl _) h
  · have hnil : k ++ r ≠ [] := by simp [hk]
    have hlong := order_append_left a [] (k ++ r)
    have hshort := order_append_left a [] k
    rw [List.append_nil, order_nil_left hnil] at hlong
    rw [List.append_nil, order_nil_left hk] at hshort
    rw [List.append_assoc, hlong, hshort]
  · exact absurd (List.prefix_append _ _) h
  · rw [List.append_assoc, List.cons_append, order_append_left, order_append_left, order, order,
      if_neg hxy, if_neg hxy]

/-- The operator decides `a` differently against `b`, padded, than against `b ++ rest`: if `a` extends `b`,
    because of what follows, and else because of the padding. -/
def CutDiffers (blank : α) (op : CompareOp) (a b rest : List α) : Prop :=
  if b <+: a ∧ rest ≠ [] then
    op.decides (order (a.drop b.length) (List.replicate (a.drop b.length).length blank)) ≠
      op.decides (order (a.drop b.length) rest)
  else Differs blank op a b

/-- **When cutting and padding decide.** -/
theorem decides_cut_iff (op : CompareOp) (a b rest : List α) :
    op.decides (padOrder blank a b) = op.decides (order a (b ++ rest)) ↔ ¬CutDiffers blank op a b rest := by
  unfold CutDiffers
  by_cases hprefix : b <+: a
  · obtain ⟨t, rfl⟩ := hprefix
    by_cases hrest : rest = []
    · rw [if_neg (fun h => h.2 hrest), hrest, List.append_nil]
      exact decides_padOrder_iff op _ _
    · have hpad : padOrder blank (b ++ t) b = order t (List.replicate t.length blank) := by
        rw [padOrder_swap, padOrder_extended, ← order_swap]
      rw [if_pos ⟨List.prefix_append _ _, hrest⟩, List.drop_left, hpad, order_append_left, not_not]
  · rw [if_neg (fun h => hprefix h.1), order_append_of_not_prefix hprefix]
    exact decides_padOrder_iff op _ _

end Differs

end PadSpace
