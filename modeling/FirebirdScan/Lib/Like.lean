import FirebirdScan.Lib.PadSpace
import Mathlib.Data.List.Infix

/-!
# `Lib.Like` — `LIKE` patterns, with and without an escape character

A pattern is a list of items: any string, any one character, or a literal. The same characters are a
different list of items with an escape character (`escaped`, which fails when the escape character stands
before a character it cannot escape) and without one (`plain`).

- `escaped_agrees_iff`: the two readings accept the same strings exactly when the escape character does not
  occur in the pattern. Every string that `plain` accepts has all the pattern's literals (`literals_sublist`);
  `sample` is a shortest string that a reading accepts.
- `plain_rtrim_iff`: trimming a string's trailing blanks never changes the answer exactly when the pattern is
  `Open`, that is, ends in the any-string wildcard after a character that is not a blank.
-/

namespace Like

variable {α : Type}

/-- The characters that are not literals: the two wildcards and the escape character. -/
structure Wildcards (α : Type) where
  any : α
  one : α
  escape : α
  one_ne_any : one ≠ any
  escape_ne_any : escape ≠ any
  escape_ne_one : escape ≠ one

inductive Item (α : Type) where
  | any
  | one
  | lit (c : α)
deriving DecidableEq

/-- Does the whole string match? -/
def accepts [DecidableEq α] : List (Item α) → List α → Bool
  | [], s => s.isEmpty
  | .any :: p, s => s.tails.any (accepts p)
  | .one :: _, [] => false
  | .one :: p, _ :: s => accepts p s
  | .lit _ :: _, [] => false
  | .lit c :: p, d :: s => d = c && accepts p s

section Patterns

variable [DecidableEq α] (w : Wildcards α)

/-- A character that is not escaped. -/
def Wildcards.item (c : α) : Item α := if c = w.any then .any else if c = w.one then .one else .lit c

/-- The pattern without an escape character. -/
def Wildcards.plain (p : List α) : List (Item α) := p.map w.item

/-- The pattern with the escape character, which has to be followed by a wildcard or by itself. -/
def Wildcards.escaped : List α → Option (List (Item α))
  | [] => some []
  | [c] => if c = w.escape then none else some [w.item c]
  | c :: d :: p =>
      if c = w.escape then
        if d = w.any ∨ d = w.one ∨ d = w.escape then (Wildcards.escaped p).map (.lit d :: ·) else none
      else (Wildcards.escaped (d :: p)).map (w.item c :: ·)

/-- The pattern ends in the any-string wildcard, and the last character before its trailing wildcards of that
    kind is neither the one-character wildcard nor a blank. -/
def Wildcards.Open (blank : α) (p : List α) : Prop :=
  p.getLast? = some w.any ∧
    ∃ c ∈ (p.rdropWhile (· = w.any)).getLast?, c ≠ w.one ∧ c ≠ blank

instance (blank : α) (p : List α) : Decidable (w.Open blank p) := inferInstanceAs (Decidable (_ ∧ _))

end Patterns

/-! ## What a match consists of -/

/-- The literals of a pattern. -/
def literals : List (Item α) → List α
  | [] => []
  | .lit c :: p => c :: literals p
  | _ :: p => literals p

/-- A shortest string the items accept, with `x` for every one-character wildcard. -/
def sample (x : α) : List (Item α) → List α
  | [] => []
  | .any :: p => sample x p
  | .one :: p => x :: sample x p
  | .lit c :: p => c :: sample x p

/-- How many characters a match has at least. -/
def minLength : List (Item α) → Nat
  | [] => 0
  | .any :: p => minLength p
  | _ :: p => minLength p + 1

@[simp] theorem literals_nil : literals ([] : List (Item α)) = [] := rfl
@[simp] theorem literals_any (p : List (Item α)) : literals (.any :: p) = literals p := rfl
@[simp] theorem literals_one (p : List (Item α)) : literals (.one :: p) = literals p := rfl
@[simp] theorem literals_lit (c : α) (p : List (Item α)) : literals (.lit c :: p) = c :: literals p := rfl

@[simp] theorem sample_any (x : α) (p : List (Item α)) : sample x (.any :: p) = sample x p := rfl
@[simp] theorem sample_one (x : α) (p : List (Item α)) : sample x (.one :: p) = x :: sample x p := rfl
@[simp] theorem sample_lit (x c : α) (p : List (Item α)) : sample x (.lit c :: p) = c :: sample x p := rfl

@[simp] theorem minLength_any (p : List (Item α)) : minLength (.any :: p) = minLength p := rfl
@[simp] theorem minLength_one (p : List (Item α)) : minLength (.one :: p) = minLength p + 1 := rfl
@[simp] theorem minLength_lit (c : α) (p : List (Item α)) : minLength (.lit c :: p) = minLength p + 1 := rfl

theorem sample_append (x : α) (p q : List (Item α)) : sample x (p ++ q) = sample x p ++ sample x q := by
  induction p with
  | nil => rfl
  | cons i p ih => cases i <;> simp [ih]

theorem literals_append (p q : List (Item α)) : literals (p ++ q) = literals p ++ literals q := by
  induction p with
  | nil => rfl
  | cons i p ih => cases i <;> simp [ih]

theorem length_sample (x : α) (p : List (Item α)) : (sample x p).length = minLength p := by
  induction p with
  | nil => rfl
  | cons i p ih => cases i <;> simp [ih]

section Accepts

variable [DecidableEq α]

@[simp] theorem accepts_nil (s : List α) : accepts ([] : List (Item α)) s = s.isEmpty := rfl
@[simp] theorem accepts_one_nil (p : List (Item α)) : accepts (.one :: p) [] = false := rfl
@[simp] theorem accepts_one_char (p : List (Item α)) (d : α) (s : List α) :
    accepts (.one :: p) (d :: s) = accepts p s := rfl
@[simp] theorem accepts_lit_nil (c : α) (p : List (Item α)) : accepts (.lit c :: p) [] = false := rfl
@[simp] theorem accepts_lit_char (c : α) (p : List (Item α)) (d : α) (s : List α) :
    accepts (.lit c :: p) (d :: s) = (decide (d = c) && accepts p s) := rfl

theorem accepts_any_cons {p : List (Item α)} {s : List α} :
    accepts (.any :: p) s = true ↔ ∃ u v, s = u ++ v ∧ accepts p v = true := by
  show s.tails.any (accepts p) = true ↔ _
  rw [List.any_eq_true]
  simp only [List.mem_tails]
  constructor
  · rintro ⟨v, ⟨u, rfl⟩, h⟩
    exact ⟨u, v, rfl, h⟩
  · rintro ⟨u, v, rfl, h⟩
    exact ⟨v, ⟨u, rfl⟩, h⟩

theorem accepts_one_cons {p : List (Item α)} {s : List α} :
    accepts (.one :: p) s = true ↔ ∃ d v, s = d :: v ∧ accepts p v = true := by
  cases s with
  | nil => simp
  | cons d v => simp

theorem accepts_lit_cons {c : α} {p : List (Item α)} {s : List α} :
    accepts (.lit c :: p) s = true ↔ ∃ v, s = c :: v ∧ accepts p v = true := by
  cases s with
  | nil => simp
  | cons d v => simp

theorem accepts_sample (x : α) (p : List (Item α)) : accepts p (sample x p) = true := by
  induction p with
  | nil => rfl
  | cons i p ih =>
      cases i with
      | any => exact accepts_any_cons.mpr ⟨[], _, rfl, ih⟩
      | one => exact accepts_one_cons.mpr ⟨x, _, rfl, ih⟩
      | lit c => exact accepts_lit_cons.mpr ⟨_, rfl, ih⟩

/-- **A match has all the literals**, in their order. -/
theorem literals_sublist {p : List (Item α)} {s : List α} (h : accepts p s = true) :
    (literals p).Sublist s := by
  induction p generalizing s with
  | nil => exact List.nil_sublist _
  | cons i p ih =>
      cases i with
      | any =>
          obtain ⟨u, v, rfl, hv⟩ := accepts_any_cons.mp h
          exact (ih hv).trans (List.sublist_append_right u v)
      | one =>
          obtain ⟨d, v, rfl, hv⟩ := accepts_one_cons.mp h
          exact (ih hv).trans (List.sublist_cons_self d v)
      | lit c =>
          obtain ⟨v, rfl, hv⟩ := accepts_lit_cons.mp h
          exact (ih hv).cons_cons c

/-- A match is no shorter than the sample. -/
theorem minLength_le {p : List (Item α)} {s : List α} (h : accepts p s = true) : minLength p ≤ s.length := by
  induction p generalizing s with
  | nil => exact Nat.zero_le _
  | cons i p ih =>
      cases i with
      | any =>
          obtain ⟨u, v, rfl, hv⟩ := accepts_any_cons.mp h
          have hle := ih hv
          rw [List.length_append, minLength_any]
          exact Nat.le_trans hle (Nat.le_add_left _ _)
      | one =>
          obtain ⟨d, v, rfl, hv⟩ := accepts_one_cons.mp h
          exact Nat.succ_le_succ (ih hv)
      | lit c =>
          obtain ⟨v, rfl, hv⟩ := accepts_lit_cons.mp h
          exact Nat.succ_le_succ (ih hv)

/-- A match of two patterns in a row. -/
theorem accepts_append {p q : List (Item α)} {s : List α} :
    accepts (p ++ q) s = true ↔ ∃ u v, s = u ++ v ∧ accepts p u = true ∧ accepts q v = true := by
  induction p generalizing s with
  | nil => simp
  | cons i p ih =>
      cases i with
      | any =>
          rw [List.cons_append, accepts_any_cons]
          constructor
          · rintro ⟨u, v, rfl, h⟩
            obtain ⟨v₁, v₂, rfl, h₁, h₂⟩ := ih.mp h
            exact ⟨u ++ v₁, v₂, by rw [List.append_assoc], accepts_any_cons.mpr ⟨u, v₁, rfl, h₁⟩, h₂⟩
          · rintro ⟨u, v, rfl, hu, hv⟩
            obtain ⟨u₁, u₂, rfl, hu₂⟩ := accepts_any_cons.mp hu
            exact ⟨u₁, u₂ ++ v, by rw [List.append_assoc], ih.mpr ⟨u₂, v, rfl, hu₂, hv⟩⟩
      | one =>
          rw [List.cons_append, accepts_one_cons]
          constructor
          · rintro ⟨d, t, rfl, h⟩
            obtain ⟨u, v, rfl, hu, hv⟩ := ih.mp h
            exact ⟨d :: u, v, rfl, accepts_one_cons.mpr ⟨d, u, rfl, hu⟩, hv⟩
          · rintro ⟨u, v, rfl, hu, hv⟩
            obtain ⟨d, t, rfl, ht⟩ := accepts_one_cons.mp hu
            exact ⟨d, t ++ v, rfl, ih.mpr ⟨t, v, rfl, ht, hv⟩⟩
      | lit c =>
          rw [List.cons_append, accepts_lit_cons]
          constructor
          · rintro ⟨t, rfl, h⟩
            obtain ⟨u, v, rfl, hu, hv⟩ := ih.mp h
            exact ⟨c :: u, v, rfl, accepts_lit_cons.mpr ⟨u, rfl, hu⟩, hv⟩
          · rintro ⟨u, v, rfl, hu, hv⟩
            obtain ⟨t, rfl, ht⟩ := accepts_lit_cons.mp hu
            exact ⟨t ++ v, rfl, ih.mpr ⟨t, v, rfl, ht, hv⟩⟩

/-- A literal accepts just itself. -/
theorem accepts_lit {c : α} {s : List α} : accepts [.lit c] s = true ↔ s = [c] := by
  cases s with
  | nil => simp
  | cons d s => cases s <;> simp

theorem accepts_replicate_any (k : Nat) (s : List α) :
    accepts (List.replicate (k + 1) (.any : Item α)) s = true := by
  induction k with
  | zero => exact accepts_any_cons.mpr ⟨s, [], by simp, rfl⟩
  | succ k ih => exact accepts_any_cons.mpr ⟨[], s, rfl, ih⟩

end Accepts

/-! ## The escape character -/

section Escape

variable [DecidableEq α] {w : Wildcards α}

theorem item_eq_lit {c : α} (hany : c ≠ w.any) (hone : c ≠ w.one) : w.item c = .lit c := by
  rw [Wildcards.item, if_neg hany, if_neg hone]

theorem literals_cons_item (c : α) (p : List (Item α)) :
    (literals (w.item c :: p)).count w.escape = (literals p).count w.escape + if c = w.escape then 1 else 0 := by
  by_cases hany : c = w.any
  · have hne : w.any ≠ w.escape := Ne.symm w.escape_ne_any
    simp [Wildcards.item, hany, hne]
  · by_cases hone : c = w.one
    · have hne : w.one ≠ w.escape := Ne.symm w.escape_ne_one
      simp [Wildcards.item, hone, w.one_ne_any, hne]
    · rw [item_eq_lit hany hone, literals_lit, List.count_cons]
      simp

/-- Without an escape character, every escape character is a literal. -/
theorem count_literals_plain (p : List α) : (literals (w.plain p)).count w.escape = p.count w.escape := by
  induction p with
  | nil => rfl
  | cons c p ih =>
      rw [Wildcards.plain, List.map_cons, literals_cons_item, List.count_cons]
      have htail : (literals (p.map w.item)).count w.escape = p.count w.escape := ih
      simp [htail]

theorem escaped_single (c : α) : w.escaped [c] = if c = w.escape then none else some [w.item c] := rfl

theorem escaped_cons (c d : α) (p : List α) : w.escaped (c :: d :: p) =
    if c = w.escape then
      if d = w.any ∨ d = w.one ∨ d = w.escape then (w.escaped p).map (.lit d :: ·) else none
    else (w.escaped (d :: p)).map (w.item c :: ·) := rfl

/-- A pattern without escape characters reads alike both ways. -/
theorem escaped_eq_plain {p : List α} (h : w.escape ∉ p) : w.escaped p = some (w.plain p) := by
  induction p with
  | nil => rfl
  | cons c p ih =>
      have hc : c ≠ w.escape := fun he => h (by simp [he])
      have htail := ih fun hm => h (by simp [hm])
      cases p with
      | nil => simp [escaped_single, Wildcards.plain, hc]
      | cons d p => simp [escaped_cons, hc, htail, Wildcards.plain]

/-- Reading the escapes takes at least one escape character off the literals for each escape. -/
theorem count_literals_escaped {p : List α} {items : List (Item α)} (h : w.escaped p = some items) :
    (literals items).count w.escape ≤ p.count w.escape ∧
      (w.escape ∈ p → (literals items).count w.escape < p.count w.escape) := by
  induction p using Wildcards.escaped.induct w generalizing items with
  | case1 =>
      obtain rfl := Option.some.inj h
      simp
  | case2 => simp [escaped_single] at h
  | case3 c hc =>
      rw [escaped_single, if_neg hc] at h
      obtain rfl := Option.some.inj h
      rw [literals_cons_item]
      simp [hc, Ne.symm hc]
  | case4 d p hd ih =>
      rw [escaped_cons, if_pos rfl, if_pos hd] at h
      obtain ⟨rest, hrest, rfl⟩ := Option.map_eq_some_iff.mp h
      have hle := (ih hrest).1
      simp only [literals_lit, List.count_cons, BEq.rfl, if_true]
      omega
  | case5 d p hd => simp [escaped_cons, hd] at h
  | case6 c d p hc ih =>
      rw [escaped_cons, if_neg hc] at h
      obtain ⟨rest, hrest, rfl⟩ := Option.map_eq_some_iff.mp h
      obtain ⟨hle, hlt⟩ := ih hrest
      rw [literals_cons_item, List.count_cons (a := w.escape) (b := c)]
      simp only [hc, if_false, beq_iff_eq, Nat.add_zero]
      refine ⟨hle, fun hm => hlt ?_⟩
      simpa [Ne.symm hc] using hm

theorem count_sample {x e : α} (hx : x ≠ e) (p : List (Item α)) : (sample x p).count e = (literals p).count e := by
  induction p with
  | nil => rfl
  | cons i p ih => cases i <;> simp [List.count_cons, ih, hx]

/-- A string with no more escape characters than the escaped pattern's literals has too few of them to match without
    the escape character. -/
theorem not_plain_of_count {p : List α} {items : List (Item α)} (h : w.escaped p = some items)
    (hmem : w.escape ∈ p) {s : List α} (hs : s.count w.escape ≤ (literals items).count w.escape) :
    accepts (w.plain p) s = false := by
  by_contra hacc
  have hsub : (literals (w.plain p)).Sublist s := literals_sublist (by simpa using hacc)
  have hcount := (hsub.count_le w.escape).trans hs
  rw [count_literals_plain] at hcount
  exact absurd ((count_literals_escaped h).2 hmem) (Nat.not_lt.mpr hcount)

/-- The string that shows the difference, and whatever is left of it when characters are taken off. -/
theorem sample_escaped_not_plain {p : List α} {items : List (Item α)} (h : w.escaped p = some items)
    (hmem : w.escape ∈ p) {s : List α} (hs : s.Sublist (sample w.any items)) :
    accepts (w.plain p) s = false := by
  have hcount := hs.count_le w.escape
  rw [count_sample (Ne.symm w.escape_ne_any)] at hcount
  exact not_plain_of_count h hmem hcount

/-- **Both readings are defined and accept the same strings exactly when there is nothing to escape.** -/
theorem escaped_agrees_iff (p : List α) :
    (∀ s, (w.escaped p).map (fun items => accepts items s) = some (accepts (w.plain p) s)) ↔
      w.escape ∉ p := by
  constructor
  · intro h hmem
    cases hitems : w.escaped p with
    -- an escape that is not one is an error on every string
    | none => simpa [hitems] using h []
    | some items =>
        have hs := h (sample w.any items)
        rw [hitems, sample_escaped_not_plain hitems hmem (List.Sublist.refl _)] at hs
        simp [accepts_sample] at hs
  · intro h s
    rw [escaped_eq_plain h]
    rfl

end Escape

/-! ## Trailing blanks -/

section Trim

variable [DecidableEq α] {w : Wildcards α} {blank : α}

/-- A pattern with a character other than the any-string wildcard ends in one, and wildcards. -/
theorem exists_last {p : List α} (h : ∃ c ∈ p, c ≠ w.any) :
    ∃ r c k, c ≠ w.any ∧ p = r ++ c :: List.replicate k w.any ∧ p.rdropWhile (· = w.any) = r ++ [c] := by
  induction p using List.reverseRecOn with
  | nil => simp at h
  | append_singleton p d ih =>
      by_cases hd : d = w.any
      · subst hd
        have hp : ∃ c ∈ p, c ≠ w.any := by simpa using h
        obtain ⟨r, c, k, hc, rfl, hdrop⟩ := ih hp
        refine ⟨r, c, k + 1, hc, ?_, ?_⟩
        · rw [List.replicate_succ']
          simp
        · rw [List.rdropWhile_concat_pos _ _ _ (by simp), hdrop]
      · exact ⟨p, d, 0, hd, by simp, List.rdropWhile_concat_neg _ _ _ (by simpa using hd)⟩

theorem plain_append (p q : List α) : w.plain (p ++ q) = w.plain p ++ w.plain q := List.map_append

theorem plain_replicate_any (k : Nat) : w.plain (List.replicate k w.any) = List.replicate k .any := by
  simp [Wildcards.plain, Wildcards.item]

omit [DecidableEq α] in
theorem sample_replicate_any (x : α) (k : Nat) : sample x (List.replicate k (.any : Item α)) = [] := by
  induction k with
  | zero => rfl
  | succ k ih => simpa [List.replicate_succ] using ih

theorem rtrim_append_char {c : α} (hc : c ≠ blank) (u v : List α) :
    PadSpace.rtrim blank (u ++ c :: v) = u ++ c :: PadSpace.rtrim blank v := by
  induction v using List.reverseRecOn with
  | nil =>
      have hlast := List.rdropWhile_concat_neg (· = blank) u c (by simpa using hc)
      simpa [PadSpace.rtrim] using hlast
  | append_singleton v d ih =>
      rw [← List.cons_append, ← List.append_assoc]
      unfold PadSpace.rtrim at ih ⊢
      by_cases hd : d = blank
      · rw [List.rdropWhile_concat_pos _ _ _ (by simpa using hd), ih,
          List.rdropWhile_concat_pos _ _ _ (by simpa using hd)]
      · rw [List.rdropWhile_concat_neg _ _ _ (by simpa using hd),
          List.rdropWhile_concat_neg _ _ _ (by simpa using hd)]
        simp

/-- An open pattern accepts a string with and without its trailing blanks. -/
theorem accepts_open {r : List α} {c : α} (hany : c ≠ w.any) (hone : c ≠ w.one) (hblank : c ≠ blank)
    (k : Nat) (s : List α) :
    accepts (w.plain (r ++ c :: List.replicate (k + 1) w.any)) s =
      accepts (w.plain (r ++ c :: List.replicate (k + 1) w.any)) (PadSpace.rtrim blank s) := by
  have hitems : w.plain (r ++ c :: List.replicate (k + 1) w.any) =
      w.plain r ++ ([.lit c] ++ List.replicate (k + 1) .any) := by
    rw [plain_append, ← plain_replicate_any (w := w), Wildcards.plain, Wildcards.plain, List.map_cons,
      item_eq_lit hany hone]
    rfl
  have hsplit : ∀ t, accepts (w.plain r ++ ([.lit c] ++ List.replicate (k + 1) .any)) t = true ↔
      ∃ u v, t = u ++ c :: v ∧ accepts (w.plain r) u = true := by
    intro t
    rw [accepts_append]
    constructor
    · rintro ⟨u, v, rfl, hu, hv⟩
      obtain ⟨v₁, v₂, rfl, hv₁, -⟩ := accepts_append.mp hv
      obtain rfl := accepts_lit.mp hv₁
      exact ⟨u, v₂, rfl, hu⟩
    · rintro ⟨u, v, rfl, hu⟩
      exact ⟨u, c :: v, rfl, hu,
        accepts_append.mpr ⟨[c], v, rfl, accepts_lit.mpr rfl, accepts_replicate_any k v⟩⟩
  rw [Bool.eq_iff_iff, hitems, hsplit, hsplit]
  constructor
  · rintro ⟨u, v, rfl, hu⟩
    exact ⟨u, PadSpace.rtrim blank v, rtrim_append_char hblank u v, hu⟩
  · rintro ⟨u, v, huv, hu⟩
    obtain ⟨j, hj⟩ := PadSpace.eq_rtrim_append blank s
    exact ⟨u, v ++ List.replicate j blank, by rw [hj, huv]; simp, hu⟩

/-- The sample of a pattern ends in the character of its last item. -/
theorem sample_last (x : α) (r : List α) {c : α} (hany : c ≠ w.any) (k : Nat) :
    sample x (w.plain (r ++ c :: List.replicate k w.any)) =
      sample x (w.plain r) ++ [if c = w.one then x else c] := by
  rw [plain_append, sample_append, Wildcards.plain, Wildcards.plain, List.map_cons]
  congr 1
  have hnil : sample x ((List.replicate k w.any).map w.item) = [] := by
    have hreplicate := plain_replicate_any (w := w) k
    rw [Wildcards.plain] at hreplicate
    rw [hreplicate, sample_replicate_any]
  by_cases hone : c = w.one
  · rw [if_pos hone, Wildcards.item, if_neg hany, if_pos hone, sample_one, hnil]
  · rw [if_neg hone, item_eq_lit hany hone, sample_lit, hnil]

theorem rtrim_blank_length (blank : α) (s : List α) :
    (PadSpace.rtrim blank (s ++ [blank])).length ≤ s.length := by
  have hdrop : PadSpace.rtrim blank (s ++ [blank]) = PadSpace.rtrim blank s :=
    List.rdropWhile_concat_pos _ _ _ (by simp)
  rw [hdrop]
  exact (List.rdropWhile_prefix _ s).length_le

/-- A pattern whose last character takes a blank: there is a match that ends in one, and is too short without it. -/
theorem not_rtrim_of_ends {r : List α} {c : α} (hany : c ≠ w.any) (k : Nat) (hends : c = w.one ∨ c = blank) :
    ¬∀ s, accepts (w.plain (r ++ c :: List.replicate k w.any)) s =
      accepts (w.plain (r ++ c :: List.replicate k w.any)) (PadSpace.rtrim blank s) := by
  intro h
  have hlast := sample_last blank r hany k
  have hblank : (if c = w.one then blank else c) = blank := by
    split_ifs with hone
    · rfl
    · exact hends.resolve_left hone
  rw [hblank] at hlast
  have hs := h (sample blank (w.plain (r ++ c :: List.replicate k w.any)))
  rw [accepts_sample] at hs
  have hle := minLength_le hs.symm
  rw [← length_sample blank, hlast] at hle
  have hshort := rtrim_blank_length blank (sample blank (w.plain r))
  rw [List.length_append, List.length_singleton] at hle
  omega

/-- A closed pattern: there is a match that is none with a blank after it. -/
theorem not_rtrim_of_closed {r : List α} {c : α} (hany : c ≠ w.any) (hone : c ≠ w.one) (hblank : c ≠ blank) :
    ¬∀ s, accepts (w.plain (r ++ [c])) s = accepts (w.plain (r ++ [c])) (PadSpace.rtrim blank s) := by
  intro h
  have hlast := sample_last blank r hany 0
  rw [if_neg hone, List.replicate_zero] at hlast
  have htrim : PadSpace.rtrim blank ((sample blank (w.plain r) ++ [c]) ++ [blank]) =
      sample blank (w.plain r) ++ [c] := by
    have hchar := rtrim_append_char hblank (sample blank (w.plain r)) [blank]
    rw [List.append_assoc, List.singleton_append, hchar]
    simp [PadSpace.rtrim, List.rdropWhile]
  have hs := h ((sample blank (w.plain r) ++ [c]) ++ [blank])
  rw [htrim, ← hlast, accepts_sample, plain_append] at hs
  obtain ⟨u, v, huv, -, hv⟩ := accepts_append.mp hs
  rw [Wildcards.plain, List.map_singleton, item_eq_lit hany hone] at hv
  obtain rfl := accepts_lit.mp hv
  have heq := (List.append_inj' huv rfl).2
  exact hblank (List.cons.inj heq).1.symm

omit [DecidableEq α] in
/-- The last character of a pattern that ends in wildcards. -/
theorem getLast?_any (r : List α) (c : α) (k : Nat) :
    (r ++ c :: List.replicate k w.any).getLast? = some (if k = 0 then c else w.any) := by
  cases k with
  | zero => exact List.getLast?_concat
  | succ k => rw [List.replicate_succ', ← List.cons_append, ← List.append_assoc, List.getLast?_concat,
      if_neg (Nat.succ_ne_zero k)]

theorem open_iff {r : List α} {c : α} (hany : c ≠ w.any) (k : Nat)
    (hdrop : (r ++ c :: List.replicate k w.any).rdropWhile (· = w.any) = r ++ [c]) :
    w.Open blank (r ++ c :: List.replicate k w.any) ↔ 0 < k ∧ c ≠ w.one ∧ c ≠ blank := by
  rw [Wildcards.Open, hdrop, getLast?_any, List.getLast?_concat]
  cases k with
  | zero => simp [hany]
  | succ k => simp

/-- **When trailing blanks do not matter**: exactly for the open patterns. -/
theorem plain_rtrim_iff {p : List α} (hp : ∃ c ∈ p, c ≠ w.any) :
    (∀ s, accepts (w.plain p) s = accepts (w.plain p) (PadSpace.rtrim blank s)) ↔ w.Open blank p := by
  obtain ⟨r, c, k, hany, rfl, hdrop⟩ := exists_last hp
  rw [open_iff hany k hdrop]
  constructor
  · intro h
    by_contra hnot
    by_cases hends : c = w.one ∨ c = blank
    · exact not_rtrim_of_ends hany k hends h
    · obtain ⟨hone, hblank⟩ := not_or.mp hends
      have hk : k = 0 := by
        by_contra hk
        exact hnot ⟨Nat.pos_of_ne_zero hk, hone, hblank⟩
      subst hk
      exact not_rtrim_of_closed hany hone hblank h
  · rintro ⟨hk, hone, hblank⟩ s
    obtain ⟨k, rfl⟩ : ∃ m, k = m + 1 := ⟨k - 1, by omega⟩
    exact accepts_open hany hone hblank k s

/-- **With the escape character, on a string with its trailing blanks; without either**: the same answer
    exactly when there is nothing to escape and the pattern is open. -/
theorem escaped_rtrim_agrees_iff {p : List α} (hp : ∃ c ∈ p, c ≠ w.any) :
    (∀ s, (w.escaped p).map (fun items => accepts items s) =
      some (accepts (w.plain p) (PadSpace.rtrim blank s))) ↔ w.escape ∉ p ∧ w.Open blank p := by
  rw [← plain_rtrim_iff hp]
  constructor
  · intro h
    have hesc : w.escape ∉ p := by
      intro hmem
      cases hitems : w.escaped p with
      | none => simpa [hitems] using h []
      | some items =>
          have hs := h (sample w.any items)
          have hsub : (PadSpace.rtrim blank (sample w.any items)).Sublist (sample w.any items) :=
            (List.rdropWhile_prefix _ _).sublist
          rw [hitems, sample_escaped_not_plain hitems hmem hsub] at hs
          simp [accepts_sample] at hs
    refine ⟨hesc, fun s => ?_⟩
    have hs := h s
    rw [escaped_eq_plain hesc] at hs
    exact Option.some.inj hs
  · rintro ⟨hesc, h⟩ s
    rw [escaped_eq_plain hesc, ← h s]
    rfl

end Trim

end Like
