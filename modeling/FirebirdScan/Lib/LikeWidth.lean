import FirebirdScan.Lib.Like

/-!
# `Lib.LikeWidth` — `LIKE` on strings of a given length

A column holds strings of at most `n` characters, or of exactly `n`. A pattern that matches none of these makes no
difference, whatever else it contains: `Fills` says what lengths the matches of a pattern have, and `fitsTrimmed_iff`
when one has room for a match that does not end in a blank.

- `escaped_agrees_upTo_iff`: with and without the escape character, on strings of at most `n` characters.
- `escaped_rtrim_agrees_at_iff`: with the escape character on strings of `n` characters, and without it on what trimming
  leaves of them.
-/

namespace Like

variable {α : Type} [DecidableEq α]

/-- Some match has `n` characters. -/
def Fills (n : Nat) (p : List (Item α)) : Prop := minLength p = n ∨ minLength p < n ∧ .any ∈ p

instance (n : Nat) (p : List (Item α)) : Decidable (Fills n p) := inferInstanceAs (Decidable (_ ∨ _))

section Conditions

variable (w : Wildcards α) (blank : α) (n : Nat) (p : List α)

/-- Without an escape character, some match of at most `n` characters does not end in a blank. -/
def Wildcards.FitsTrimmed : Prop :=
  minLength (w.plain p) ≤ n ∧ (p.rdropWhile (· = w.any)).getLast? ≠ some blank ∨
    minLength (w.plain p) < n ∧ p.getLast? = some w.any

/-- The last character is neither a wildcard nor a blank. -/
def Wildcards.Closed : Prop := ∃ c ∈ p.getLast?, c ≠ w.any ∧ c ≠ w.one ∧ c ≠ blank

instance : Decidable (w.FitsTrimmed blank n p) := inferInstanceAs (Decidable (_ ∨ _))
instance : Decidable (w.Closed blank p) := inferInstanceAs (Decidable (∃ _ ∈ _, _))

end Conditions

/-! ## How long a match is -/

omit [DecidableEq α] in
theorem minLength_append (p q : List (Item α)) : minLength (p ++ q) = minLength p + minLength q := by
  induction p with
  | nil => exact (Nat.zero_add _).symm
  | cons i p ih => cases i <;> simp [ih] <;> omega

omit [DecidableEq α] in
theorem minLength_replicate_any (k : Nat) : minLength (List.replicate k (.any : Item α)) = 0 := by
  induction k with
  | zero => rfl
  | succ k ih => exact ih

/-- Without the any-string wildcard every match has the same length. -/
theorem length_eq_minLength {p : List (Item α)} {s : List α} (hany : .any ∉ p) (h : accepts p s = true) :
    s.length = minLength p := by
  induction p generalizing s with
  | nil => exact List.length_eq_zero_iff.mpr (List.isEmpty_iff.mp h)
  | cons i p ih =>
      have htail : .any ∉ p := fun hp => hany (List.mem_cons_of_mem _ hp)
      cases i with
      | any => exact absurd List.mem_cons_self hany
      | one =>
          obtain ⟨d, v, rfl, hv⟩ := accepts_one_cons.mp h
          exact congrArg (· + 1) (ih htail hv)
      | lit c =>
          obtain ⟨v, rfl, hv⟩ := accepts_lit_cons.mp h
          exact congrArg (· + 1) (ih htail hv)

theorem fills_of_accepts {p : List (Item α)} {s : List α} (h : accepts p s = true) : Fills s.length p := by
  rcases Nat.eq_or_lt_of_le (minLength_le h) with heq | hlt
  · exact .inl heq
  · refine .inr ⟨hlt, ?_⟩
    by_contra hany
    exact Nat.ne_of_gt hlt (length_eq_minLength hany h)

/-- A match of that length, with `x` for the characters the pattern leaves open. -/
theorem exists_accepts {n : Nat} {p : List (Item α)} (x : α) (h : Fills n p) :
    ∃ s, s.length = n ∧ accepts p s = true ∧ ∀ e ≠ x, s.count e = (literals p).count e := by
  rcases h with heq | ⟨hlt, hmem⟩
  · exact ⟨sample x p, (length_sample x p).trans heq, accepts_sample x p, fun e he => count_sample he.symm p⟩
  · obtain ⟨a, b, rfl⟩ := List.append_of_mem hmem
    have hlen := minLength_append a (.any :: b)
    rw [minLength_any] at hlen
    refine ⟨sample x a ++ (List.replicate (n - minLength (a ++ .any :: b)) x ++ sample x b), ?_, ?_, ?_⟩
    · rw [List.length_append, List.length_append, length_sample, length_sample, List.length_replicate]
      omega
    · have htail := accepts_any_cons.mpr
        ⟨List.replicate (n - minLength (a ++ .any :: b)) x, sample x b, rfl, accepts_sample x b⟩
      exact accepts_append.mpr ⟨_, _, rfl, accepts_sample x a, htail⟩
    · intro e he
      rw [List.count_append, List.count_append, count_sample he.symm, count_sample he.symm, literals_append,
        List.count_append, literals_any, List.count_replicate, if_neg (by simpa using he.symm), Nat.zero_add]

/-! ## The escape character -/

section Escape

variable {w : Wildcards α}

/-- An escape is two characters without the escape character, and one with it. -/
theorem minLength_escaped_le {p : List α} {items : List (Item α)} (h : w.escaped p = some items) :
    minLength items ≤ minLength (w.plain p) := by
  have hescape : ∀ q : List α, minLength (w.plain (w.escape :: q)) = minLength (w.plain q) + 1 := by
    intro q
    rw [Wildcards.plain, List.map_cons, item_eq_lit w.escape_ne_any w.escape_ne_one]
    rfl
  have hitem : ∀ (c : α) (q : List (Item α)), minLength q ≤ minLength (w.item c :: q) := by
    intro c q
    cases w.item c with
    | any => exact Nat.le_refl _
    | one => exact Nat.le_succ _
    | lit d => exact Nat.le_succ _
  induction p using Wildcards.escaped.induct w generalizing items with
  | case1 =>
      obtain rfl := Option.some.inj h
      exact Nat.le_refl _
  | case2 => simp [escaped_single] at h
  | case3 c hc =>
      rw [escaped_single, if_neg hc] at h
      obtain rfl := Option.some.inj h
      exact Nat.le_refl _
  | case4 d p hd ih =>
      rw [escaped_cons, if_pos rfl, if_pos hd] at h
      obtain ⟨rest, hrest, rfl⟩ := Option.map_eq_some_iff.mp h
      rw [hescape]
      exact Nat.succ_le_succ ((ih hrest).trans (hitem d _))
  | case5 d p hd => simp [escaped_cons, hd] at h
  | case6 c d p hc ih =>
      rw [escaped_cons, if_neg hc] at h
      obtain ⟨rest, hrest, rfl⟩ := Option.map_eq_some_iff.mp h
      have hle := ih hrest
      have hcons : w.plain (c :: d :: p) = w.item c :: w.plain (d :: p) := rfl
      rw [hcons]
      cases w.item c with
      | any => exact hle
      | one => exact Nat.succ_le_succ hle
      | lit e => exact Nat.succ_le_succ hle

/-- **On strings of at most `n` characters** the two readings agree exactly when there is nothing to escape, or the
    pattern is read with its escapes and no string of that length has room for a match. -/
theorem escaped_agrees_upTo_iff (n : Nat) (p : List α) :
    (∀ s, s.length ≤ n → (w.escaped p).map (fun items => accepts items s) = some (accepts (w.plain p) s)) ↔
      w.escape ∉ p ∨ ∃ items ∈ w.escaped p, n < minLength items := by
  constructor
  · intro h
    by_cases hmem : w.escape ∈ p
    · right
      cases hitems : w.escaped p with
      | none => simpa [hitems] using h [] (Nat.zero_le n)
      | some items =>
          refine ⟨items, rfl, ?_⟩
          by_contra hfits
          have hs := h (sample w.any items) (by rw [length_sample]; exact Nat.not_lt.mp hfits)
          rw [hitems, sample_escaped_not_plain hitems hmem (List.Sublist.refl _)] at hs
          simp [accepts_sample] at hs
    · exact .inl hmem
  · rintro (hesc | ⟨items, hitems, hlong⟩) s hs
    · exact (escaped_agrees_iff p).mpr hesc s
    · have hshort {q : List (Item α)} (hq : minLength items ≤ minLength q) : accepts q s = false := by
        by_contra hacc
        have hle : minLength q ≤ s.length := minLength_le (by simpa using hacc)
        omega
      rw [hitems, Option.map_some, hshort (Nat.le_refl _), hshort (minLength_escaped_le hitems)]

end Escape

/-! ## Trailing blanks -/

/-- Trimming makes no difference on strings of `n` characters. -/
def TrimAgrees (blank : α) (n : Nat) (p : List (Item α)) : Prop :=
  ∀ s, s.length = n → accepts p s = accepts p (PadSpace.rtrim blank s)

section Trim

variable {blank : α} {n : Nat}

theorem rtrim_append_blanks (u : List α) (j : Nat) :
    PadSpace.rtrim blank (u ++ List.replicate j blank) = PadSpace.rtrim blank u := by
  induction j with
  | zero => rw [List.replicate_zero, List.append_nil]
  | succ j ih =>
      rw [List.replicate_succ', ← List.append_assoc, PadSpace.rtrim, List.rdropWhile_concat_pos _ _ _ (by simp)]
      exact ih

theorem length_rtrim_le (s : List α) : (PadSpace.rtrim blank s).length ≤ s.length :=
  (List.rdropWhile_prefix _ s).length_le

theorem rtrim_concat {c : α} (hc : c ≠ blank) (u : List α) : PadSpace.rtrim blank (u ++ [c]) = u ++ [c] :=
  List.rdropWhile_concat_neg _ _ _ (by simpa using hc)

theorem rtrim_ne_concat (s u : List α) : PadSpace.rtrim blank s ≠ u ++ [blank] := by
  intro h
  have hne : s.rdropWhile (· = blank) ≠ [] := by
    rw [show s.rdropWhile (· = blank) = u ++ [blank] from h]
    simp
  have hlast := List.rdropWhile_last_not (fun c => decide (c = blank)) s hne
  have hblank : (s.rdropWhile (· = blank)).getLast hne = blank := by
    simp only [show s.rdropWhile (· = blank) = u ++ [blank] from h, List.getLast_append_singleton]
  rw [hblank] at hlast
  simp at hlast

/-- A match of a pattern that ends in a literal ends in it. -/
theorem accepts_concat_lit {p : List (Item α)} {c : α} {s : List α} (h : accepts (p ++ [.lit c]) s = true) :
    ∃ u, s = u ++ [c] := by
  obtain ⟨u, v, rfl, -, hv⟩ := accepts_append.mp h
  exact ⟨u, by rw [accepts_lit.mp hv]⟩

theorem accepts_ones {e : Nat} {s : List α} : accepts (List.replicate e .one) s = true ↔ s.length = e := by
  induction e generalizing s with
  | zero => simp
  | succ e ih =>
      rw [List.replicate_succ, accepts_one_cons]
      constructor
      · rintro ⟨d, v, rfl, hv⟩
        exact congrArg (· + 1) (ih.mp hv)
      · intro hs
        cases s with
        | nil => simp at hs
        | cons d v => exact ⟨d, v, rfl, ih.mpr (Nat.succ.inj hs)⟩

/-- Some character is neither of the two. -/
theorem exists_ne_two (w : Wildcards α) (a b : α) : ∃ z, z ≠ a ∧ z ≠ b := by
  by_contra hnone
  have hall : ∀ z, z = a ∨ z = b := by
    intro z
    by_contra hz
    exact hnone ⟨z, not_or.mp hz⟩
  have hone := w.one_ne_any
  have hany := w.escape_ne_any
  have hescape := w.escape_ne_one
  rcases hall w.any with h₁ | h₁ <;> rcases hall w.one with h₂ | h₂ <;> rcases hall w.escape with h₃ | h₃ <;> simp_all

/-- The end of the pattern takes blanks only: what is left without them is too short. -/
theorem not_trimAgrees_of_blanks {r q : List (Item α)} (x : α) (hq : 0 < minLength q) (hlen : minLength r ≤ n)
    (hacc : accepts q (List.replicate (n - minLength r) blank) = true) : ¬TrimAgrees blank n (r ++ q) := by
  intro h
  have hs := h (sample x r ++ List.replicate (n - minLength r) blank) (by
    rw [List.length_append, length_sample, List.length_replicate]
    omega)
  rw [accepts_append.mpr ⟨_, _, rfl, accepts_sample x r, hacc⟩, rtrim_append_blanks] at hs
  have hle := minLength_le hs.symm
  have hshort : (PadSpace.rtrim blank (sample x r)).length ≤ (sample x r).length := length_rtrim_le _
  rw [minLength_append] at hle
  rw [length_sample] at hshort
  omega

/-- The pattern ends in a character, and there is room for a blank after it. -/
theorem not_trimAgrees_of_lit {r : List (Item α)} {c : α} (hc : c ≠ blank) (h : minLength (r ++ [.lit c]) < n) :
    ¬TrimAgrees blank n (r ++ [.lit c]) := by
  intro hagrees
  have hsample : sample c (r ++ [.lit c]) = sample c r ++ [c] := sample_append c r [.lit c]
  have hlen := length_sample c (r ++ [.lit c])
  obtain ⟨j, hj⟩ : ∃ j, n = minLength (r ++ [.lit c]) + (j + 1) := ⟨n - minLength (r ++ [.lit c]) - 1, by omega⟩
  have hs := hagrees (sample c (r ++ [.lit c]) ++ List.replicate (j + 1) blank) (by
    rw [List.length_append, hlen, List.length_replicate, hj])
  rw [rtrim_append_blanks, hsample, rtrim_concat hc, ← hsample, accepts_sample] at hs
  obtain ⟨u, hu⟩ := accepts_concat_lit hs
  rw [List.replicate_succ', ← List.append_assoc] at hu
  exact hc (List.cons.inj (List.append_inj' hu rfl).2).1.symm

/-- The pattern ends in a blank, and no trimmed string does. -/
theorem not_trimAgrees_of_blank {r : List (Item α)} (h : Fills n (r ++ [.lit blank])) :
    ¬TrimAgrees blank n (r ++ [.lit blank]) := by
  intro hagrees
  obtain ⟨s, hlen, hs, -⟩ := exists_accepts blank h
  rw [hagrees s hlen] at hs
  obtain ⟨u, hu⟩ := accepts_concat_lit hs
  exact rtrim_ne_concat s u hu

/-- The pattern ends in one-character wildcards after a literal: in the string that is one blank longer than a match
    the literal would be where the match has a wildcard. -/
theorem not_trimAgrees_of_ones (w : Wildcards α) {r : List (Item α)} {c : α} {e : Nat}
    (h : Fills n (r ++ [.lit c] ++ List.replicate (e + 1) .one)) :
    ¬TrimAgrees blank n (r ++ [.lit c] ++ List.replicate (e + 1) .one) := by
  have hones : minLength (List.replicate (e + 1) (.one : Item α)) = e + 1 := by
    rw [← length_sample blank]
    exact accepts_ones.mp (accepts_sample blank _)
  have hmin := minLength_append (r ++ [.lit c]) (List.replicate (e + 1) .one)
  rw [hones] at hmin
  rcases h with heq | ⟨hlt, hany⟩
  · refine not_trimAgrees_of_blanks blank (by omega) (by omega) (accepts_ones.mpr ?_)
    rw [List.length_replicate]
    omega
  · intro hagrees
    obtain ⟨z, hblank, hz⟩ := exists_ne_two w blank c
    have hfills : Fills (n - 1 - (e + 1)) (r ++ [.lit c]) := by
      rcases Nat.eq_or_lt_of_le (Nat.le_sub_of_add_le (Nat.le_sub_one_of_lt (hmin ▸ hlt))) with heq | hless
      · exact .inl heq
      · refine .inr ⟨hless, ?_⟩
        rcases List.mem_append.mp hany with hmem | hmem
        · exact hmem
        · exact absurd (List.eq_of_mem_replicate hmem) (by simp)
    obtain ⟨u, hlen, hu, -⟩ := exists_accepts z hfills
    -- `z` in the place of every wildcard at the end
    have hmatch : accepts (r ++ [.lit c] ++ List.replicate (e + 1) .one) (u ++ List.replicate (e + 1) z) = true :=
      accepts_append.mpr ⟨_, _, rfl, hu, accepts_ones.mpr List.length_replicate⟩
    have htrim : PadSpace.rtrim blank (u ++ List.replicate (e + 1) z ++ [blank]) = u ++ List.replicate (e + 1) z := by
      have hone : PadSpace.rtrim blank (u ++ List.replicate (e + 1) z ++ List.replicate 1 blank) =
          PadSpace.rtrim blank (u ++ List.replicate (e + 1) z) := rtrim_append_blanks _ 1
      rw [List.replicate_one] at hone
      rw [hone, List.replicate_succ', ← List.append_assoc, rtrim_concat hblank]
    have hs := hagrees (u ++ List.replicate (e + 1) z ++ [blank]) (by
      rw [List.length_append, List.length_append, List.length_replicate, List.length_singleton, hlen]
      omega)
    rw [htrim, hmatch] at hs
    obtain ⟨a, b, hab, ha, hb⟩ := accepts_append.mp hs
    obtain ⟨d, rfl⟩ := accepts_concat_lit ha
    have hsplit : u ++ [z] ++ (List.replicate e z ++ [blank]) = d ++ [c] ++ b := by
      rw [← hab, List.replicate_succ]
      simp
    have hlast := List.append_inj' hsplit (by
      rw [accepts_ones.mp hb, List.length_append, List.length_replicate, List.length_singleton])
    exact hz (List.cons.inj (List.append_inj' hlast.1 rfl).2).1

/-- The pattern ends in a one-character wildcard. -/
theorem not_trimAgrees_of_one (w : Wildcards α) {r : List (Item α)} (h : Fills n (r ++ [.one])) :
    ¬TrimAgrees blank n (r ++ [.one]) := by
  obtain ⟨e, he⟩ := PadSpace.eq_rtrim_append (.one : Item α) r
  have hones : r ++ [.one] = PadSpace.rtrim .one r ++ List.replicate (e + 1) .one := by
    conv_lhs => rw [he]
    rw [List.append_assoc, List.replicate_succ']
  have hmin : minLength (List.replicate (e + 1) (.one : Item α)) = e + 1 := by
    rw [← length_sample blank]
    exact accepts_ones.mp (accepts_sample blank _)
  rw [hones] at h ⊢
  -- what stands before them
  rcases List.eq_nil_or_concat (PadSpace.rtrim .one r) with hnil | ⟨front, i, hfront⟩
  · rw [hnil, List.nil_append] at h ⊢
    rcases h with heq | ⟨-, hany⟩
    · refine not_trimAgrees_of_blanks (r := []) (q := List.replicate (e + 1) .one) blank (by omega) (Nat.zero_le n)
        (accepts_ones.mpr ?_)
      rw [List.length_replicate, ← heq, hmin]
      rfl
    · exact absurd (List.eq_of_mem_replicate hany) (by simp)
  · rw [hfront, List.concat_eq_append] at h ⊢
    cases i with
    | one => exact absurd (hfront.trans List.concat_eq_append) (rtrim_ne_concat r front)
    | lit c => exact not_trimAgrees_of_ones w h
    | any =>
        have hlen : minLength front + (e + 1) ≤ n := by
          have hle : minLength (front ++ [.any] ++ List.replicate (e + 1) .one) ≤ n := h.elim Nat.le_of_eq (·.1.le)
          rw [minLength_append, minLength_append, hmin] at hle
          exact hle
        rw [List.append_assoc]
        refine not_trimAgrees_of_blanks blank (by simp [hmin]) (by omega) ?_
        refine accepts_any_cons.mpr ⟨List.replicate (n - minLength front - (e + 1)) blank,
          List.replicate (e + 1) blank, ?_, accepts_ones.mpr List.length_replicate⟩
        rw [List.replicate_append_replicate]
        congr 1
        omega

/-- A pattern that ends in any-string wildcards after something that takes a blank. -/
theorem not_trimAgrees_of_any {r : List (Item α)} {i : Item α} {k : Nat} (hi : i = .one ∨ i = .lit blank)
    (h : minLength (r ++ i :: List.replicate (k + 1) .any) ≤ n) :
    ¬TrimAgrees blank n (r ++ i :: List.replicate (k + 1) .any) := by
  have hmin : minLength (i :: List.replicate (k + 1) .any) = 1 := by
    rcases hi with rfl | rfl <;> simp [minLength_replicate_any]
  rw [minLength_append, hmin] at h
  obtain ⟨j, hj⟩ : ∃ j, n - minLength r = j + 1 := ⟨n - minLength r - 1, by omega⟩
  refine not_trimAgrees_of_blanks blank (by omega) (by omega) ?_
  rw [hj, List.replicate_succ]
  have htail := accepts_replicate_any k (List.replicate j blank)
  rcases hi with rfl | rfl
  · exact accepts_one_cons.mpr ⟨_, _, rfl, htail⟩
  · exact accepts_lit_cons.mpr ⟨_, rfl, htail⟩

/-- **When a match of `n` characters exists**, trimming makes no difference only for a pattern that ends in a character
    other than a blank, with wildcards after it or without room for anything else. -/
theorem ends_of_trimAgrees (w : Wildcards α) {r : List (Item α)} {i : Item α} {k : Nat} (hi : i ≠ .any)
    (hfills : Fills n (r ++ i :: List.replicate k .any)) (h : TrimAgrees blank n (r ++ i :: List.replicate k .any)) :
    (∃ c ≠ blank, i = .lit c) ∧ (0 < k ∨ minLength (r ++ i :: List.replicate k .any) = n) := by
  have hle : minLength (r ++ i :: List.replicate k .any) ≤ n := hfills.elim Nat.le_of_eq (·.1.le)
  have hcases : i = .one ∨ i = .lit blank ∨ ∃ c ≠ blank, i = .lit c := by
    cases i with
    | any => exact absurd rfl hi
    | one => exact .inl rfl
    | lit c =>
        by_cases hc : c = blank
        · exact .inr (.inl (congrArg Item.lit hc))
        · exact .inr (.inr ⟨c, hc, rfl⟩)
  cases k with
  | zero =>
      rcases hcases with rfl | rfl | ⟨c, hc, rfl⟩
      · exact absurd h (not_trimAgrees_of_one w hfills)
      · exact absurd h (not_trimAgrees_of_blank hfills)
      · refine ⟨⟨c, hc, rfl⟩, .inr (Nat.le_antisymm hle ?_)⟩
        by_contra hroom
        exact not_trimAgrees_of_lit hc (Nat.not_le.mp hroom) h
  | succ k =>
      rcases hcases with hone | hblank | hlit
      · exact absurd h (not_trimAgrees_of_any (.inl hone) hle)
      · exact absurd h (not_trimAgrees_of_any (.inr hblank) hle)
      · exact ⟨hlit, .inl (Nat.succ_pos k)⟩

/-- A pattern that ends in a character other than a blank and has no room for anything else. -/
theorem trimAgrees_of_lit {r : List (Item α)} {c : α} (hc : c ≠ blank) (h : minLength (r ++ [.lit c]) = n) :
    TrimAgrees blank n (r ++ [.lit c]) := by
  intro s hlen
  rcases List.eq_nil_or_concat s with rfl | ⟨u, d, hu⟩
  · rfl
  · rw [List.concat_eq_append] at hu
    subst hu
    by_cases hd : d = blank
    · -- the string does not end in the character, and what trimming leaves is too short
      subst hd
      have hlong : accepts (r ++ [.lit c]) (u ++ [d]) = false := by
        by_contra hacc
        obtain ⟨v, hv⟩ := accepts_concat_lit (by simpa using hacc)
        exact hc (List.cons.inj (List.append_inj' hv rfl).2).1.symm
      have hshort : accepts (r ++ [.lit c]) (PadSpace.rtrim d (u ++ [d])) = false := by
        by_contra hacc
        have hle := minLength_le (by simpa using hacc : accepts _ _ = true)
        have htrim := rtrim_blank_length d u
        rw [List.length_append, List.length_singleton] at hlen
        omega
      rw [hlong, hshort]
    · rw [rtrim_concat hd]

section Pattern

variable {w : Wildcards α}

theorem plain_ending (r : List α) (c : α) (k : Nat) :
    w.plain (r ++ c :: List.replicate k w.any) = w.plain r ++ w.item c :: List.replicate k .any := by
  rw [plain_append, ← plain_replicate_any (w := w)]
  rfl

/-- **Room for a match that trimming leaves as it is.** -/
theorem fitsTrimmed_iff (hone : blank ≠ w.one) {p : List α} (hp : ∃ c ∈ p, c ≠ w.any) :
    (∃ t, t.length ≤ n ∧ PadSpace.rtrim blank t = t ∧ accepts (w.plain p) t = true) ↔ w.FitsTrimmed blank n p := by
  obtain ⟨r, c, k, hany, rfl, hdrop⟩ := exists_last hp
  have hlast : (r ++ c :: List.replicate k w.any).getLast? = some w.any ↔ 0 < k := by
    rw [getLast?_any]
    cases k with
    | zero => simp [hany]
    | succ k => simp
  have hmin (k : Nat) : minLength (w.plain (r ++ c :: List.replicate k w.any)) = minLength (w.plain (r ++ [c])) := by
    have hsplit : r ++ c :: List.replicate k w.any = r ++ [c] ++ List.replicate k w.any := by simp
    rw [hsplit, plain_append, plain_replicate_any, minLength_append, minLength_replicate_any, Nat.add_zero]
  rw [Wildcards.FitsTrimmed, hdrop, List.getLast?_concat, hlast, hmin]
  constructor
  · rintro ⟨t, hlen, htrim, ht⟩
    have hle := minLength_le ht
    rw [hmin] at hle
    by_cases hc : c = blank
    · right
      -- the match has a blank for the last character of the pattern, and something after it
      subst hc
      rw [plain_ending, item_eq_lit hany hone] at ht
      obtain ⟨u, v, rfl, hu, hv⟩ := accepts_append.mp ht
      obtain ⟨v', rfl, hv'⟩ := accepts_lit_cons.mp hv
      have hne : v' ≠ [] := by
        rintro rfl
        exact rtrim_ne_concat _ u htrim
      have hpos := List.length_pos_iff.mpr hne
      have hule := minLength_le hu
      have hshort : minLength (w.plain (r ++ [c])) = minLength (w.plain r) + 1 := by
        rw [plain_append, minLength_append, Wildcards.plain, Wildcards.plain, List.map_singleton,
          item_eq_lit hany hone]
        rfl
      rw [List.length_append, List.length_cons] at hlen
      refine ⟨by omega, ?_⟩
      by_contra hk
      obtain rfl : k = 0 := by omega
      exact hne (List.isEmpty_iff.mp hv')
    · exact .inl ⟨hle.trans hlen, fun h => hc (Option.some.inj h)⟩
  · rintro (⟨hle, hc⟩ | ⟨hlt, hk⟩)
    · obtain ⟨x, hx, -⟩ := exists_ne_two w blank blank
      have hends : (if c = w.one then x else c) ≠ blank := by
        split_ifs
        · exact hx
        · exact fun h => hc (congrArg some h)
      refine ⟨sample x (w.plain (r ++ c :: List.replicate k w.any)), ?_, ?_, accepts_sample _ _⟩
      · rw [length_sample, hmin]
        exact hle
      · rw [sample_last x r hany k, rtrim_concat hends]
    · obtain ⟨x, hx, -⟩ := exists_ne_two w blank blank
      obtain ⟨j, rfl⟩ : ∃ j, k = j + 1 := ⟨k - 1, by omega⟩
      refine ⟨sample x (w.plain (r ++ [c])) ++ [x], ?_, rtrim_concat hx _, ?_⟩
      · rw [List.length_append, length_sample]
        exact hlt
      · have hsplit : r ++ c :: List.replicate (j + 1) w.any = r ++ [c] ++ List.replicate (j + 1) w.any := by simp
        rw [hsplit, plain_append, plain_replicate_any]
        exact accepts_append.mpr ⟨_, _, rfl, accepts_sample _ _, accepts_replicate_any j [x]⟩

theorem item_ne_any {c : α} (h : c ≠ w.any) : w.item c ≠ .any := by
  rw [Wildcards.item, if_neg h]
  split_ifs <;> simp

/-- What trimming may not change, of a pattern with a match of `n` characters: one that is open, or closed with as many
    characters as the string. -/
theorem ends_of_plain_trimAgrees {p : List α} (hp : ∃ c ∈ p, c ≠ w.any) (hfills : Fills n (w.plain p))
    (h : TrimAgrees blank n (w.plain p)) : w.Open blank p ∨ minLength (w.plain p) = n ∧ w.Closed blank p := by
  obtain ⟨r, c, k, hany, rfl, hdrop⟩ := exists_last hp
  rw [plain_ending] at hfills h ⊢
  obtain ⟨⟨d, hd, hlit⟩, hends⟩ := ends_of_trimAgrees w (item_ne_any hany) hfills h
  have hc : c ≠ w.one := by
    rintro rfl
    rw [Wildcards.item, if_neg hany, if_pos rfl] at hlit
    cases hlit
  obtain rfl : c = d := Item.lit.inj ((item_eq_lit hany hc).symm.trans hlit)
  rw [open_iff hany k hdrop, Wildcards.Closed, getLast?_any]
  by_cases hk : 0 < k
  · exact .inl ⟨hk, hc, hd⟩
  · obtain rfl : k = 0 := by omega
    exact .inr ⟨hends.resolve_left hk, c, rfl, hany, hc, hd⟩

theorem plain_trimAgrees_of_closed {p : List α} (hclosed : w.Closed blank p) (hmin : minLength (w.plain p) = n) :
    TrimAgrees blank n (w.plain p) := by
  obtain ⟨c, hlast, hany, hc, hblank⟩ := hclosed
  obtain ⟨r, rfl⟩ : ∃ r, p = r ++ [c] := by
    rcases List.eq_nil_or_concat p with rfl | ⟨r, d, rfl⟩
    · cases hlast
    · rw [List.concat_eq_append, List.getLast?_concat] at hlast
      exact ⟨r, by rw [List.concat_eq_append, Option.some.inj hlast]⟩
  have hplain : w.plain (r ++ [c]) = w.plain r ++ [.lit c] := by
    rw [plain_append, Wildcards.plain, Wildcards.plain, List.map_singleton, item_eq_lit hany hc]
  rw [hplain] at hmin ⊢
  exact trimAgrees_of_lit hblank hmin

/-- A match of the pattern read with its escapes, of `n` characters, is none of what trimming leaves of it. -/
theorem escape_notMem_of_agrees {p : List α} {items : List (Item α)} (hitems : w.escaped p = some items)
    (hfills : Fills n items)
    (h : ∀ s, s.length = n → accepts items s = accepts (w.plain p) (PadSpace.rtrim blank s)) : w.escape ∉ p := by
  intro hmem
  obtain ⟨s, hlen, hs, hcount⟩ := exists_accepts w.any hfills
  have hle : (PadSpace.rtrim blank s).count w.escape ≤ (literals items).count w.escape := by
    rw [← hcount w.escape w.escape_ne_any]
    exact (List.rdropWhile_prefix _ s).sublist.count_le w.escape
  rw [h s hlen, not_plain_of_count hitems hmem hle] at hs
  cases hs

/-- A trimmed match of the pattern without its escapes is one of a string of `n` characters with them. -/
theorem fills_of_fitsTrimmed (hone : blank ≠ w.one) {p : List α} (hp : ∃ c ∈ p, c ≠ w.any) {items : List (Item α)}
    (h : ∀ s, s.length = n → accepts items s = accepts (w.plain p) (PadSpace.rtrim blank s))
    (hfits : w.FitsTrimmed blank n p) : Fills n items := by
  obtain ⟨t, hlen, htrim, ht⟩ := (fitsTrimmed_iff hone hp).mpr hfits
  have hpad : (t ++ List.replicate (n - t.length) blank).length = n := by
    rw [List.length_append, List.length_replicate]
    omega
  have hs := h _ hpad
  rw [rtrim_append_blanks, htrim, ht] at hs
  exact hpad ▸ fills_of_accepts hs

/-- **On strings of exactly `n` characters**, with the escape character before trimming and without it after: the same
    answer exactly when neither side has room for a match, or when there is nothing to escape and the pattern is open,
    or closed with as many characters as the string. -/
theorem escaped_rtrim_agrees_at_iff (hone : blank ≠ w.one) {p : List α} (hp : ∃ c ∈ p, c ≠ w.any) :
    (∀ s, s.length = n → (w.escaped p).map (fun items => accepts items s) =
      some (accepts (w.plain p) (PadSpace.rtrim blank s))) ↔
    ∃ items ∈ w.escaped p, ¬Fills n items ∧ ¬w.FitsTrimmed blank n p ∨
      w.escape ∉ p ∧ (w.Open blank p ∨ minLength (w.plain p) = n ∧ w.Closed blank p) := by
  constructor
  · intro h
    cases hitems : w.escaped p with
    | none => simpa [hitems] using h (List.replicate n blank) List.length_replicate
    | some items =>
        refine ⟨items, rfl, ?_⟩
        have hagrees : ∀ s, s.length = n → accepts items s = accepts (w.plain p) (PadSpace.rtrim blank s) :=
          fun s hs => Option.some.inj ((congrArg (Option.map fun items => accepts items s) hitems).symm.trans (h s hs))
        by_cases hfills : Fills n items
        · right
          have hesc : w.escape ∉ p := escape_notMem_of_agrees hitems hfills hagrees
          obtain rfl : w.plain p = items := Option.some.inj ((escaped_eq_plain hesc).symm.trans hitems)
          exact ⟨hesc, ends_of_plain_trimAgrees hp hfills hagrees⟩
        · exact .inl ⟨hfills, fun hroom => hfills (fills_of_fitsTrimmed hone hp hagrees hroom)⟩
  · rintro ⟨items, hitems, ⟨hfills, hroom⟩ | ⟨hesc, hends⟩⟩ s hlen
    · have hreject : accepts items s = false := by
        by_contra hacc
        exact hfills (hlen ▸ fills_of_accepts (by simpa using hacc))
      have htrimmed : accepts (w.plain p) (PadSpace.rtrim blank s) = false := by
        by_contra hacc
        refine hroom ((fitsTrimmed_iff hone hp).mp ⟨_, hlen ▸ length_rtrim_le s, ?_, by simpa using hacc⟩)
        exact List.rdropWhile_idempotent _ _
      rw [hitems, Option.map_some, hreject, htrimmed]
    · have htrim : accepts (w.plain p) s = accepts (w.plain p) (PadSpace.rtrim blank s) := by
        rcases hends with hopen | ⟨hmin, hclosed⟩
        · exact (plain_rtrim_iff hp).mpr hopen s
        · exact plain_trimAgrees_of_closed hclosed hmin s hlen
      rw [escaped_eq_plain hesc, ← htrim]
      rfl

end Pattern

end Trim

end Like
