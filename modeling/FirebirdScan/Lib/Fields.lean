import FirebirdScan.Lib.Delimited
import Mathlib.Data.List.Infix

/-!
# `Lib.Fields` — a text as the fields between its gaps

`fields` are the pieces of a text between gaps, `collapse` is the text with every run of gaps replaced by one blank,
and `spaced` puts fields together again. A search in the collapsed text for words between blanks is a search for
these words among the fields (`infix_padded_iff`).
-/

namespace Fields

variable {α β : Type*} {gap : α → Bool} {blank : α}

/-! ## Fields -/

/-- A field is complete, if it has begun. -/
def complete (f : List α) : List (List α) := if f.isEmpty then [] else [f]

def fieldsFrom (gap : α → Bool) : List α → List α → List (List α)
  | f, [] => complete f
  | f, x :: s => if gap x then complete f ++ fieldsFrom gap [] s else fieldsFrom gap (f ++ [x]) s

/-- The pieces between gaps. -/
def fields (gap : α → Bool) (s : List α) : List (List α) := fieldsFrom gap [] s

/-- Every run of gaps becomes one blank. -/
def collapse (gap : α → Bool) (blank : α) : Bool → List α → List α
  | _, [] => []
  | inGap, x :: s =>
      if gap x then
        if inGap then collapse gap blank true s else blank :: collapse gap blank true s
      else x :: collapse gap blank false s

/-- The collapsed text, with a blank at either end. -/
def padded (gap : α → Bool) (blank : α) (s : List α) : List α := blank :: (collapse gap blank false s ++ [blank])

/-- Each field with a blank behind it. -/
def spaced (blank : α) (fs : List (List α)) : List α := fs.flatMap (· ++ [blank])

/-- What a field is: something, and without a gap. -/
def IsField (gap : α → Bool) (f : List α) : Prop := f ≠ [] ∧ ∀ x ∈ f, gap x = false

@[simp] theorem complete_nil : complete ([] : List α) = [] := rfl

theorem complete_of_ne_nil {f : List α} (h : f ≠ []) : complete f = [f] := by
  unfold complete
  rw [List.isEmpty_eq_false_iff.mpr h]
  rfl

@[simp] theorem spaced_cons (f : List α) (fs : List (List α)) :
    spaced blank (f :: fs) = f ++ blank :: spaced blank fs := by
  show f ++ [blank] ++ spaced blank fs = _
  rw [List.append_assoc]
  rfl

theorem spaced_append (fs gs : List (List α)) : spaced blank (fs ++ gs) = spaced blank fs ++ spaced blank gs :=
  List.flatMap_append

theorem isField_fieldsFrom {f : List α} (hf : ∀ x ∈ f, gap x = false) (s : List α) :
    ∀ g ∈ fieldsFrom gap f s, IsField gap g := by
  have hcomplete : ∀ {f : List α}, (∀ x ∈ f, gap x = false) → ∀ g ∈ complete f, IsField gap g := by
    intro f hf g hg
    cases f with
    | nil => cases hg
    | cons x f =>
        rw [complete_of_ne_nil (List.cons_ne_nil x f)] at hg
        rw [List.mem_singleton.mp hg]
        exact ⟨List.cons_ne_nil x f, hf⟩
  induction s generalizing f with
  | nil => exact hcomplete hf
  | cons x s ih =>
      rw [fieldsFrom]
      split_ifs with hgap
      · intro g hg
        rcases List.mem_append.mp hg with hg | hg
        · exact hcomplete hf g hg
        · exact ih (List.forall_mem_nil _) g hg
      · apply ih
        exact List.forall_mem_append.mpr ⟨hf, List.forall_mem_singleton.mpr (Bool.eq_false_iff.mpr hgap)⟩

theorem isField_of_mem {s f : List α} (h : f ∈ fields gap s) : IsField gap f :=
  isField_fieldsFrom (List.forall_mem_nil _) s f h

theorem fieldsFrom_map (gap : β → Bool) (φ : α → β) (f s : List α) :
    fieldsFrom gap (f.map φ) (s.map φ) = (fieldsFrom (fun x => gap (φ x)) f s).map (List.map φ) := by
  have hcomplete (f : List α) : complete (f.map φ) = (complete f).map (List.map φ) := by
    cases f <;> rfl
  induction s generalizing f with
  | nil => exact hcomplete f
  | cons x s ih =>
      rw [List.map_cons, fieldsFrom, fieldsFrom]
      split_ifs
      · rw [List.map_append, ← ih, hcomplete]
        rfl
      · rw [← ih, List.map_append]
        rfl

/-- The fields of an image. -/
theorem fields_map (gap : β → Bool) (φ : α → β) (s : List α) :
    fields gap (s.map φ) = (fields (fun x => gap (φ x)) s).map (List.map φ) := fieldsFrom_map gap φ [] s

/-- **A field stands between gaps**, or at an end. -/
theorem mem_fieldsFrom {f g s : List α} (h : g ∈ fieldsFrom gap f s) :
    ∃ a b, f ++ s = a ++ g ++ b ∧ (a = [] ∨ ∃ a' x, a = a' ++ [x] ∧ gap x = true) ∧ ∀ x ∈ b.head?, gap x = true := by
  induction s generalizing f with
  | nil =>
      cases f with
      | nil => cases h
      | cons x f =>
          rw [fieldsFrom, complete_of_ne_nil (List.cons_ne_nil x f)] at h
          rw [List.mem_singleton.mp h]
          exact ⟨[], [], rfl, .inl rfl, nofun⟩
  | cons x s ih =>
      rw [fieldsFrom] at h
      split_ifs at h with hgap
      · rcases List.mem_append.mp h with h | h
        · cases f with
          | nil => cases h
          | cons y f =>
              rw [complete_of_ne_nil (List.cons_ne_nil y f)] at h
              rw [List.mem_singleton.mp h]
              refine ⟨[], x :: s, rfl, .inl rfl, ?_⟩
              intro z hz
              rw [← Option.some.inj hz]
              exact hgap
        · obtain ⟨a, b, hs, ha, hb⟩ := ih h
          rw [List.nil_append] at hs
          refine ⟨f ++ x :: a, b, by rw [hs]; simp, .inr ?_, hb⟩
          rcases ha with rfl | ⟨a', y, rfl, hy⟩
          · exact ⟨f, x, rfl, hgap⟩
          · exact ⟨f ++ x :: a', y, by simp, hy⟩
      · obtain ⟨a, b, hs, hab⟩ := ih h
        exact ⟨a, b, by rw [← hs]; simp, hab⟩

theorem mem_fields {g s : List α} (h : g ∈ fields gap s) :
    ∃ a b, s = a ++ g ++ b ∧ (a = [] ∨ ∃ a' x, a = a' ++ [x] ∧ gap x = true) ∧ ∀ x ∈ b.head?, gap x = true :=
  mem_fieldsFrom h

/-! ## Words in the collapsed text -/

/-- Behind the beginning of a field, or a gap: the fields, and one more blank if the text ends with a gap. -/
theorem collapse_concat (gap : α → Bool) (blank : α) (f s : List α) : ∃ trail, (trail = [] ∨ trail = [blank]) ∧
    f ++ collapse gap blank f.isEmpty s ++ [blank] = spaced blank (fieldsFrom gap f s) ++ trail := by
  induction s generalizing f with
  | nil =>
      cases f with
      | nil => exact ⟨[blank], .inr rfl, rfl⟩
      | cons x f =>
          refine ⟨[], .inl rfl, ?_⟩
          rw [fieldsFrom, complete_of_ne_nil (List.cons_ne_nil x f), spaced_cons]
          simp [collapse, spaced]
  | cons x s ih =>
      rw [fieldsFrom]
      by_cases hgap : gap x = true
      · obtain ⟨trail, htrail, hs⟩ := ih []
        refine ⟨trail, htrail, ?_⟩
        rw [if_pos hgap]
        cases f with
        | nil =>
            show collapse gap blank true (x :: s) ++ [blank] = spaced blank (fieldsFrom gap [] s) ++ trail
            rw [← hs]
            simp [collapse, hgap]
        | cons y f =>
            have hright : spaced blank (complete (y :: f) ++ fieldsFrom gap [] s) ++ trail =
                (y :: f) ++ blank :: (spaced blank (fieldsFrom gap [] s) ++ trail) := by
              rw [complete_of_ne_nil (List.cons_ne_nil y f), List.singleton_append, spaced_cons]
              simp
            rw [hright, ← hs]
            simp [collapse, hgap]
      · obtain ⟨trail, htrail, hs⟩ := ih (f ++ [x])
        refine ⟨trail, htrail, ?_⟩
        have hbegun : (f ++ [x]).isEmpty = false := by simp
        rw [if_neg hgap, ← hs, hbegun]
        cases hf : f.isEmpty <;> simp [collapse, hgap]

/-- A text that begins with a gap keeps a blank of it. -/
theorem collapse_lead (gap : α → Bool) (blank : α) (s : List α) :
    ∃ lead, (lead = [] ∨ lead = [blank]) ∧ collapse gap blank false s = lead ++ collapse gap blank true s := by
  cases s with
  | nil => exact ⟨[], .inl rfl, rfl⟩
  | cons x s =>
      by_cases hgap : gap x = true
      · exact ⟨[blank], .inr rfl, by simp [collapse, hgap]⟩
      · exact ⟨[], .inl rfl, by simp [collapse, hgap]⟩

/-- The collapsed text is its fields with blanks between, and maybe one more blank at either end. -/
theorem padded_eq (gap : α → Bool) (blank : α) (s : List α) :
    ∃ lead trail, (lead = [] ∨ lead = [blank]) ∧ (trail = [] ∨ trail = [blank]) ∧
      padded gap blank s = lead ++ (blank :: spaced blank (fields gap s)) ++ trail := by
  obtain ⟨lead, hlead, hcollapse⟩ := collapse_lead gap blank s
  obtain ⟨trail, htrail, hs⟩ := collapse_concat gap blank [] s
  have hall : collapse gap blank true s ++ [blank] = spaced blank (fields gap s) ++ trail := hs
  refine ⟨lead, trail, hlead, htrail, ?_⟩
  unfold padded
  rw [hcollapse, List.append_assoc, hall]
  rcases hlead with rfl | rfl <;> simp

/-- A spaced text ends with a blank. -/
theorem spaced_ends (blank : α) (fs : List (List α)) : ∃ s, blank :: spaced blank fs = s ++ [blank] := by
  rcases List.eq_nil_or_concat' fs with rfl | ⟨fs, f, rfl⟩
  · exact ⟨[], rfl⟩
  · refine ⟨blank :: (spaced blank fs ++ f), ?_⟩
    rw [spaced_append, spaced_cons]
    simp [spaced]

/-- Words begin with a blank and something else. -/
theorem blank_spaced_front {ks : List (List α)} (hne : ks ≠ []) (hks : ∀ k ∈ ks, k ≠ [] ∧ blank ∉ k) :
    ∃ x n, blank :: spaced blank ks = blank :: x :: n ∧ x ≠ blank := by
  obtain ⟨k, ks', rfl⟩ := List.exists_cons_of_ne_nil hne
  obtain ⟨hk, hblank⟩ := hks k List.mem_cons_self
  obtain ⟨x, k', rfl⟩ := List.exists_cons_of_ne_nil hk
  refine ⟨x, k' ++ blank :: spaced blank ks', by rw [spaced_cons]; rfl, ?_⟩
  rintro rfl
  exact hblank List.mem_cons_self

/-- They end with something else and a blank. -/
theorem blank_spaced_back {ks : List (List α)} (hne : ks ≠ []) (hks : ∀ k ∈ ks, k ≠ [] ∧ blank ∉ k) :
    ∃ x n, (blank :: spaced blank ks).reverse = blank :: x :: n ∧ x ≠ blank := by
  obtain ⟨ks', k, rfl⟩ := (List.eq_nil_or_concat' ks).resolve_left hne
  obtain ⟨hk, hblank⟩ := hks k (List.mem_append_right _ List.mem_cons_self)
  obtain ⟨k', x, rfl⟩ := (List.eq_nil_or_concat' k).resolve_left hk
  refine ⟨x, (blank :: (spaced blank ks' ++ k')).reverse, ?_, ?_⟩
  · rw [spaced_append, spaced_cons]
    simp [spaced]
  · rintro rfl
    exact hblank (List.mem_append_right _ List.mem_cons_self)

/-- What begins with a blank does not begin in a field. -/
theorem infix_append_of_notMem {n f s : List α} (hn : n.head? = some blank) (hf : blank ∉ f) (h : n <:+: f ++ s) :
    n <:+: s := by
  induction f with
  | nil => exact h
  | cons x f ih =>
      obtain ⟨hx, hf⟩ := List.ne_and_not_mem_of_not_mem_cons hf
      rcases List.infix_cons_iff.mp h with hprefix | h
      · obtain ⟨t, ht⟩ := hprefix
        cases n with
        | nil => cases hn
        | cons y n =>
            have hy : y = blank := Option.some.inj hn
            exact absurd (hy.symm.trans (List.cons.inj ht).1) hx
      · exact ih hf h

/-- A second blank at the front is of no use to a text that begins with a single one. -/
theorem infix_of_doubled {n s : List α} (hn : ∃ x n', n = blank :: x :: n' ∧ x ≠ blank)
    (h : n <:+: blank :: blank :: s) : n <:+: blank :: s := by
  obtain ⟨x, n', rfl, hx⟩ := hn
  rcases List.infix_cons_iff.mp h with hprefix | h
  · exact absurd (List.cons_prefix_cons.mp (List.cons_prefix_cons.mp hprefix).2).1 hx
  · exact h

section

variable [DecidableEq α] {ks fs : List (List α)}

/-- Words at the start of a spaced text are its first fields. -/
theorem spaced_prefix_iff (hks : ∀ k ∈ ks, blank ∉ k) (hfs : ∀ f ∈ fs, blank ∉ f) :
    spaced blank ks <+: spaced blank fs ↔ ks <+: fs := by
  induction ks generalizing fs with
  | nil => exact iff_of_true List.nil_prefix List.nil_prefix
  | cons k ks ih =>
      obtain ⟨hk, hks⟩ := List.forall_mem_cons.mp hks
      cases fs with
      | nil =>
          refine iff_of_false ?_ (by simp)
          rw [spaced_cons]
          intro h
          have hlen := h.length_le
          simp [spaced] at hlen
      | cons f fs =>
          obtain ⟨hf, hfs⟩ := List.forall_mem_cons.mp hfs
          rw [spaced_cons, spaced_cons, List.cons_prefix_cons, ← ih hks hfs]
          constructor
          · rintro ⟨t, ht⟩
            rw [List.append_assoc, List.cons_append] at ht
            have hsplit := Delimited.splitFirst_append hk (spaced blank ks ++ t)
            rw [ht, Delimited.splitFirst_append hf] at hsplit
            obtain ⟨rfl, hrest⟩ := Prod.mk.inj (Option.some.inj hsplit)
            exact ⟨rfl, t, hrest.symm⟩
          · rintro ⟨rfl, t, ht⟩
            exact ⟨t, by rw [List.append_assoc, List.cons_append, ht]⟩

theorem spaced_infix_iff (hks : ∀ k ∈ ks, blank ∉ k) (hfs : ∀ f ∈ fs, blank ∉ f) :
    blank :: spaced blank ks <:+: blank :: spaced blank fs ↔ ks <:+: fs := by
  constructor
  · intro h
    induction fs with
    | nil =>
        have hnil : ks = [] := by
          cases ks with
          | nil => rfl
          | cons k ks =>
              have hlen := h.length_le
              simp [spaced] at hlen
        rw [hnil]
    | cons f fs ih =>
        rcases List.infix_cons_iff.mp h with hprefix | hrest
        · have hwords := (spaced_prefix_iff hks hfs).mp (List.cons_prefix_cons.mp hprefix).2
          exact hwords.isInfix
        · rw [spaced_cons] at hrest
          obtain ⟨hf, hfs⟩ := List.forall_mem_cons.mp hfs
          exact (ih hfs (infix_append_of_notMem rfl hf hrest)).trans (List.suffix_cons f fs).isInfix
  · rintro ⟨p, q, rfl⟩
    obtain ⟨p', hp⟩ := spaced_ends blank p
    refine ⟨p', spaced blank q, ?_⟩
    rw [spaced_append, spaced_append, ← List.cons_append, ← List.cons_append, hp]
    simp

/-- **Words between blanks are fields.** -/
theorem infix_padded_iff (hgap : gap blank = true) {s : List α} (hne : ks ≠ []) (hks : ∀ k ∈ ks, IsField gap k) :
    blank :: spaced blank ks <:+: padded gap blank s ↔ ks <:+: fields gap s := by
  have hblank {f : List α} (hf : IsField gap f) : blank ∉ f := by
    intro hmem
    have hno := hf.2 blank hmem
    rw [hgap] at hno
    cases hno
  have hwords : ∀ k ∈ ks, k ≠ [] ∧ blank ∉ k := fun k hk => ⟨(hks k hk).1, hblank (hks k hk)⟩
  rw [← spaced_infix_iff (fun k hk => hblank (hks k hk)) (fun f hf => hblank (isField_of_mem hf))]
  obtain ⟨lead, trail, hlead, htrail, hpadded⟩ := padded_eq gap blank s
  rw [hpadded]
  constructor
  · intro h
    have htrim : blank :: spaced blank ks <:+: (blank :: spaced blank (fields gap s)) ++ trail := by
      rcases hlead with rfl | rfl
      · exact h
      · exact infix_of_doubled (blank_spaced_front hne hwords) h
    rcases htrail with rfl | rfl
    · rw [List.append_nil] at htrim
      exact htrim
    · -- the same at the other end
      obtain ⟨t, ht⟩ := spaced_ends blank (fields gap s)
      rw [ht] at htrim ⊢
      apply List.reverse_infix.mp
      rw [List.reverse_append]
      apply infix_of_doubled (blank_spaced_back hne hwords)
      have hreverse := List.reverse_infix.mpr htrim
      simpa using hreverse
  · intro h
    exact h.trans (List.infix_append lead _ trail)

end

/-- What neither begins nor ends with a blank is found in the fields. -/
theorem infix_padded_iff_spaced {x y : α} {n s : List α} (hx : x ≠ blank) (hy : y ≠ blank)
    (hfront : n.head? = some x) (hback : n.getLast? = some y) :
    n <:+: padded gap blank s ↔ n <:+: spaced blank (fields gap s) := by
  have hcons {t : List α} (h : n <:+: blank :: t) : n <:+: t := by
    rcases List.infix_cons_iff.mp h with hprefix | h
    · obtain ⟨u, hu⟩ := hprefix
      cases n with
      | nil => cases hfront
      | cons z n => exact absurd ((Option.some.inj hfront).symm.trans (List.cons.inj hu).1) hx
    · exact h
  have hconcat {t : List α} (h : n <:+: t ++ [blank]) : n <:+: t := by
    rcases List.infix_concat_iff.mp h with hsuffix | h
    · obtain ⟨u, hu⟩ := hsuffix
      have hlast := congrArg List.getLast? hu
      rw [List.getLast?_concat, List.getLast?_append, hback] at hlast
      exact absurd (Option.some.inj hlast) hy
    · exact h
  obtain ⟨lead, trail, hlead, htrail, hpadded⟩ := padded_eq gap blank s
  rw [hpadded]
  constructor
  · intro h
    have hmiddle : n <:+: lead ++ blank :: spaced blank (fields gap s) := by
      rcases htrail with rfl | rfl
      · rw [List.append_nil] at h
        exact h
      · exact hconcat h
    rcases hlead with rfl | rfl
    · exact hcons hmiddle
    · exact hcons (hcons hmiddle)
  · intro h
    have hinner : n <:+: blank :: spaced blank (fields gap s) := h.trans (List.suffix_cons _ _).isInfix
    exact hinner.trans (List.infix_append lead _ trail)

/-! ## Where a text is collapsed -/

/-- Is the last thing a gap? -/
def endsInGap (gap : α → Bool) (inGap : Bool) (s : List α) : Bool := s.foldl (fun _ x => gap x) inGap

theorem collapse_append (inGap : Bool) (s t : List α) :
    collapse gap blank inGap (s ++ t) =
      collapse gap blank inGap s ++ collapse gap blank (endsInGap gap inGap s) t := by
  induction s generalizing inGap with
  | nil => rfl
  | cons x s ih =>
      rw [List.cons_append, collapse, collapse, ih, ih]
      have hends : endsInGap gap inGap (x :: s) = endsInGap gap (gap x) s := rfl
      rw [hends]
      by_cases hgap : gap x = true
      · rw [if_pos hgap, if_pos hgap, hgap]
        cases inGap <;> rfl
      · rw [if_neg hgap, if_neg hgap, Bool.eq_false_iff.mpr hgap]
        rfl

/-- A field is kept. -/
theorem collapse_field {k : List α} (hk : IsField gap k) (inGap : Bool) (s : List α) :
    collapse gap blank inGap (k ++ s) = k ++ collapse gap blank false s := by
  obtain ⟨hne, hk⟩ := hk
  induction k generalizing inGap with
  | nil => exact absurd rfl hne
  | cons x k ih =>
      obtain ⟨hx, hk⟩ := List.forall_mem_cons.mp hk
      rw [List.cons_append, collapse, hx]
      cases k with
      | nil => rfl
      | cons y k =>
          rw [ih false (List.cons_ne_nil y k) hk]
          rfl

/-- **A field, gaps, and what follows**: they stay together. -/
theorem infix_collapse {a k t b : List α} {x : α} (hk : IsField gap k) (ht : ∀ y ∈ t, gap y = true)
    (hx : gap x = false) (inGap : Bool) :
    k ++ [x] <:+: collapse gap blank inGap (a ++ k ++ t ++ x :: b) ∨
      k ++ [blank, x] <:+: collapse gap blank inGap (a ++ k ++ t ++ x :: b) := by
  have hgaps : ∀ {t : List α}, (∀ y ∈ t, gap y = true) →
      collapse gap blank true (t ++ x :: b) = x :: collapse gap blank false b := by
    intro t ht
    induction t with
    | nil => simp [collapse, hx]
    | cons y t ih =>
        obtain ⟨hy, ht⟩ := List.forall_mem_cons.mp ht
        rw [List.cons_append, collapse, hy, if_pos rfl, if_pos rfl]
        exact ih ht
  have hwhole : collapse gap blank inGap (a ++ k ++ t ++ x :: b) =
      collapse gap blank inGap a ++ (k ++ collapse gap blank false (t ++ x :: b)) := by
    rw [List.append_assoc, List.append_assoc, collapse_append, collapse_field hk]
  rw [hwhole]
  -- the gaps between become one blank, if there are any
  cases t with
  | nil =>
      refine .inl ⟨collapse gap blank inGap a, collapse gap blank false b, ?_⟩
      simp [collapse, hx]
  | cons y t =>
      obtain ⟨hy, ht⟩ := List.forall_mem_cons.mp ht
      refine .inr ⟨collapse gap blank inGap a, collapse gap blank false b, ?_⟩
      rw [List.cons_append, collapse, hy, if_pos rfl, if_neg Bool.false_ne_true, hgaps ht]
      simp

/-! ## Other items -/

/-- To put other items in the place of some that are no gaps. -/
theorem collapse_map {f : α → α} (hgap : ∀ c, gap (f c) = gap c) (hblank : f blank = blank) (inGap : Bool) (s : List α) :
    collapse gap blank inGap (s.map f) = (collapse gap blank inGap s).map f := by
  induction s generalizing inGap with
  | nil => rfl
  | cons c s ih =>
      rw [List.map_cons, collapse, collapse, hgap]
      split_ifs
      · exact ih true
      · rw [ih, List.map_cons, hblank]
      · rw [ih, List.map_cons]

/-- A search is not misled by items that are not searched for. -/
theorem infix_map_iff {f : α → α} {needle : List α} (h : ∀ b ∈ needle, ∀ c, f c = b ↔ c = b) (s : List α) :
    needle <:+: s.map f ↔ needle <:+: s := by
  have hfix : ∀ w : List α, w.map f = needle ↔ w = needle := by
    intro w
    induction needle generalizing w with
    | nil => exact List.map_eq_nil_iff
    | cons b needle ih =>
        obtain ⟨hb, hneedle⟩ := List.forall_mem_cons.mp h
        cases w with
        | nil => simp
        | cons c w => rw [List.map_cons, List.cons.injEq, List.cons.injEq, hb c, ih hneedle]
  constructor
  · rintro ⟨a, b, hab⟩
    obtain ⟨ab', b', rfl, hab', rfl⟩ := List.map_eq_append_iff.mp hab.symm
    obtain ⟨a', w, rfl, rfl, hw⟩ := List.map_eq_append_iff.mp hab'
    obtain rfl := (hfix w).mp hw
    exact ⟨a', b', rfl⟩
  · rintro ⟨a, b, rfl⟩
    refine ⟨a.map f, b.map f, ?_⟩
    rw [List.map_append, List.map_append, (hfix needle).mpr rfl]

end Fields
