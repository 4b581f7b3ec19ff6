import Mathlib.Data.List.Basic

/-!
# `Lib.TreeWalk` — a walk over a tree that numbers what it finds

A walk visits each node in front of the nodes below it, with a state that goes from one visit to the next. It is a
loop over the labels in preorder (`walk_eq`). A visit that adds a row for some of the labels, under the next number,
leaves the rows of those labels in preorder, numbered from the first number on (`foldlM_emit`).
-/

namespace TreeWalk

/-- A tree whose nodes have any number of children. -/
inductive RoseTree (α : Type) where
  | node (label : α) (children : List (RoseTree α))

variable {α β ρ σ ε : Type}

/-! ## The walk -/

mutual

/-- The labels in preorder. -/
def RoseTree.labels : RoseTree α → List α
  | .node label children => label :: labelsAll children

def RoseTree.labelsAll : List (RoseTree α) → List α
  | [] => []
  | t :: ts => t.labels ++ labelsAll ts

end

mutual

/-- A walk: the node, then its children from the first to the last. -/
def RoseTree.walk (visit : σ → α → Except ε σ) (s : σ) : RoseTree α → Except ε σ
  | .node label children => do walkAll visit (← visit s label) children

def RoseTree.walkAll (visit : σ → α → Except ε σ) (s : σ) : List (RoseTree α) → Except ε σ
  | [] => .ok s
  | t :: ts => do walkAll visit (← t.walk visit s) ts

end

mutual

/-- **A walk is a loop over the labels in preorder.** -/
theorem RoseTree.walk_eq (visit : σ → α → Except ε σ) (s : σ) (t : RoseTree α) :
    t.walk visit s = t.labels.foldlM visit s := by
  obtain ⟨label, children⟩ := t
  rw [walk, labels, List.foldlM_cons]
  apply bind_congr
  intro s
  exact walkAll_eq visit s children

theorem RoseTree.walkAll_eq (visit : σ → α → Except ε σ) (s : σ) (ts : List (RoseTree α)) :
    walkAll visit s ts = (labelsAll ts).foldlM visit s := by
  rcases ts with _ | ⟨t, ts⟩
  · rfl
  · rw [walkAll, labelsAll, List.foldlM_append, walk_eq visit s t]
    apply bind_congr
    intro s
    exact walkAll_eq visit s ts

end

/-! ## Numbers -/

variable (select : α → Option β) (row : Nat → β → Except ε ρ)

/-- A visit: a row for a label that is selected, under the next number. -/
def emit (state : List ρ × Nat) (label : α) : Except ε (List ρ × Nat) :=
  match select label with
  | none => .ok state
  | some b => do
      let r ← row state.2 b
      .ok (state.1 ++ [r], state.2 + 1)

/-- The rows of some labels, numbered from `n` on. -/
inductive Numbered : Nat → List β → List ρ → Prop
  | nil (n : Nat) : Numbered n [] []
  | cons {n : Nat} {b : β} {bs : List β} {r : ρ} {rs : List ρ} (first : row n b = .ok r)
      (rest : Numbered (n + 1) bs rs) : Numbered n (b :: bs) (r :: rs)

variable {select row}

theorem emit_none {state : List ρ × Nat} {label : α} (h : select label = none) :
    emit select row state label = .ok state := by
  unfold emit
  rw [h]

theorem emit_some {state : List ρ × Nat} {label : α} {b : β} (h : select label = some b) :
    emit select row state label = (row state.2 b).map fun r => (state.1 ++ [r], state.2 + 1) := by
  unfold emit
  rw [h]
  rfl

theorem numbered_cons_iff {n : Nat} {b : β} {bs : List β} {rs : List ρ} :
    Numbered row n (b :: bs) rs ↔ ∃ r rest, row n b = .ok r ∧ Numbered row (n + 1) bs rest ∧ rs = r :: rest := by
  constructor
  · intro h
    cases h with
    | @cons _ _ _ r rest first hrest => exact ⟨r, rest, first, hrest, rfl⟩
  · rintro ⟨r, rest, first, hrest, rfl⟩
    exact .cons first hrest

/-- **The rows of the selected labels**, and the number behind the last one. -/
theorem foldlM_emit {labels : List α} {state state' : List ρ × Nat} :
    labels.foldlM (emit select row) state = .ok state' ↔
      ∃ rs, Numbered row state.2 (labels.filterMap select) rs ∧
        state' = (state.1 ++ rs, state.2 + rs.length) := by
  induction labels generalizing state with
  | nil =>
      constructor
      · intro h
        obtain rfl := Except.ok.inj h
        exact ⟨[], .nil _, by rw [List.append_nil]; rfl⟩
      · rintro ⟨rs, hrs, rfl⟩
        cases hrs
        show Except.ok state = _
        rw [List.append_nil]
        rfl
  | cons label labels ih =>
      rw [List.foldlM_cons]
      rcases hselect : select label with _ | b
      · rw [List.filterMap_cons_none hselect, emit_none hselect]
        exact ih
      · simp only [List.filterMap_cons_some hselect, emit_some hselect, numbered_cons_iff]
        rcases hrow : row state.2 b with error | r
        · refine iff_of_false (fun h => nomatch h) ?_
          rintro ⟨rs, ⟨r, rest, hr, -⟩, -⟩
          cases hr
        · -- the first row stands in front of the others
          have hfront (rest : List ρ) : (state.1 ++ [r] ++ rest, state.2 + 1 + rest.length) =
              (state.1 ++ r :: rest, state.2 + (r :: rest).length) := by
            rw [List.append_assoc, List.length_cons, Nat.add_assoc, Nat.add_comm 1]
            rfl
          refine (@ih (state.1 ++ [r], state.2 + 1)).trans ?_
          constructor
          · rintro ⟨rest, hrest, rfl⟩
            exact ⟨r :: rest, ⟨r, rest, rfl, hrest, rfl⟩, hfront rest⟩
          · rintro ⟨rs, ⟨r', rest, hr, hrest, rfl⟩, rfl⟩
            obtain rfl := Except.ok.inj hr
            exact ⟨rest, hrest, (hfront rest).symm⟩

theorem Numbered.length {n : Nat} {bs : List β} {rs : List ρ} (h : Numbered row n bs rs) :
    rs.length = bs.length := by
  induction h with
  | nil => rfl
  | cons first rest ih => rw [List.length_cons, List.length_cons, ih]

/-- The row of each label, at its place and with its number. -/
theorem Numbered.get {n : Nat} {bs : List β} {rs : List ρ} (h : Numbered row n bs rs) {i : Nat} {b : β}
    (hb : bs[i]? = some b) : ∃ r, rs[i]? = some r ∧ row (n + i) b = .ok r := by
  induction h generalizing i with
  | nil => cases hb
  | cons first rest ih =>
      rcases i with _ | i
      · obtain rfl := Option.some.inj hb
        exact ⟨_, rfl, first⟩
      · obtain ⟨r, hr, hrow⟩ := ih hb
        refine ⟨r, hr, ?_⟩
        rwa [Nat.add_assoc, Nat.add_comm 1] at hrow

/-- There are rows for all labels when there is one for each, under any number. -/
theorem exists_numbered {bs : List β} (h : ∀ b ∈ bs, ∀ n, ∃ r, row n b = .ok r) (n : Nat) :
    ∃ rs, Numbered row n bs rs := by
  induction bs generalizing n with
  | nil => exact ⟨[], .nil n⟩
  | cons b bs ih =>
      obtain ⟨hb, hbs⟩ := List.forall_mem_cons.mp h
      obtain ⟨r, hr⟩ := hb n
      obtain ⟨rs, hrs⟩ := ih hbs (n + 1)
      exact ⟨r :: rs, .cons hr hrs⟩

end TreeWalk
