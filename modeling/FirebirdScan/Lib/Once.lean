import Mathlib.Data.List.Basic

/-!
# `Lib.Once` — what is made by the first call that succeeds

Calls share a cell behind a lock. Until the cell is full each call makes an attempt, which writes to the cell and may
throw; the first attempt that does not throw fills it, and every call behind that returns what it made. `calls_eq` says
so of any sequence of calls, for attempts that do not read what failed ones have left in the cell.
-/

namespace Once

variable {σ ε χ : Type}

structure Cell (σ : Type) where
  content : σ
  full : Bool := false

/-- What an attempt makes of the content, and whether it throws. -/
abbrev Attempt (σ ε χ : Type) := ε → σ → Except χ Unit × σ

namespace Cell

variable (attempt : Attempt σ ε χ)

/-- One call, under the lock. -/
def call (cell : Cell σ) (e : ε) : Except χ σ × Cell σ :=
  if cell.full then (.ok cell.content, cell)
  else
    match attempt e cell.content with
    | (.ok (), content) => (.ok content, ⟨content, true⟩)
    | (.error x, content) => (.error x, ⟨content, false⟩)

/-- The cell after some calls. -/
def after (cell : Cell σ) (es : List ε) : Cell σ := es.foldl (fun cell e => (cell.call attempt e).2) cell

/-- What calls one after the other return. -/
def calls : Cell σ → List ε → List (Except χ σ)
  | _, [] => []
  | cell, e :: es => (cell.call attempt e).1 :: calls (cell.call attempt e).2 es

end Cell

/-- The first result stands for all behind it. -/
def settle : List (Except χ σ) → List (Except χ σ)
  | [] => []
  | .error x :: rest => .error x :: settle rest
  | .ok v :: rest => .ok v :: rest.map fun _ => .ok v

/-- What an attempt comes to, whatever is in the cell. -/
structure Clean (attempt : Attempt σ ε χ) (outcome : ε → Except χ σ) : Prop where
  error : ∀ {e x}, outcome e = .error x → ∀ s, (attempt e s).1 = .error x
  ok : ∀ {e v}, outcome e = .ok v → ∀ s, attempt e s = (.ok (), v)

/-! ## Settled results -/

section Settle

variable {v w : σ}

/-- Results do not differ. -/
theorem settle_ok_unique {results : List (Except χ σ)} (hv : .ok v ∈ settle results) (hw : .ok w ∈ settle results) :
    v = w := by
  induction results with
  | nil => cases hv
  | cons r rest ih =>
      cases r with
      | error x =>
          rw [settle, List.mem_cons] at hv hw
          exact ih (hv.resolve_left nofun) (hw.resolve_left nofun)
      | ok u =>
          have hall {v : σ} (h : (.ok v : Except χ σ) ∈ settle (.ok u :: rest)) : v = u := by
            rw [settle, List.mem_cons, List.mem_map] at h
            rcases h with h | ⟨-, -, h⟩
            · exact Except.ok.inj h
            · exact (Except.ok.inj h).symm
          rw [hall hv, hall hw]

/-- A result comes from the first that is one. -/
theorem settle_first {results : List (Except χ σ)} (h : .ok v ∈ settle results) :
    ∃ before r after, results = before ++ r :: after ∧ (∀ r ∈ before, ∀ v, r ≠ .ok v) ∧ r = .ok v := by
  induction results with
  | nil => cases h
  | cons r rest ih =>
      cases r with
      | error x =>
          rw [settle, List.mem_cons] at h
          obtain ⟨before, r, after, rfl, hbefore, hr⟩ := ih (h.resolve_left nofun)
          refine ⟨.error x :: before, r, after, rfl, ?_, hr⟩
          intro r' hr'
          rcases List.mem_cons.mp hr' with rfl | hr'
          · exact nofun
          · exact hbefore r' hr'
      | ok u =>
          refine ⟨[], .ok u, rest, rfl, nofun, ?_⟩
          rw [settle, List.mem_cons, List.mem_map] at h
          rcases h with h | ⟨-, -, h⟩
          · exact h.symm
          · exact h

end Settle

/-! ## Calls -/

namespace Cell

variable {attempt : Attempt σ ε χ} {outcome : ε → Except χ σ} {cell : Cell σ}

theorem call_full (h : cell.full = true) (e : ε) : cell.call attempt e = (.ok cell.content, cell) := if_pos h

theorem call_error (hclean : Clean attempt outcome) (h : cell.full = false) {e : ε} {x : χ}
    (he : outcome e = .error x) : (cell.call attempt e).1 = .error x ∧ (cell.call attempt e).2.full = false := by
  have hattempt := hclean.error he cell.content
  unfold call
  rw [if_neg (by rw [h]; exact Bool.false_ne_true)]
  rcases hresult : attempt e cell.content with ⟨r, content⟩
  rw [hresult] at hattempt
  obtain rfl : r = .error x := hattempt
  exact ⟨rfl, rfl⟩

theorem call_ok (hclean : Clean attempt outcome) (h : cell.full = false) {e : ε} {v : σ} (he : outcome e = .ok v) :
    cell.call attempt e = (.ok v, ⟨v, true⟩) := by
  unfold call
  rw [if_neg (by rw [h]; exact Bool.false_ne_true), hclean.ok he]

theorem calls_full (h : cell.full = true) (es : List ε) :
    cell.calls attempt es = es.map fun _ => .ok cell.content := by
  induction es with
  | nil => rfl
  | cons e es ih => rw [calls, call_full h, ih, List.map_cons]

/-- **What calls return** are the outcomes of their attempts, up to the first that succeeds. -/
theorem calls_eq (hclean : Clean attempt outcome) (h : cell.full = false) (es : List ε) :
    cell.calls attempt es = settle (es.map outcome) := by
  induction es generalizing cell with
  | nil => rfl
  | cons e es ih =>
      rw [List.map_cons]
      rcases he : outcome e with x | v
      · obtain ⟨hreturns, hempty⟩ := call_error hclean h he
        rw [calls, hreturns, ih hempty, settle]
      · rw [calls, call_ok hclean h he, calls_full rfl, settle, List.map_map]
        rfl

/-- **The result of a call** is that of the first attempt that succeeds, its own if no earlier one did. -/
theorem call_after_ok (hclean : Clean attempt outcome) (h : cell.full = false) {es : List ε} {e : ε} {v : σ}
    (hcall : ((cell.after attempt es).call attempt e).1 = .ok v) :
    ∃ first, (es ++ [e]).find? (fun e => (outcome e).isOk) = some first ∧ outcome first = .ok v := by
  induction es generalizing cell with
  | nil =>
      rcases he : outcome e with x | w
      · rw [show cell.after attempt [] = cell from rfl, (call_error hclean h he).1] at hcall
        cases hcall
      · rw [show cell.after attempt [] = cell from rfl, call_ok hclean h he] at hcall
        obtain rfl := Except.ok.inj hcall
        refine ⟨e, ?_, he⟩
        rw [List.nil_append, List.find?_cons_of_pos (by rw [he]; rfl)]
  | cons first es ih =>
      rcases hfirst : outcome first with x | w
      · obtain ⟨found, hfound, houtcome⟩ := ih (call_error hclean h hfirst).2 hcall
        refine ⟨found, ?_, houtcome⟩
        rw [List.cons_append, List.find?_cons_of_neg (by rw [hfirst]; exact Bool.false_ne_true)]
        exact hfound
      · -- the cell is full from here on
        have hfull (es : List ε) : (⟨w, true⟩ : Cell σ).after attempt es = ⟨w, true⟩ := by
          induction es with
          | nil => rfl
          | cons e es ih => exact ih
        have hafter : cell.after attempt (first :: es) = ⟨w, true⟩ := by
          show ((cell.call attempt first).2).after attempt es = _
          rw [call_ok hclean h hfirst, hfull]
        rw [hafter, call_full rfl] at hcall
        obtain rfl := Except.ok.inj hcall
        refine ⟨first, ?_, hfirst⟩
        rw [List.cons_append, List.find?_cons_of_pos (by rw [hfirst]; rfl)]

end Cell

end Once
