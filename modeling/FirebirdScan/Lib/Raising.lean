import Mathlib.Data.List.Forall2
import Mathlib.Tactic.TypeStar

/-!
# `Lib.Raising` — programs that raise, and the state they leave behind

A program over a state ends normally, or raises; either way it leaves a state. `Ends ok P Q` says that it ends normally
exactly if `ok` is true, in a state with `P`, and otherwise raises in a state with `Q`. There is one rule for a test
that may raise (`Ends.check`), and one for a sequence (`Ends.bind`). Where only the result matters, `bind_ok_iff` takes a
sequence apart, and `mapM_ok_iff` a traversal.

`Returns good P Q` is the same for a program without a state, and about what it returns and raises: it returns exactly if
`good` holds, with `P`, and what it raises otherwise has `Q`.
-/

namespace Raising

variable {σ : Type*}

/-- Go on if a call has succeeded, and raise otherwise. -/
def check (succeeds : Bool) (s : σ) : Except σ σ := if succeeds then .ok s else .error s

/-- How a program ends. -/
inductive Ends (P Q : σ → Prop) : Bool → Except σ σ → Prop
  | normally {s : σ} : P s → Ends P Q true (.ok s)
  | raising {s : σ} : Q s → Ends P Q false (.error s)

variable {P P' Q : σ → Prop} {ok ok' : Bool} {s : σ} {x : Except σ σ} {f : σ → Except σ σ}

theorem Ends.check (succeeds : Bool) (hP : P s) (hQ : Q s) : Ends P Q succeeds (Raising.check succeeds s) := by
  cases succeeds with
  | true => exact .normally hP
  | false => exact .raising hQ

/-- **One program after another.** What raises first decides. -/
theorem Ends.bind (h : Ends P Q ok x) (hf : ∀ s, P s → Ends P' Q ok' (f s)) : Ends P' Q (ok && ok') (x >>= f) := by
  cases h with
  | normally hP => exact hf _ hP
  | raising hQ => exact .raising hQ

/-! ## What a program returns -/

section Returns

variable {ε ε' α β : Type} {x : Except ε α}

/-- A sequence returns what its second part returns from what the first one does. -/
theorem bind_ok_iff {f : α → Except ε β} {b : β} : (x >>= f) = .ok b ↔ ∃ a, x = .ok a ∧ f a = .ok b := by
  cases x with
  | error e => exact iff_of_false nofun fun ⟨a, ha, _⟩ => nomatch ha
  | ok a =>
      constructor
      · intro h
        exact ⟨a, rfl, h⟩
      · rintro ⟨a', ha, h⟩
        rwa [Except.ok.inj ha]

/-- Another error is the same success. -/
theorem mapError_ok_iff {g : ε → ε'} {a : α} : x.mapError g = .ok a ↔ x = .ok a := by
  cases x with
  | error e => exact iff_of_false nofun nofun
  | ok b => exact ⟨fun h => congrArg Except.ok (Except.ok.inj h), fun h => congrArg Except.ok (Except.ok.inj h)⟩

theorem toOption_eq_some_iff {a : α} : x.toOption = some a ↔ x = .ok a := by
  cases x with
  | error e => exact iff_of_false nofun nofun
  | ok b => exact ⟨fun h => congrArg Except.ok (Option.some.inj h), fun h => congrArg some (Except.ok.inj h)⟩

/-- A traversal returns what each of its steps returns. -/
theorem mapM_ok_iff {f : α → Except ε β} {l : List α} {bs : List β} :
    l.mapM f = .ok bs ↔ List.Forall₂ (fun a b => f a = .ok b) l bs := by
  induction l generalizing bs with
  | nil =>
      rw [List.mapM_nil, List.forall₂_nil_left_iff]
      exact ⟨fun h => (Except.ok.inj h).symm, fun h => congrArg Except.ok h.symm⟩
  | cons a l ih =>
      rw [List.mapM_cons, List.forall₂_cons_left_iff]
      simp only [bind_ok_iff, ih]
      constructor
      · rintro ⟨b, hb, rest, hrest, hbs⟩
        exact ⟨b, rest, hb, hrest, (Except.ok.inj hbs).symm⟩
      · rintro ⟨b, rest, hb, hrest, rfl⟩
        exact ⟨b, hb, rest, hrest, rfl⟩

theorem toOption_bind {f : α → Except ε β} : (x >>= f).toOption = x.toOption.bind fun a => (f a).toOption := by
  cases x <;> rfl

end Returns

/-! ## What decides whether a program returns -/

section Decided

variable {ε α β : Type}

/-- The program returns something with `P` if `good` holds, and otherwise raises something with `Q`. -/
structure Returns (good : Prop) (P : α → Prop) (Q : ε → Prop) (x : Except ε α) : Prop where
  returns : good → ∃ a, x = .ok a ∧ P a
  raises : ¬good → ∃ e, x = .error e ∧ Q e

namespace Returns

variable {good good' : Prop} {P P' : α → Prop} {Q : ε → Prop} {x : Except ε α}

theorem done {a : α} (h : P a) : Returns True P Q (.ok a) where
  returns _ := ⟨a, rfl, h⟩
  raises hbad := absurd trivial hbad

theorem value (a : α) : Returns True (· = a) Q (.ok a) := done rfl

/-- What was returned. -/
theorem of_ok {a : α} (h : Returns good P Q x) (hx : x = .ok a) : good ∧ P a := by
  by_cases hgood : good
  · obtain ⟨a', ha', hP⟩ := h.returns hgood
    rw [hx] at ha'
    exact ⟨hgood, Except.ok.inj ha' ▸ hP⟩
  · obtain ⟨e, he, -⟩ := h.raises hgood
    rw [hx] at he
    cases he

/-- What was raised. -/
theorem of_error {e : ε} (h : Returns good P Q x) (hx : x = .error e) : ¬good ∧ Q e := by
  by_cases hgood : good
  · obtain ⟨a, ha, -⟩ := h.returns hgood
    rw [hx] at ha
    cases ha
  · obtain ⟨e', he', hQ⟩ := h.raises hgood
    rw [hx] at he'
    exact ⟨hgood, Except.error.inj he' ▸ hQ⟩

theorem ok_iff (h : Returns good P Q x) : (∃ a, x = .ok a) ↔ good := by
  constructor
  · rintro ⟨a, ha⟩
    exact (h.of_ok ha).1
  · intro hgood
    obtain ⟨a, ha, -⟩ := h.returns hgood
    exact ⟨a, ha⟩

theorem mono (h : Returns good P Q x) (hgood : good ↔ good') (hP : ∀ a, P a → P' a) : Returns good' P' Q x where
  returns hg := by
    obtain ⟨a, ha, hPa⟩ := h.returns (hgood.mpr hg)
    exact ⟨a, ha, hP a hPa⟩
  raises hbad := h.raises fun hg => hbad (hgood.mp hg)

/-- **One program after another.** -/
theorem bind {f : α → Except ε β} {R : β → Prop} (h : Returns good P Q x)
    (hf : ∀ a, P a → Returns good' R Q (f a)) : Returns (good ∧ good') R Q (x >>= f) where
  returns := by
    rintro ⟨hgood, hgood'⟩
    obtain ⟨a, rfl, hP⟩ := h.returns hgood
    exact (hf a hP).returns hgood'
  raises := by
    intro hbad
    by_cases hgood : good
    · obtain ⟨a, rfl, hP⟩ := h.returns hgood
      exact (hf a hP).raises fun hgood' => hbad ⟨hgood, hgood'⟩
    · obtain ⟨e, rfl, hQ⟩ := h.raises hgood
      exact ⟨e, rfl, hQ⟩

/-- A program that goes on without a chance to raise. -/
theorem map (g : α → β) {a : α} (h : Returns good (· = a) Q x) :
    Returns good (· = g a) Q (x >>= fun a => .ok (g a)) := by
  refine Returns.mono (h.bind ?_) (Iff.of_eq (and_true good)) fun _ => id
  rintro _ rfl
  exact value _

/-- **A traversal.** It returns if each of its steps does. -/
theorem mapM {l : List α} {f : α → Except ε β} {good : α → Prop} {R : α → β → Prop}
    (h : ∀ a ∈ l, Returns (good a) (R a) Q (f a)) :
    Returns (∀ a ∈ l, good a) (fun bs => List.Forall₂ R l bs) Q (l.mapM f) := by
  induction l with
  | nil =>
      rw [List.mapM_nil]
      exact (done .nil).mono (iff_of_true trivial (List.forall_mem_nil _)) fun _ => id
  | cons a l ih =>
      obtain ⟨ha, hl⟩ := List.forall_mem_cons.mp h
      rw [List.mapM_cons]
      refine (ha.bind fun b hb => (ih hl).bind fun bs hbs => done (.cons hb hbs)).mono ?_ fun _ => id
      rw [List.forall_mem_cons, and_true]

end Returns

end Decided

end Raising
