import Mathlib.Data.List.Induction

/-!
# `Lib.Run` — runs of a deterministic step function

A run is a list of events folded over a state. `Meets` says that every step of a run is taken in a state
that allows its event. The rule is `run_invariant`: what one allowed step preserves holds in the state an
allowed run reaches, and `run_simulation` is the same for two runs of one list of events. Backwards,
`run_provenance` finds the step in which something came about.
-/

namespace Run

variable {σ τ ε : Type}

/-- The state a run reaches. -/
def run (step : σ → ε → σ) (s : σ) (events : List ε) : σ := events.foldl step s

@[simp] theorem run_nil (step : σ → ε → σ) (s : σ) : run step s [] = s := rfl

@[simp] theorem run_cons (step : σ → ε → σ) (s : σ) (e : ε) (es : List ε) :
    run step s (e :: es) = run step (step s e) es := rfl

theorem run_concat (step : σ → ε → σ) (s : σ) (es : List ε) (e : ε) :
    run step s (es ++ [e]) = step (run step s es) e := by
  rw [run, List.foldl_append]
  rfl

/-- Every event of the run is allowed in the state it meets. -/
def Meets (step : σ → ε → σ) (allowed : σ → ε → Prop) : σ → List ε → Prop
  | _, [] => True
  | s, e :: es => allowed s e ∧ Meets step allowed (step s e) es

/-- A run that meets the condition meets it up to any point. -/
theorem Meets.of_prefix {step : σ → ε → σ} {allowed : σ → ε → Prop} {ps es : List ε} (h : ps <+: es) :
    ∀ {s : σ}, Meets step allowed s es → Meets step allowed s ps := by
  obtain ⟨rest, rfl⟩ := h
  induction ps with
  | nil => intro s _; exact trivial
  | cons p ps ih => intro s hs; exact ⟨hs.1, ih hs.2⟩

/-- One more event. -/
theorem meets_concat {step : σ → ε → σ} {allowed : σ → ε → Prop} {s : σ} {es : List ε} {e : ε} :
    Meets step allowed s (es ++ [e]) ↔ Meets step allowed s es ∧ allowed (run step s es) e := by
  induction es generalizing s with
  | nil => exact and_comm
  | cons first es ih =>
      rw [List.cons_append, Meets, Meets, ih, run_cons, and_assoc]

/-- Events that are allowed in every state. -/
theorem Meets.of_forall {step : σ → ε → σ} {allowed : σ → ε → Prop} {es : List ε} (h : ∀ e ∈ es, ∀ s, allowed s e)
    (s : σ) : Meets step allowed s es := by
  induction es generalizing s with
  | nil => exact trivial
  | cons e es ih =>
      obtain ⟨he, hes⟩ := List.forall_mem_cons.mp h
      exact ⟨he s, ih hes (step s e)⟩

theorem Meets.always (step : σ → ε → σ) (s : σ) {es : List ε} : Meets step (fun _ _ => True) s es :=
  Meets.of_forall (fun _ _ _ => trivial) s

/-- **The invariant rule.** -/
theorem run_invariant {step : σ → ε → σ} {allowed : σ → ε → Prop} {inv : σ → Prop}
    (hstep : ∀ s e, inv s → allowed s e → inv (step s e)) {es : List ε} :
    ∀ {s : σ}, inv s → Meets step allowed s es → inv (run step s es) := by
  induction es with
  | nil => intro s hs _; exact hs
  | cons e es ih =>
      intro s hs hmeets
      exact ih (hstep s e hs hmeets.1) hmeets.2

/-- **The simulation rule**, for two runs of the same events. -/
theorem run_simulation {step : σ → ε → σ} {step' : τ → ε → τ} {rel : σ → τ → Prop}
    (hstep : ∀ s t e, rel s t → rel (step s e) (step' t e)) {es : List ε} :
    ∀ {s : σ} {t : τ}, rel s t → rel (run step s es) (run step' t es) := by
  induction es with
  | nil => intro s t h; exact h
  | cons e es ih =>
      intro s t h
      exact ih (hstep s t e h)

/-- **The converse**: if a disallowed step always loses the property, a run along which it holds throughout
    meets the condition. -/
theorem meets_of_forall_prefix {step : σ → ε → σ} {allowed : σ → ε → Prop} {inv good : σ → Prop}
    (hstep : ∀ s e, inv s → allowed s e → inv (step s e))
    (hbad : ∀ s e, inv s → ¬allowed s e → ¬good (step s e)) {es : List ε} :
    ∀ {s : σ}, inv s → (∀ ps, ps <+: es → good (run step s ps)) → Meets step allowed s es := by
  induction es with
  | nil => intro s _ _; exact trivial
  | cons e es ih =>
      intro s hs hgood
      have hallowed : allowed s e := by
        by_contra h
        exact hbad s e hs h (hgood [e] ⟨es, rfl⟩)
      refine ⟨hallowed, ih (hstep s e hs hallowed) fun ps hps => ?_⟩
      obtain ⟨rest, rfl⟩ := hps
      exact hgood (e :: ps) ⟨rest, rfl⟩

/-- **The provenance rule**: what is so at the end of a run, and was not at its start, came about in a step. -/
theorem run_provenance {step : σ → ε → σ} {mem : σ → Prop} {born : σ → σ → Prop}
    (hstep : ∀ s e, mem (step s e) → mem s ∨ born s (step s e)) {s : σ} (hs : ¬mem s) {es : List ε}
    (h : mem (run step s es)) :
    ∃ ps e, ps ++ [e] <+: es ∧ born (run step s ps) (run step s (ps ++ [e])) := by
  induction es using List.reverseRecOn with
  | nil => exact absurd h hs
  | append_singleton es e ih =>
      rw [run_concat] at h
      rcases hstep (run step s es) e h with hold | hborn
      · obtain ⟨ps, e', hps, hborn⟩ := ih hold
        exact ⟨ps, e', hps.trans (List.prefix_append es [e]), hborn⟩
      · refine ⟨es, e, List.prefix_rfl, ?_⟩
        rw [run_concat]
        exact hborn

end Run
