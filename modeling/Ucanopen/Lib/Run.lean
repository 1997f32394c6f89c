import Mathlib.Data.List.Basic

/-! # Runs of a system under an arbitrary schedule

A system is a step function consuming one event. A schedule is any finite list
of events: an interrupt that arrives between two steps of a main loop is just
another event of the list. Quantifying over schedules is therefore quantifying
over interleavings of every length.
-/

namespace Ucanopen.Run

variable {σ ε τ : Type*} {step : σ → ε → σ} {s : σ}

/-- The state reached from `s` by consuming a whole schedule. -/
def run (step : σ → ε → σ) (s : σ) (schedule : List ε) : σ := schedule.foldl step s

@[simp] theorem run_nil : run step s [] = s := rfl

@[simp] theorem run_cons (e : ε) (es : List ε) :
    run step s (e :: es) = run step (step s e) es := rfl

/-- Safety by an inductive invariant: it holds at the start and every event
    preserves it, so it holds after every schedule. -/
theorem invariant (Inv : σ → Prop) (start : Inv s)
    (preserved : ∀ s e, Inv s → Inv (step s e)) : ∀ schedule, Inv (run step s schedule) := by
  intro schedule
  induction schedule generalizing s with
  | nil => exact start
  | cons e es ih => exact ih (preserved s e start)

/-- Every event of the schedule is consumed in a state that allows it. This
    restricts the environment of the system, never what the system computes. -/
def StepsMeet (step : σ → ε → σ) (allowed : σ → ε → Prop) : σ → List ε → Prop
  | _, [] => True
  | s, e :: es => allowed s e ∧ StepsMeet step allowed (step s e) es

instance (allowed : σ → ε → Prop) [∀ s e, Decidable (allowed s e)] :
    ∀ s es, Decidable (StepsMeet step allowed s es)
  | _, [] => .isTrue trivial
  | s, e :: es =>
      have := instDecidableStepsMeet allowed (step s e) es
      inferInstanceAs (Decidable (allowed s e ∧ StepsMeet step allowed (step s e) es))

theorem StepsMeet.and {allowed allowed' : σ → ε → Prop} {schedule : List ε}
    (meet : StepsMeet step allowed s schedule) (meet' : StepsMeet step allowed' s schedule) :
    StepsMeet step (fun s e => allowed s e ∧ allowed' s e) s schedule := by
  induction schedule generalizing s with
  | nil => trivial
  | cons e es ih => exact ⟨⟨meet.1, meet'.1⟩, ih meet.2 meet'.2⟩

/-- The invariant rule for the schedules a condition on single steps admits. -/
theorem invariant_of_steps (Inv : σ → Prop) {allowed : σ → ε → Prop} (start : Inv s)
    (preserved : ∀ s e, allowed s e → Inv s → Inv (step s e)) :
    ∀ schedule, StepsMeet step allowed s schedule → Inv (run step s schedule) := by
  intro schedule
  induction schedule generalizing s with
  | nil => exact fun _ => start
  | cons e es ih => exact fun meet => ih (preserved s e meet.1 start) meet.2

/-- Two systems look alike all along a schedule exactly when every step is one that they
    show alike. What a system shows after a step depends on what it shows before. -/
theorem views_agree_iff {other : σ → ε → σ} {t : σ} (view : σ → τ) {allowed : σ → ε → Prop}
    (respects : ∀ s t e, view s = view t → view (other s e) = view (other t e))
    (agree : ∀ s e, view (step s e) = view (other s e) ↔ allowed s e)
    (start : view s = view t) (schedule : List ε) :
    (∀ es, es <+: schedule → view (run step s es) = view (run other t es)) ↔
      StepsMeet step allowed s schedule := by
  induction schedule generalizing s t with
  | nil =>
      refine ⟨fun _ => trivial, fun _ es initial => ?_⟩
      obtain rfl := List.prefix_nil.mp initial
      exact start
  | cons e es ih =>
      have shown := respects s t e start
      constructor
      · intro alike
        have first : view (step s e) = view (other t e) := alike [e] ⟨es, rfl⟩
        refine ⟨(agree s e).mp (first.trans shown.symm), (ih first).mp fun es' initial => ?_⟩
        exact alike (e :: es') (List.cons_prefix_cons.mpr ⟨rfl, initial⟩)
      · rintro ⟨here, later⟩ es' initial
        cases es' with
        | nil => exact start
        | cons e' es' =>
            obtain ⟨rfl, rest⟩ := List.cons_prefix_cons.mp initial
            exact (ih (((agree s e').mpr here).trans shown)).mpr later es' rest

end Ucanopen.Run
