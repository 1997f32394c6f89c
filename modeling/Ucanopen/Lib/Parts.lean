import Ucanopen.Lib.Run
import Ucanopen.Lib.Periodic
import Mathlib.Data.List.Induction

/-! # Parts of a system

A system that consumes one event after another is made of parts, and each event
makes a part take some steps of its own, often none. What is known of every run of
the part alone then holds of it inside the system, whatever the other parts do.
-/

namespace Ucanopen.Run

variable {σ τ ε δ : Type*} {step : σ → ε → σ} {step' : τ → δ → τ} {seen : σ → ε → List δ}

/-- What the events of a schedule amount to for a part. -/
def trace (step : σ → ε → σ) (seen : σ → ε → List δ) : σ → List ε → List δ
  | _, [] => []
  | s, e :: es => seen s e ++ trace step seen (step s e) es

theorem run_append (s : σ) (es fs : List ε) :
    run step s (es ++ fs) = run step (run step s es) fs := List.foldl_append

theorem trace_append (s : σ) (es fs : List ε) :
    trace step seen s (es ++ fs) = trace step seen s es ++ trace step seen (run step s es) fs := by
  induction es generalizing s with
  | nil => rfl
  | cons e es ih => simp only [List.cons_append, trace, run_cons, ih, List.append_assoc]

/-- A run of the system is a run of the part. -/
theorem part_run (part : σ → τ)
    (follows : ∀ s e, part (step s e) = run step' (part s) (seen s e)) (s : σ) (es : List ε) :
    part (run step s es) = run step' (part s) (trace step seen s es) := by
  induction es generalizing s with
  | nil => rfl
  | cons e es ih =>
      rw [run_cons, ih, follows, trace, run_append]

/-- A quantity that only grows, by what each event adds to it. -/
theorem grows_run (part : σ → List τ) {added : σ → ε → List τ}
    (grows : ∀ s e, part (step s e) = part s ++ added s e) (s : σ) (es : List ε) :
    part (run step s es) = part s ++ trace step added s es := by
  induction es generalizing s with
  | nil => exact (List.append_nil _).symm
  | cons e es ih =>
      rw [run_cons, ih, grows, trace, List.append_assoc]

/-- What is kept of the events' contributions is contributed by what is kept of each. -/
theorem filterMap_trace {κ : Type*} (f : δ → Option κ) (s : σ) (es : List ε) :
    (trace step seen s es).filterMap f = trace step (fun s e => (seen s e).filterMap f) s es := by
  induction es generalizing s with
  | nil => rfl
  | cons e es ih => rw [trace, trace, List.filterMap_append, ih]

/-- Whatever was contributed was contributed by some event of the schedule. -/
theorem mem_trace {d : δ} {s : σ} {es : List ε} (member : d ∈ trace step seen s es) :
    ∃ before e after, es = before ++ e :: after ∧ d ∈ seen (run step s before) e := by
  induction es generalizing s with
  | nil => exact absurd member List.not_mem_nil
  | cons e es ih =>
      obtain now | later := List.mem_append.mp member
      · exact ⟨[], e, es, rfl, now⟩
      · obtain ⟨before, e', after, rfl, here⟩ := ih later
        exact ⟨e :: before, e', after, rfl, here⟩

theorem stepsMeet_append {allowed : σ → ε → Prop} {s : σ} {es fs : List ε}
    (first : StepsMeet step allowed s es) (second : StepsMeet step allowed (run step s es) fs) :
    StepsMeet step allowed s (es ++ fs) := by
  induction es generalizing s with
  | nil => exact second
  | cons e es ih => exact ⟨first.1, ih first.2 second⟩

/-- A schedule that meets a condition meets it from the start on. -/
theorem StepsMeet.left {allowed : σ → ε → Prop} {s : σ} {es fs : List ε}
    (meet : StepsMeet step allowed s (es ++ fs)) : StepsMeet step allowed s es := by
  induction es generalizing s with
  | nil => trivial
  | cons e es ih => exact ⟨meet.1, ih meet.2⟩

/-- A condition on the events of the system becomes one on what the part sees of them. -/
theorem part_meets {allowed : σ → ε → Prop} {allowed' : τ → δ → Prop} (part : σ → τ)
    (follows : ∀ s e, part (step s e) = run step' (part s) (seen s e))
    (each : ∀ s e, allowed s e → StepsMeet step' allowed' (part s) (seen s e)) {s : σ}
    {es : List ε} (meet : StepsMeet step allowed s es) :
    StepsMeet step' allowed' (part s) (trace step seen s es) := by
  induction es generalizing s with
  | nil => trivial
  | cons e es ih =>
      have later := ih meet.2
      rw [follows] at later
      exact stepsMeet_append (each s e meet.1) later

/-- What a part's events amount to, read off the events of the system. -/
theorem trace_part {κ : Type*} (part : σ → τ) (seen' : τ → δ → List κ)
    (follows : ∀ s e, part (step s e) = run step' (part s) (seen s e)) (s : σ) (es : List ε) :
    trace step' seen' (part s) (trace step seen s es) =
      trace step (fun s e => trace step' seen' (part s) (seen s e)) s es := by
  induction es generalizing s with
  | nil => rfl
  | cons e es ih => rw [trace, trace, trace_append, ← follows, ih]

/-- The invariant rule for a state together with what was done so far. -/
theorem traced_invariant (Inv : List δ → σ → Prop) {s : σ} (start : Inv [] s)
    (preserved : ∀ done s e, Inv done s → Inv (done ++ seen s e) (step s e)) (es : List ε) :
    Inv (trace step seen s es) (run step s es) := by
  induction es using List.reverseRecOn with
  | nil => exact start
  | append_singleton es e ih =>
      have next := preserved _ _ e ih
      rw [run_append, trace_append, trace, trace, List.append_nil]
      exact next

/-! ## Parts kept in a list -/

section Lists

variable {f : σ → τ} {l : List σ} {k : ℕ}

/-- What replaces an element and looks the same leaves the view of the list as it is. -/
theorem map_set_same {a b : σ} (here : l[k]? = some a) (same : f b = f a) :
    (l.set k b).map f = l.map f := by
  rw [List.map_set, same]
  obtain ⟨inside, rfl⟩ := List.getElem?_eq_some_iff.mp here
  rw [← List.getElem_map f (h := by simpa using inside)]
  exact List.set_getElem_self _

theorem map_modify_same {g : σ → σ} (same : ∀ a, f (g a) = f a) :
    (l.modify k g).map f = l.map f := by
  apply List.ext_getElem?
  intro j
  rw [List.getElem?_map, List.getElem?_map, List.getElem?_modify]
  cases l[j]? with
  | none => rfl
  | some a =>
      by_cases here : k = j
      · simp [here, same]
      · simp [here]

end Lists

/-! ## Timers -/

section Timers

open Periodic

variable {T : Type*} [AddCommGroup T] [LinearOrder T]

/-- What a poll does to a timer: it is off, or it has a period and the time it runs from. -/
inductive Polled (now : T) : Option (T × T) → Option (T × T) → List T → Prop
  | off : Polled now none none []
  | early {period start : T} (before : now < start + period) :
      Polled now (some (period, start)) (some (period, start)) []
  | late {period start : T} (after : ¬ now < start + period) :
      Polled now (some (period, start)) (some (period, now)) [now]

/-- A part that is a timer. Some events poll it; nothing else touches it. -/
structure TimerIn (step : σ → ε → σ) (timer : σ → Option (T × T)) (poll : σ → ε → Option T)
    (sent : σ → ε → List T) : Prop where
  still : ∀ {s e}, poll s e = none → timer (step s e) = timer s ∧ sent s e = []
  polled : ∀ {s e now}, poll s e = some now → Polled now (timer s) (timer (step s e)) (sent s e)

/-- It fires at the polls as it does alone. -/
theorem TimerIn.sent_eq {timer : σ → Option (T × T)} {poll : σ → ε → Option T}
    {sent : σ → ε → List T} (is : TimerIn step timer poll sent) (s : σ) (es : List ε) :
    trace step sent s es =
      match timer s with
      | none => []
      | some (period, start) =>
          firings period start (trace step (fun s e => (poll s e).toList) s es) := by
  induction es generalizing s with
  | nil =>
      cases timer s <;> rfl
  | cons e es ih =>
      rw [trace, ih, trace]
      cases turn : poll s e with
      | none =>
          obtain ⟨kept, silent⟩ := is.still turn
          rw [kept, silent]
          rfl
      | some now =>
          have polled := is.polled turn
          generalize timer s = before at polled
          generalize timer (step s e) = after at polled
          generalize sent s e = sends at polled
          cases polled with
          | off => rfl
          | early before => exact (if_pos before).symm
          | late after => exact (if_neg after).symm

end Timers

end Ucanopen.Run
