import Mathlib.Data.List.Basic
import Ucanopen.Lib.Run

/-! # Sequential servers

The meaning of a request server: requests are executed one after another from
an initial state, each on the state all earlier ones left, and each produces at
most one response. An interrupt-driven implementation is judged against this.
-/

namespace Ucanopen.Server

variable {σ ρ α : Type*}

/-- The state after a list of requests has been executed in order. -/
def after (exec : σ → ρ → Option α × σ) (s : σ) (requests : List ρ) : σ :=
  requests.foldl (fun s r => (exec s r).2) s

/-- What each request of a list was answered, in order. -/
def answers (exec : σ → ρ → Option α × σ) : σ → List ρ → List (Option α)
  | _, [] => []
  | s, r :: rs => (exec s r).1 :: answers exec (exec s r).2 rs

/-- The responses a list of requests produces, in order. -/
def responses (exec : σ → ρ → Option α × σ) (s : σ) (requests : List ρ) : List α :=
  (answers exec s requests).filterMap id

variable {exec : σ → ρ → Option α × σ}

@[simp] theorem after_nil (s : σ) : after exec s [] = s := rfl

@[simp] theorem after_cons (s : σ) (r : ρ) (rs : List ρ) :
    after exec s (r :: rs) = after exec (exec s r).2 rs := rfl

@[simp] theorem after_concat (s : σ) (rs : List ρ) (r : ρ) :
    after exec s (rs ++ [r]) = (exec (after exec s rs) r).2 := by
  simp [after]

theorem answers_append (s : σ) (rs ts : List ρ) :
    answers exec s (rs ++ ts) = answers exec s rs ++ answers exec (after exec s rs) ts := by
  induction rs generalizing s with
  | nil => rfl
  | cons r rs ih => simp only [List.cons_append, answers, ih, after_cons]

@[simp] theorem answers_concat (s : σ) (rs : List ρ) (r : ρ) :
    answers exec s (rs ++ [r]) = answers exec s rs ++ [(exec (after exec s rs) r).1] := by
  simp [answers_append, answers]

/-- Two servers that treat alike exactly the requests a condition admits go through
    the same answers and states exactly as long as the requests meet it. -/
theorem answers_congr_iff {other : σ → ρ → Option α × σ} {allowed : σ → ρ → Prop}
    (agree : ∀ s r, exec s r = other s r ↔ allowed s r) (s : σ) (requests : List ρ) :
    (∀ rs, rs <+: requests →
        answers exec s rs = answers other s rs ∧ after exec s rs = after other s rs) ↔
      Run.StepsMeet (fun s r => (exec s r).2) allowed s requests := by
  induction requests generalizing s with
  | nil =>
      refine ⟨fun _ => trivial, fun _ rs initial => ?_⟩
      obtain rfl := List.prefix_nil.mp initial
      exact ⟨rfl, rfl⟩
  | cons r requests ih =>
      constructor
      · intro alike
        obtain ⟨answer, state⟩ := alike [r] ⟨requests, rfl⟩
        have same : exec s r = other s r := Prod.ext (List.cons.inj answer).1 state
        refine ⟨(agree s r).mp same, (ih _).mp fun rs initial => ?_⟩
        obtain ⟨answers', state'⟩ := alike (r :: rs) (List.cons_prefix_cons.mpr ⟨rfl, initial⟩)
        simp only [answers, after_cons, ← same] at answers' state'
        exact ⟨(List.cons.inj answers').2, state'⟩
      · rintro ⟨here, later⟩ rs initial
        have same := (agree s r).mpr here
        cases rs with
        | nil => exact ⟨rfl, rfl⟩
        | cons r' rs =>
            obtain ⟨rfl, rest⟩ := List.cons_prefix_cons.mp initial
            obtain ⟨answers', state'⟩ := (ih _).mpr later rs rest
            rw [answers, answers, after_cons, after_cons, ← same]
            exact ⟨congrArg _ answers', state'⟩

/-- Where no request was refused, all were taken. -/
theorem taken_of_none_refused {β : Type*} {requests : List ρ} {taken : ρ → Bool} {content : ρ → β}
    (none : (requests.filter (!taken ·)).map content = []) : requests.filter taken = requests := by
  apply List.filter_eq_self.mpr
  intro r member
  have refused : r ∉ requests.filter (!taken ·) := by
    rw [List.map_eq_nil_iff.mp none]
    exact List.not_mem_nil
  simpa [member] using refused

end Ucanopen.Server
