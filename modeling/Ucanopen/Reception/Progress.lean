import Ucanopen.Reception.Slots

/-! # The loop over the slots ends

A pass over the slots takes a bounded number of steps, whatever the interrupt stores
meanwhile: a slot that is filled again behind the loop waits for the next pass.
-/

namespace Ucanopen.Reception.State

variable {n : Nat} {α φ : Type}

/-- Steps until the loop ends: a message takes eleven at most. -/
def left (s : State n α φ) : Nat :=
  match s.point with
  | .outside => 11 * n + 2
  | .test i => 11 * (n - i) + 1
  | .reading i bytes => 11 * (n - (i + 1)) + 3 + (8 - bytes.length)
  | .returned i => 11 * (n - (i + 1)) + 2
  | .finished => 1

/-- The steps left when the loop goes on at index `i`. -/
theorem left_goto (s : State n α φ) (i : Nat) (at_point : s.point = .goto i) :
    s.left = 11 * (n - i) + 1 ∧ s.point ≠ .outside := by
  unfold Point.goto at at_point
  split at at_point
  · exact ⟨by simp [left, at_point], by simp [at_point]⟩
  · refine ⟨?_, by simp [at_point]⟩
    simp only [left, at_point]
    omega

theorem left_pos (s : State n α φ) : 1 ≤ s.left ∧ s.left ≤ 11 * n + 2 := by
  unfold left
  split
  · omega
  · omega
  · have inside := (‹Fin n›).isLt
    omega
  · have inside := (‹Fin n›).isLt
    omega
  · omega

theorem main_left (s : State n α φ) : s.main.point = .outside ∨ s.main.left + 1 ≤ s.left := by
  have step := s.main_step
  generalize s.main = t at step ⊢
  cases step with
  | start at_point =>
      right
      rw [(left_goto _ 0 rfl).1]
      simp only [left, at_point]
      omega
  | skip i at_point =>
      right
      rw [(left_goto _ (i + 1) rfl).1]
      simp only [left, at_point]
      omega
  | invoke i at_point =>
      right
      simp only [left, at_point, List.length_nil]
      omega
  | read i bytes at_point more =>
      right
      simp only [left, at_point, List.length_append, List.length_singleton]
      omega
  | complete i bytes at_point =>
      right
      simp only [left, at_point]
      omega
  | clear i at_point =>
      right
      rw [(left_goto _ (i + 1) rfl).1]
      simp only [left, at_point]
      omega
  | finish at_point => exact .inl rfl

theorem recv_left (receiver : Receiver n α φ) (s : State n α φ) (attr : α) (frame : CanFrame) :
    (s.recv receiver attr frame).left = s.left := by
  unfold recv
  split <;> rfl

end Ucanopen.Reception.State
