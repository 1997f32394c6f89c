import Mathlib.Algebra.Order.Ring.Int
import Ucanopen.Lib.Run

/-! # Progress under interference

A system that works in rounds is disturbed by an environment. Each step of work
either completes a round or lowers a rank, and a disturbance raises the rank by
one at most. Counted over a whole schedule, the work that is not undone by
disturbances completes rounds.
-/

namespace Ucanopen.Run

variable {σ ε : Type*}

/-- How work and disturbances move a system through its rounds. A round takes as much
    work as the bound, when nothing disturbs it. -/
structure Rounds (step : σ → ε → σ) (good live : σ → Prop) (work disturbs : ε → Bool)
    (rank rounds : σ → Nat) (bound : Nat) : Prop where
  kept : ∀ s e, good s → good (step s e)
  /-- What has stopped does not start again. -/
  live_before : ∀ s e, live (step s e) → live s
  worked : ∀ s e, good s → work e = true → live (step s e) →
    rounds (step s e) = rounds s ∧ rank (step s e) + 1 ≤ rank s ∨
      rounds (step s e) = rounds s + 1 ∧ rank (step s e) + 1 ≤ rank s + bound
  disturbed : ∀ s e, good s → work e = false → rounds (step s e) = rounds s ∧
    rank (step s e) ≤ rank s + (disturbs e).toNat

namespace Rounds

variable {step : σ → ε → σ} {good live : σ → Prop} {work disturbs : ε → Bool}
  {rank rounds : σ → Nat} {bound : Nat}

theorem live_start (system : Rounds step good live work disturbs rank rounds bound) {s : σ}
    {es : List ε} (alive : live (run step s es)) : live s := by
  induction es generalizing s with
  | nil => exact alive
  | cons e es ih => exact system.live_before s e (ih alive)

/-- The work done is paid for by the rank, by disturbances and by completed rounds. -/
theorem account (system : Rounds step good live work disturbs rank rounds bound) {s : σ}
    {es : List ε} (start : good s) (alive : live (run step s es)) :
    rounds s ≤ rounds (run step s es) ∧
      es.countP work + rank (run step s es) ≤
        rank s + es.countP (fun e => !work e && disturbs e) +
          bound * (rounds (run step s es) - rounds s) := by
  induction es generalizing s with
  | nil => simp
  | cons e es ih =>
      obtain ⟨grow, paid⟩ := ih (system.kept s e start) alive
      rw [run_cons, List.countP_cons, List.countP_cons]
      cases kind : work e with
      | true =>
          have worked := system.worked s e start kind (system.live_start alive)
          simp only [Bool.not_true, Bool.false_and, Bool.false_eq_true, if_true, if_false]
          obtain ⟨same, lower⟩ | ⟨next, low⟩ := worked
          · rw [same] at grow paid
            omega
          · have split : rounds (run step (step s e) es) - rounds s =
                rounds (run step (step s e) es) - rounds (step s e) + 1 := by omega
            rw [split, Nat.mul_add]
            omega
      | false =>
          obtain ⟨same, raised⟩ := system.disturbed s e start kind
          rw [same] at grow paid
          cases disturbance : disturbs e with
          | true =>
              rw [disturbance, Bool.toNat_true] at raised
              simp only [Bool.not_false, Bool.true_and, Bool.false_eq_true, if_true, if_false]
              omega
          | false =>
              rw [disturbance, Bool.toNat_false] at raised
              simp only [Bool.not_false, Bool.true_and, Bool.false_eq_true, if_false]
              omega

/-- Enough work completes as many rounds as one likes. -/
theorem complete (system : Rounds step good live work disturbs rank rounds bound) {s : σ}
    {es : List ε} (start : good s) (alive : live (run step s es)) {n : Nat}
    (enough : rank s + es.countP (fun e => !work e && disturbs e) + bound * n <
      es.countP work + bound) : rounds s + n ≤ rounds (run step s es) := by
  obtain ⟨grow, paid⟩ := system.account start alive
  by_contra few
  have fewer : rounds (run step s es) - rounds s + 1 ≤ n := by omega
  have product := Nat.mul_le_mul_left bound fewer
  rw [Nat.mul_add] at product
  omega

end Rounds

/-! ## Loops of known cost -/

/-- What the iterations of a loop cost from the `k`-th on. -/
def costFrom (costs : List Nat) (k : Nat) : Nat := (costs.drop k).sum

theorem costFrom_next {costs : List Nat} {k cost : Nat} (here : costs[k]? = some cost) :
    costFrom costs k = cost + costFrom costs (k + 1) := by
  obtain ⟨inside, rfl⟩ := List.getElem?_eq_some_iff.mp here
  unfold costFrom
  rw [List.drop_eq_getElem_cons inside, List.sum_cons]

theorem costFrom_le (costs : List Nat) (k : Nat) : costFrom costs k ≤ costFrom costs 0 := by
  have whole : costFrom costs 0 = (costs.take k).sum + costFrom costs k := by
    rw [costFrom, costFrom, List.drop_zero, ← List.sum_append, List.take_append_drop]
  omega

end Ucanopen.Run
