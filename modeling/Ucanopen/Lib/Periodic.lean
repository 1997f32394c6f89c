import Mathlib.Algebra.Order.Group.Defs
import Mathlib.Algebra.Order.Monoid.Unbundled.Basic
import Mathlib.Data.List.Chain
import Mathlib.Algebra.Order.Ring.Int

/-! # Periodic timers that are polled

A timer is polled at certain times. It fires at a poll once a period has passed
since it last fired, or since it was set, and then runs from the time of that
poll. How far apart its firings are is bounded from below by the period, and from
above by the period and the gaps between polls.
-/

namespace Ucanopen.Periodic

variable {T : Type*} [AddCommGroup T] [LinearOrder T]

/-- When a timer that was set at `start` fires. -/
def firings (period : T) : T → List T → List T
  | _, [] => []
  | start, now :: polls =>
      if now < start + period then firings period start polls
      else now :: firings period now polls

/-- A timer fires at polls only, and once at each. -/
theorem firings_sublist (period start : T) (polls : List T) :
    (firings period start polls).Sublist polls := by
  induction polls generalizing start with
  | nil => exact .slnil
  | cons now polls ih =>
      unfold firings
      split
      · exact (ih start).cons now
      · exact (ih now).cons_cons now

theorem firings_append (period start : T) (polls later : List T) :
    firings period start (polls ++ later) =
      firings period start polls ++
        firings period ((firings period start polls).getLastD start) later := by
  induction polls generalizing start with
  | nil => rfl
  | cons now polls ih =>
      simp only [List.cons_append, firings]
      split
      · exact ih start
      · rw [ih now, List.getLastD_cons, List.cons_append]

theorem firings_single (period start now : T) :
    firings period start [now] = if start + period ≤ now then [now] else [] := by
  by_cases early : now < start + period
  · rw [if_neg (not_le.mpr early)]
    exact if_pos early
  · rw [if_pos (not_lt.mp early)]
    exact if_neg early

/-- Whether a poll fires is decided by the last firing. -/
theorem firings_concat (period start : T) (polls : List T) (now : T) :
    firings period start (polls ++ [now]) =
      firings period start polls ++
        if (firings period start polls).getLastD start + period ≤ now then [now] else [] := by
  rw [firings_append, firings_single]

theorem firings_apart (period start : T) (polls : List T) :
    (start :: firings period start polls).IsChain fun s t => s + period ≤ t := by
  induction polls generalizing start with
  | nil => exact .singleton start
  | cons now polls ih =>
      unfold firings
      split
      · exact ih start
      · exact .cons_cons (not_lt.mp ‹_›) (ih now)

section Ordered

variable [IsOrderedAddMonoid T] {period start gap : T}

/-- Polls that are at most `gap` apart find the timer before it is overdue by `gap`. -/
theorem firings_close_from {previous : T} (positive : 0 < period)
    (pending : previous < start + period) {polls : List T}
    (often : (previous :: polls).IsChain fun s t => t ≤ s + gap) :
    (start :: firings period start polls).IsChain fun s t => t < s + period + gap := by
  induction polls generalizing start previous with
  | nil => exact .singleton start
  | cons now polls ih =>
      rw [List.isChain_cons_cons] at often
      have soon : now < start + period + gap := often.1.trans_lt (add_lt_add_left pending gap)
      unfold firings
      split
      · exact ih ‹_› often.2
      · exact .cons_cons soon (ih (lt_add_of_pos_right now positive) often.2)

theorem firings_close (positive : 0 < period) {polls : List T}
    (often : (start :: polls).IsChain fun s t => t ≤ s + gap) :
    (start :: firings period start polls).IsChain fun s t => t < s + period + gap :=
  firings_close_from positive (lt_add_of_pos_right start positive) often

/-- Any two firings are a period apart. -/
theorem firings_pairwise (positive : 0 < period) (start : T) (polls : List T) :
    (firings period start polls).Pairwise fun s t => s + period ≤ t := by
  have : IsTrans T fun s t => s + period ≤ t :=
    ⟨fun r s t first second =>
      first.trans ((le_add_of_nonneg_right positive.le).trans second)⟩
  exact (List.isChain_iff_pairwise.mp (firings_apart period start polls)).of_cons

/-- Times a period apart that fit below a bound are few. -/
theorem length_nsmul_le {first bound : T} {times : List T}
    (apart : (first :: times).Pairwise fun s t => s + period ≤ t)
    (below : ∀ t ∈ first :: times, t ≤ bound) : first + times.length • period ≤ bound := by
  induction times generalizing first with
  | nil => simpa using below first (.head _)
  | cons second times ih =>
      obtain ⟨next, rest⟩ := List.pairwise_cons.mp apart
      calc first + (times.length + 1) • period
          = first + period + times.length • period := by rw [succ_nsmul', add_assoc]
        _ ≤ second + times.length • period := add_le_add_left (next second (.head _)) _
        _ ≤ bound := ih rest fun t member => below t (.tail _ member)

end Ordered

/-! ## Integer time -/

/-- A window holds at most one firing more than periods. -/
theorem firings_in_window {period : ℤ} (positive : 0 < period) (start : ℤ) (polls : List ℤ)
    (left : ℤ) {length : ℤ} (nonneg : 0 ≤ length) :
    (((firings period start polls).filter fun t =>
      decide (left ≤ t ∧ t ≤ left + length)).length : ℤ) ≤ length / period + 1 := by
  have apart := (firings_pairwise positive start polls).filter
    fun t => decide (left ≤ t ∧ t ≤ left + length)
  have inside : ∀ t ∈ (firings period start polls).filter
      (fun t => decide (left ≤ t ∧ t ≤ left + length)), left ≤ t ∧ t ≤ left + length := by
    intro t member
    have met := List.of_mem_filter member
    exact of_decide_eq_true met
  generalize (firings period start polls).filter _ = times at apart inside
  cases times with
  | nil =>
      have floor : 0 ≤ length / period := Int.ediv_nonneg nonneg positive.le
      simpa using Int.le_add_one floor
  | cons first times =>
      have fits := length_nsmul_le apart fun t member => (inside t member).2
      have after := (inside first (.head _)).1
      rw [nsmul_eq_mul] at fits
      have few : (times.length : ℤ) ≤ length / period := by
        apply Int.le_ediv_of_mul_le positive
        omega
      simpa using few

/-- What a periodic sender promises, as the times it sends at when it is polled. -/
structure KeepsRate (period start : ℤ) (sent : List ℤ → List ℤ) : Prop where
  /-- It sends at polls only, at most once at each. -/
  polled : ∀ polls, (sent polls).Sublist polls
  /-- The first is a period after the start, each other a period after the last. -/
  apart : ∀ polls, (start :: sent polls).IsChain fun s t => s + period ≤ t
  /-- A poll that late sends, once. -/
  due : ∀ polls now, sent (polls ++ [now]) =
    sent polls ++ if (sent polls).getLastD start + period ≤ now then [now] else []
  window : ∀ polls left length, 0 ≤ length →
    (((sent polls).filter fun t => decide (left ≤ t ∧ t ≤ left + length)).length : ℤ) ≤
      length / period + 1
  close : ∀ polls gap, ((start :: polls).IsChain fun s t => t ≤ s + gap) →
    (start :: sent polls).IsChain fun s t => t < s + period + gap

theorem firings_keepsRate {period : ℤ} (positive : 0 < period) (start : ℤ) :
    KeepsRate period start (firings period start) where
  polled := firings_sublist period start
  apart := firings_apart period start
  due := firings_concat period start
  window := fun polls left _ nonneg => firings_in_window positive start polls left nonneg
  close := fun _ _ often => firings_close positive often

end Ucanopen.Periodic
