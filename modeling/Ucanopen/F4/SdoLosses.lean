import Ucanopen.F4.SdoRuns

/-! # The responses an F4 server loses

`handle` drains `rsdo_queue_`, which the interrupt may refill meanwhile, into
`tsdo_queue_`, which nothing drains meanwhile. Both hold 16 entries, so what one
activation of `handle` can answer is bounded by 16 while what it can execute is
not. The count below is exact.
-/

namespace Ucanopen.F4

open Bytes

variable {α E : Type}

def Served.isAbort (r : Served) : Bool :=
  (ExpeditedSdo.fromPayload r.request).cs == SdoCsCodes.abort

namespace State

/-- The non-abort requests the `n`-th activation of `handle` popped. -/
def burst (s : State α E) (n : Nat) : Nat :=
  s.served.countP fun r => r.activation == n && !r.isAbort

/-- The responses the `n`-th activation of `handle` computed. -/
def answered (s : State α E) (n : Nat) : Nat :=
  s.served.countP fun r => r.activation == n && r.response.isSome

/-- Those of them that found `tsdo_queue_` full. -/
def lost (s : State α E) (n : Nat) : Nat :=
  s.served.countP fun r => r.activation == n && r.response.isSome && r.queueFull

/-- Every response `handle` computed is in `tsdo_queue_` or went to `put_frame`. -/
def NoSilentLoss (s : State α E) : Prop := s.delivered = s.produced

/-- Dropping elements changes what a list yields exactly when one of them yields
    something. -/
private theorem filterMap_filter_eq_iff {ρ β : Type} (p : ρ → Bool) (f : ρ → Option β)
    (l : List ρ) :
    (l.filter p).filterMap f = l.filterMap f ↔ ∀ r ∈ l, (f r).isSome = true → p r = true := by
  induction l with
  | nil => simp
  | cons r l ih =>
      have shorter : ((l.filter p).filterMap f).length ≤ (l.filterMap f).length :=
        (List.filter_sublist.filterMap f).length_le
      cases kept : p r with
      | true =>
          rw [List.filter_cons_of_pos kept]
          cases yield : f r with
          | none => simp [yield, kept, ih]
          | some b => simp [yield, kept, ih]
      | false =>
          rw [List.filter_cons_of_neg (by simp [kept])]
          cases yield : f r with
          | none => simp [yield, ih]
          | some b =>
              simp only [List.filterMap_cons, yield, List.mem_cons, forall_eq_or_imp, kept,
                Option.isSome_some, Bool.false_eq_true, imp_false, not_true_eq_false, false_and,
                iff_false]
              intro same
              rw [same, List.length_cons] at shorter
              omega

theorem noSilentLoss_iff {port : Port 8 E} {m : Machine E} {s : State α E}
    (sequential : Sequential port m s) : s.NoSilentLoss ↔ ∀ n, s.lost n = 0 := by
  unfold NoSilentLoss produced lost
  rw [sequential.delivered, filterMap_filter_eq_iff]
  simp only [List.countP_eq_zero, Bool.and_eq_true, beq_iff_eq, not_and, Bool.not_eq_true]
  constructor
  · intro kept n r member here
    simpa using kept r member here.2
  · intro none r member answered
    simpa using none r.activation r member ⟨rfl, answered⟩

/-- Within one activation nothing is sent, so `tsdo_queue_` counts the answers up
    to its capacity and every later one is lost. -/
structure Activations (s : State α E) : Prop where
  past : ∀ r ∈ s.served, r.activation ≤ s.activations
  queue : s.stage = .handle → s.sdo.tsdoQueue.items.length = min 16 (s.answered s.activations)
  lost : ∀ n, s.lost n = s.answered n - 16
  abort : ∀ r ∈ s.served, r.response.isSome = true → r.isAbort = false
  complete : s.core.fault = none → ∀ r ∈ s.served, r.isAbort = false → r.response.isSome = true

namespace Activations

variable {port : Port 8 E} {m : Machine E} {s t : State α E}

theorem init (attr : α) (node : NodeId) (m : Machine E) : Activations (init attr node m) where
  past := nofun
  queue := nofun
  lost := fun _ => rfl
  abort := nofun
  complete := fun _ => nofun

theorem recv {p : CanPayload} (inv : Activations s) (step : RecvStep s p t) : Activations t := by
  cases step with
  | mismatch => exact inv
  | overrun full => exact ⟨inv.past, inv.queue, inv.lost, inv.abort, inv.complete⟩
  | pushed room => exact ⟨inv.past, inv.queue, inv.lost, inv.abort, inv.complete⟩

/-- A new activation starts with nothing executed and an empty queue. -/
theorem activate (inv : Activations s) (drained : s.sdo.tsdoQueue.items = []) :
    Activations { s with stage := .handle, activations := s.activations + 1 } where
  past := fun r member => Nat.le_succ_of_le (inv.past r member)
  queue := by
    intro _
    have fresh : s.answered (s.activations + 1) = 0 := by
      rw [answered, List.countP_eq_zero]
      intro r member
      have past := inv.past r member
      have other : r.activation ≠ s.activations + 1 := by omega
      simp [other]
    change s.sdo.tsdoQueue.items.length = min 16 (s.answered (s.activations + 1))
    rw [drained, fresh]
    rfl
  lost := inv.lost
  abort := inv.abort
  complete := inv.complete

section Handle

variable (port) (request : CanPayload)

theorem handle_served : (s.handleIteration port request).served = s.served ++ [{
    request := request
    response := (port.execute s.core request).1
    activation := s.activations
    queueFull := s.sdo.tsdoQueue.full }] := rfl

theorem handle_answered (n : Nat) : (s.handleIteration port request).answered n =
    s.answered n +
      (if s.activations = n ∧ (port.execute s.core request).1.isSome = true then 1 else 0) := by
  unfold answered
  rw [handle_served, List.countP_append, List.countP_singleton]
  simp only [Bool.and_eq_true, beq_iff_eq]

theorem handle_lost (n : Nat) : (s.handleIteration port request).lost n =
    s.lost n +
      (if (s.activations = n ∧ (port.execute s.core request).1.isSome = true) ∧
        s.sdo.tsdoQueue.full = true then 1 else 0) := by
  unfold State.lost
  rw [handle_served, List.countP_append, List.countP_singleton]
  simp only [Bool.and_eq_true, beq_iff_eq]

/-- The queue is full from the sixteenth answer of the activation on. -/
theorem full_iff (inv : Activations s) (at_stage : s.stage = .handle) :
    s.sdo.tsdoQueue.full = true ↔ 16 ≤ s.answered s.activations := by
  rw [BoundedQueue.full_iff, inv.queue at_stage]
  omega

theorem handle (inv : Activations s) (at_stage : s.stage = .handle) :
    Activations (s.handleIteration port request) where
  past := by
    intro r member
    rw [handle_served] at member
    rcases List.mem_append.mp member with old | new
    · exact inv.past r old
    · rw [List.mem_singleton.mp new]
      exact Nat.le_refl _
  queue := by
    intro _
    have length := inv.queue at_stage
    have full := inv.full_iff at_stage
    change _ = min 16 ((s.handleIteration port request).answered s.activations)
    rw [handleIteration_tsdoQueue, List.length_append, length, handle_answered]
    cases (port.execute s.core request).1 with
    | none => simp
    | some response =>
        by_cases big : s.sdo.tsdoQueue.full = true
        · have past := full.mp big
          simp only [big, if_true, List.length_nil, Option.isSome_some, and_self]
          omega
        · have below : ¬ 16 ≤ s.answered s.activations := fun past => big (full.mpr past)
          simp only [big, Bool.false_eq_true, if_false, Option.toList_some,
            List.length_singleton, Option.isSome_some, and_self, if_true]
          omega
  lost := by
    intro n
    have full := inv.full_iff at_stage
    rw [handle_lost, handle_answered, inv.lost]
    by_cases here : s.activations = n ∧ (port.execute s.core request).1.isSome = true
    · obtain ⟨rfl, _⟩ := id here
      by_cases big : s.sdo.tsdoQueue.full = true
      · have past := full.mp big
        simp only [here, big, and_self, if_true]
        omega
      · have below : ¬ 16 ≤ s.answered s.activations := fun past => big (full.mpr past)
        simp only [here, big, Bool.false_eq_true, and_self, and_false, if_true, if_false]
        omega
    · simp only [here, false_and, if_false, Nat.add_zero]
  abort := by
    intro r member answered
    rw [handle_served] at member
    rcases List.mem_append.mp member with old | new
    · exact inv.abort r old answered
    · rw [List.mem_singleton.mp new] at answered ⊢
      apply beq_eq_false_iff_ne.mpr
      intro abort
      rw [port.execute_abort s.core abort] at answered
      exact absurd answered (by simp)
  complete := by
    intro alive r member request'
    rw [handleIteration_core] at alive
    rw [handle_served] at member
    rcases List.mem_append.mp member with old | new
    · exact inv.complete (port.execute_alive alive) r old request'
    · rw [List.mem_singleton.mp new] at request' ⊢
      exact port.execute_answers alive (beq_eq_false_iff_ne.mp request')

end Handle

theorem main (inv : Activations s) (sequential : Sequential port m s)
    (step : MainStep port s t) : Activations t := by
  cases step with
  | stopped => exact inv
  | stage next elsewhere drained =>
      exact ⟨inv.past, fun handle => absurd handle elsewhere, inv.lost, inv.abort, inv.complete⟩
  | activate at_stage => exact inv.activate (sequential.drained at_stage)
  | send payload at_stage front =>
      exact ⟨inv.past, fun handle => absurd (at_stage.symm.trans handle) nofun, inv.lost,
        inv.abort, inv.complete⟩
  | handle request at_stage front => exact inv.handle port request at_stage

theorem run [DecidableEq α] (port : Port 8 E) (attr : α) (node : NodeId) (m : Machine E)
    (schedule : List (Event α)) : Activations (runFrom port attr node m schedule) := by
  have both : Sequential port m _ ∧ Activations (runFrom port attr node m schedule) :=
      Run.invariant (fun s => Sequential port m s ∧ Activations s)
    ⟨Sequential.init port attr node m, init attr node m⟩
    (fun s e inv => ⟨inv.1.step e, by
      cases e with
      | recv attr frame => exact inv.2.recv (s.recv_step attr frame)
      | main => exact inv.2.main inv.1 (s.main_step port)⟩)
    schedule
  exact both.2

theorem answered_le_burst (inv : Activations s) (n : Nat) : s.answered n ≤ s.burst n := by
  apply List.countP_mono_left
  intro r member here
  simp only [Bool.and_eq_true, beq_iff_eq] at here ⊢
  exact ⟨here.1, by simp [inv.abort r member here.2]⟩

theorem answered_eq_burst (inv : Activations s) (alive : s.core.fault = none) (n : Nat) :
    s.answered n = s.burst n := by
  apply Nat.le_antisymm (inv.answered_le_burst n)
  apply List.countP_mono_left
  intro r member here
  simp only [Bool.and_eq_true, beq_iff_eq, Bool.not_eq_true'] at here ⊢
  exact ⟨here.1, inv.complete alive r member here.2⟩

end Activations

/-- A server loses a response exactly when some activation of `handle` executes
    more than 16 requests. No call of `on_sdo_overrun()` is on account of a lost
    response: each belongs to a frame that `recv` rejected. -/
theorem noSilentLoss_iff_burst [DecidableEq α] (port : Port 8 E) (attr : α) (node : NodeId)
    (m : Machine E) (schedule : List (Event α)) :
    ((∀ n, (runFrom port attr node m schedule).burst n ≤ 16) →
      (runFrom port attr node m schedule).NoSilentLoss) ∧
    ((runFrom port attr node m schedule).core.fault = none →
      (runFrom port attr node m schedule).NoSilentLoss →
      ∀ n, (runFrom port attr node m schedule).burst n ≤ 16) ∧
    (runFrom port attr node m schedule).overruns =
      (runFrom port attr node m schedule).rejected.length := by
  have sequential := Sequential.run port attr node m schedule
  have activations := Activations.run port attr node m schedule
  refine ⟨?_, ?_, sequential.overruns⟩
  · intro small
    apply (noSilentLoss_iff sequential).mpr
    intro n
    have bound := (activations.answered_le_burst n).trans (small n)
    rw [activations.lost]
    omega
  · intro alive kept n
    have none := (noSilentLoss_iff sequential).mp kept n
    rw [activations.lost, activations.answered_eq_burst alive] at none
    omega

/-! A dictionary without entries answers every read with an abort frame. Sixteen
requests fill `rsdo_queue_`, `handle` takes one, the interrupt brings one more,
and `handle` executes all seventeen. -/

section Refill

/-- A read of the object with index `i`. -/
def readRequest (i : Nat) : CanFrame := ⟨0x601, 8, BitVec.ofNat 64 (0x40 + 256 * i)⟩

def refill : List (Event Unit) :=
  (List.range 16).map (fun i => .recv () (readRequest i)) ++ List.replicate 4 .main ++
    [.recv () (readRequest 16)] ++ List.replicate 16 .main

def refilled : State Unit Unit :=
  runFrom (port .empty) () ⟨1⟩ ⟨fun _ => 0, ()⟩ refill

/-- The last of the seventeen answers is gone, and nothing was reported. -/
theorem refilled_loses :
    ¬ refilled.NoSilentLoss ∧ refilled.popped.length = 17 ∧ refilled.overruns = 0 := by
  have dropped : (AbortSdo.of 16 0 .objectNotFound).toPayload ∈ refilled.produced ∧
      (AbortSdo.of 16 0 .objectNotFound).toPayload ∉ refilled.delivered ∧
      refilled.popped.length = 17 ∧ refilled.overruns = 0 := by decide +kernel
  refine ⟨fun kept => dropped.2.1 ?_, dropped.2.2⟩
  rw [show refilled.delivered = refilled.produced from kept]
  exact dropped.1

end Refill

end State

end Ucanopen.F4
