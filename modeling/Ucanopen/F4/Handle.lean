import Ucanopen.F4.Reception
import Mathlib.Logic.Relation

/-! # A whole pass of the handle functions

Where no interrupt disturbs it, a pass of the main loop over the slots is one
function of the table: it calls the handler of every unhandled slot that has one
and clears the flags of these slots.
-/

namespace Ucanopen.F4

open Bytes Reception

variable {n : Nat} {α φ : Type}

/-- The loop over the slots: the table it leaves, and the handlers it calls. -/
def handleSlots : List (Fin n) → Table n α φ → Table n α φ × List (Fin n × CanPayload)
  | [], t => (t, [])
  | i :: is, t =>
      if (t i).unhandled && (t i).handler.isSome then
        let rest := handleSlots is (clear t i)
        (rest.1, (i, (t i).frame.payload) :: rest.2)
      else handleSlots is t

def RpdoService.handle (t : Table 4 α φ) : Table 4 α φ × List (Fin 4 × CanPayload) :=
  handleSlots (List.finRange 4) t

def Node.handle (t : Table n α φ) : Table n α φ × List (Fin n × CanPayload) :=
  handleSlots (List.finRange n) t

/-! ## What a pass does to each slot -/

/-- The slot is unhandled and has a handler. -/
def due (t : Table n α φ) (i : Fin n) : Bool := (t i).unhandled && (t i).handler.isSome

theorem due_clear (t : Table n α φ) {i j : Fin n} (other : j ≠ i) : due (clear t i) j = due t j := by
  unfold due
  rw [clear_other t other]

theorem due_clear_self (t : Table n α φ) (i : Fin n) : due (clear t i) i = false := by
  simp [due]

theorem handleSlots_cons (i : Fin n) (is : List (Fin n)) (t : Table n α φ) :
    handleSlots (i :: is) t =
      ((handleSlots is (if due t i = true then clear t i else t)).1,
        (if due t i = true then [(i, (t i).frame.payload)] else []) ++
          (handleSlots is (if due t i = true then clear t i else t)).2) := by
  have unfolded : handleSlots (i :: is) t =
      if due t i = true then
        ((handleSlots is (clear t i)).1, (i, (t i).frame.payload) :: (handleSlots is (clear t i)).2)
      else handleSlots is t := rfl
  rw [unfolded]
  split <;> rfl

theorem handleSlots_table (is : List (Fin n)) (t : Table n α φ) (j : Fin n) :
    (handleSlots is t).1 j =
      if j ∈ is ∧ due t j = true then { t j with unhandled := false } else t j := by
  induction is generalizing t with
  | nil => simp [handleSlots]
  | cons i is ih =>
      rw [handleSlots_cons]
      cases now : due t i with
      | true =>
          simp only [if_true, ih]
          by_cases here : j = i
          · subst here
            simp [now, due_clear_self]
          · simp [due_clear t here, here]
      | false =>
          simp only [Bool.false_eq_true, if_false, ih]
          by_cases here : j = i
          · subst here
            simp [now]
          · simp [here]

theorem handleSlots_calls {is : List (Fin n)} (once : is.Nodup) (t : Table n α φ) :
    (handleSlots is t).2 = (is.filter (due t)).map fun i => (i, (t i).frame.payload) := by
  induction is generalizing t with
  | nil => rfl
  | cons i is ih =>
      obtain ⟨fresh, once⟩ := List.nodup_cons.mp once
      rw [handleSlots_cons]
      cases now : due t i with
      | true =>
          have later : ∀ j ∈ is, j ≠ i := by
            rintro j member rfl
            exact fresh member
          have same : is.filter (due (clear t i)) = is.filter (due t) :=
            List.filter_congr fun j member => due_clear t (later j member)
          have payloads : ((is.filter (due t)).map fun j => (j, (clear t i j).frame.payload)) =
              (is.filter (due t)).map fun j => (j, (t j).frame.payload) := by
            apply List.map_congr_left
            intro j member
            rw [clear_other t (later j (List.mem_of_mem_filter member))]
          rw [List.filter_cons_of_pos now, List.map_cons, ← payloads, ← same, ← ih once]
          rfl
      | false =>
          rw [List.filter_cons_of_neg (by simp [now]), ← ih once]
          rfl

/-! ## The main loop performs it -/

section Undisturbed

/-- The main loop gets from one state to the other without an interrupt. -/
abbrev Undisturbed : State n α φ → State n α φ → Prop := Relation.ReflTransGen State.MainStep

/-- A call of a handler. -/
@[simp] def invocation : Obs n → Option (Fin n × CanPayload)
  | .invoked i payload => some (i, payload)
  | _ => none

/-- A handler that has read `k` bytes reads the others and returns. -/
theorem reading_returns {s : State n α φ} {i : Fin n} {p : CanPayload} {k m : Nat}
    (rest : k + m = 8) (payload : (s.table i).frame.payload = p)
    (reading : s.point = .reading i ((bytesOf p).take k)) :
    Undisturbed s
      { s with point := .returned i, log := s.log ++ [.completed i (bytesOf p)] } := by
  have length : (bytesOf p).length = 8 := by simp [bytesOf]
  have read : ((bytesOf p).take k).length = k := by
    rw [List.length_take]
    omega
  induction m generalizing s k with
  | zero =>
      have all : (bytesOf p).take k = bytesOf p := List.take_of_length_le (by omega)
      rw [all] at reading
      exact .single (.complete i _ reading (by omega))
  | succ m ih =>
      have step := State.MainStep.read i _ reading (by omega)
      rw [read, payload, ← bytesOf_take_succ _ (by omega)] at step
      apply Relation.ReflTransGen.head step
      refine ih (k := k + 1) (s := { s with point := .reading i ((bytesOf p).take (k + 1)) })
        (by omega) payload rfl ?_
      rw [List.length_take]
      omega

/-- What one round of the loop adds to the log. -/
def round (t : Table n α φ) (i : Fin n) : List (Obs n) :=
  if due t i = true then
    [.invoked i (t i).frame.payload, .completed i (bytesOf (t i).frame.payload)]
  else []

theorem invocation_round (t : Table n α φ) (i : Fin n) :
    (round t i).filterMap invocation =
      if due t i = true then [(i, (t i).frame.payload)] else [] := by
  unfold round
  split <;> rfl

/-- One round of the loop. -/
theorem slot_handled {s : State n α φ} {i : Fin n} (at_point : s.point = .test i) :
    Undisturbed s
      { s with
        table := if due s.table i = true then clear s.table i else s.table
        point := .goto (i + 1)
        log := s.log ++ round s.table i } := by
  unfold round
  cases now : due s.table i with
  | false =>
      have skipped := State.MainStep.skip i at_point now
      simpa using Relation.ReflTransGen.single skipped
  | true =>
      have returns := reading_returns (k := 0) (m := 8) (i := i)
        (s := { s with
          point := .reading i []
          log := s.log ++ [.invoked i (s.table i).frame.payload] }) rfl rfl rfl
      have cleared := returns.tail (.clear i rfl)
      have all := Relation.ReflTransGen.head (State.MainStep.invoke i at_point now) cleared
      simpa using all

/-- The remaining rounds of the loop. -/
theorem slots_handled {s : State n α φ} {i left : Nat} (rest : i + left = n)
    (at_point : s.point = .goto i) :
    ∃ obs, Undisturbed s
        { s with
          table := (handleSlots ((List.finRange n).drop i) s.table).1
          point := .finished
          log := s.log ++ obs } ∧
      obs.filterMap invocation = (handleSlots ((List.finRange n).drop i) s.table).2 := by
  induction left generalizing s i with
  | zero =>
      obtain rfl : i = n := by omega
      have none : (List.finRange i).drop i = [] := by simp
      have finished : s.point = .finished := by simpa [Point.goto] using at_point
      rw [none]
      refine ⟨[], ?_, rfl⟩
      rw [List.append_nil, ← finished]
      exact .refl
  | succ left ih =>
      have inside : i < n := by omega
      have next : (List.finRange n).drop i = ⟨i, inside⟩ :: (List.finRange n).drop (i + 1) := by
        rw [List.drop_eq_getElem_cons (by simpa using inside), List.getElem_finRange]
        rfl
      have test : s.point = .test ⟨i, inside⟩ := by
        rw [at_point]
        exact dif_pos inside
      have one := slot_handled test
      obtain ⟨obs, others, calls⟩ := ih (i := i + 1) (s := { s with
        table := if due s.table ⟨i, inside⟩ = true then clear s.table ⟨i, inside⟩ else s.table
        point := .goto (i + 1)
        log := s.log ++ round s.table ⟨i, inside⟩ }) (by omega) rfl
      rw [next, handleSlots_cons]
      refine ⟨round s.table ⟨i, inside⟩ ++ obs, ?_, ?_⟩
      · rw [← List.append_assoc]
        exact one.trans others
      · rw [List.filterMap_append, invocation_round, calls]

/-- An undisturbed pass of the main loop does what `handle` does. -/
theorem pass_handled {s : State n α φ} (at_point : s.point = .outside) :
    ∃ obs, Undisturbed s { s with table := (Node.handle s.table).1, log := s.log ++ obs } ∧
      obs.filterMap invocation = (Node.handle s.table).2 := by
  obtain ⟨obs, all, calls⟩ := slots_handled (i := 0)
    (s := { s with point := .goto 0, log := s.log ++ [.passStart] }) (Nat.zero_add n) rfl
  have started := Relation.ReflTransGen.head (State.MainStep.start at_point) all
  have finished := started.tail (.finish rfl)
  refine ⟨.passStart :: obs ++ [.passEnd], ?_, ?_⟩
  · simpa [Node.handle, at_point] using finished
  · rw [List.cons_append, List.filterMap_cons_none rfl, List.filterMap_append, calls]
    exact List.append_nil _

end Undisturbed

end Ucanopen.F4
