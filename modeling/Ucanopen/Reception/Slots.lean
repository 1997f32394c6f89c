import Ucanopen.Def
import Ucanopen.Lib.Run
import Mathlib.Data.List.FinRange
import Mathlib.Logic.Function.Basic

/-! # Reception slots and the loop that handles them

The RPDO services and the nodes of both ports keep one slot per message. The
receive interrupt stores a frame in the slot of its attribute; the main loop
goes over the slots, runs the handler of each unhandled one and clears its flag.
The ports differ in what the interrupt does with a slot that is still unhandled,
so the loop is stated once, over the receive function.

A handler gets a reference to the payload in the slot. It reads the eight bytes
one by one, and the interrupt may arrive between any two of these reads.
-/

namespace Ucanopen.Reception

open Bytes

variable {n : Nat} {α φ : Type}

/-- `Message` of the RPDO services, `RxMessage` of the nodes. -/
structure Message (α φ : Type) where
  attr : α
  timeout : Int
  timepoint : Int
  unhandled : Bool
  frame : CanFrame
  handler : Option φ

abbrev Table (n : Nat) (α φ : Type) := Fin n → Message α φ

/-- `CobRpdo::rpdo1`, the first of the four RPDO slots. -/
def rpdo1 : Fin 4 := 0

/-- `CobRpdo::rpdo2`. -/
def rpdo2 : Fin 4 := 1

/-- `std::find_if` for the attribute. -/
def slotOf [DecidableEq α] (t : Table n α φ) (attr : α) : Option (Fin n) :=
  (List.finRange n).find? fun i => decide ((t i).attr = attr)

theorem attr_of_slotOf [DecidableEq α] {t : Table n α φ} {attr : α} {i : Fin n}
    (found : slotOf t attr = some i) : (t i).attr = attr := by
  have met := List.find?_some found
  exact of_decide_eq_true met

/-- An attribute leads to the first slot that has it. -/
theorem slotOf_eq_some_iff [DecidableEq α] {t : Table n α φ} {attr : α} {j : Fin n} :
    slotOf t attr = some j ↔ attr = (t j).attr ∧ ∀ i < j, (t i).attr ≠ (t j).attr := by
  unfold slotOf
  rw [List.find?_eq_some_iff_getElem]
  simp only [decide_eq_true_eq, List.getElem_finRange, Bool.not_eq_true', decide_eq_false_iff_not]
  constructor
  · rintro ⟨mine, k, inside, rfl, before⟩
    refine ⟨mine.symm, fun i earlier => ?_⟩
    rw [mine]
    exact before i earlier
  · rintro ⟨rfl, before⟩
    refine ⟨rfl, j, by simp, rfl, fun i earlier => ?_⟩
    exact before ⟨i, earlier.trans j.isLt⟩ earlier

/-- The attribute that one slot alone has leads to that slot. -/
theorem slotOf_eq_iff [DecidableEq α] {t : Table n α φ} {j : Fin n}
    (alone : ∀ i, (t i).attr = (t j).attr → i = j) (attr : α) :
    slotOf t attr = some j ↔ attr = (t j).attr := by
  rw [slotOf_eq_some_iff]
  exact and_iff_left fun i before same => before.ne (alone i same)

/-- What the receive functions do to the slot they store a frame in. -/
def store (t : Table n α φ) (i : Fin n) (frame : CanFrame) (now : Int) : Table n α φ :=
  Function.update t i { t i with timepoint := now, frame := frame, unhandled := true }

/-- What the loop does to a slot after its handler has returned. -/
def clear (t : Table n α φ) (i : Fin n) : Table n α φ :=
  Function.update t i { t i with unhandled := false }

@[simp] theorem store_self (t : Table n α φ) (i : Fin n) (frame : CanFrame) (now : Int) :
    store t i frame now i = { t i with timepoint := now, frame := frame, unhandled := true } :=
  Function.update_self i _ t

@[simp] theorem store_other (t : Table n α φ) {i j : Fin n} (other : j ≠ i) (frame : CanFrame)
    (now : Int) : store t i frame now j = t j := Function.update_of_ne other _ t

@[simp] theorem clear_self (t : Table n α φ) (i : Fin n) :
    clear t i i = { t i with unhandled := false } := Function.update_self i _ t

@[simp] theorem clear_other (t : Table n α φ) {i j : Fin n} (other : j ≠ i) :
    clear t i j = t j := Function.update_of_ne other _ t

@[simp] theorem store_attr (t : Table n α φ) (i : Fin n) (frame : CanFrame) (now : Int)
    (j : Fin n) : (store t i frame now j).attr = (t j).attr := by
  by_cases same : j = i
  · subst same
    simp
  · simp [same]

@[simp] theorem store_timeout (t : Table n α φ) (i : Fin n) (frame : CanFrame) (now : Int)
    (j : Fin n) : (store t i frame now j).timeout = (t j).timeout := by
  by_cases same : j = i
  · subst same
    simp
  · simp [same]

@[simp] theorem clear_attr (t : Table n α φ) (i j : Fin n) :
    (clear t i j).attr = (t j).attr := by
  by_cases same : j = i
  · subst same
    simp
  · simp [same]

@[simp] theorem clear_timeout (t : Table n α φ) (i j : Fin n) :
    (clear t i j).timeout = (t j).timeout := by
  by_cases same : j = i
  · subst same
    simp
  · simp [same]

@[simp] theorem clear_timepoint (t : Table n α φ) (i j : Fin n) :
    (clear t i j).timepoint = (t j).timepoint := by
  by_cases same : j = i
  · subst same
    simp
  · simp [same]

/-- The ways a receive function returns. `overrun` calls `on_rpdo_overrun()`,
    `dropped` returns without a word. -/
inductive Outcome (n : Nat) where
  | mismatch
  | overrun (i : Fin n)
  | dropped (i : Fin n)
  | stored (i : Fin n)
  deriving Repr, DecidableEq

/-- A receive function: attribute, frame and the time `now()` returns. -/
abbrev Receiver (n : Nat) (α φ : Type) :=
  Table n α φ → α → CanFrame → Int → Outcome n × Table n α φ

/-- The eight bytes of a payload, as a handler reads them. -/
def bytesOf (p : CanPayload) : List Byte := (List.range 8).map (byte p)

theorem bytesOf_take_succ (p : CanPayload) {k : Nat} (inside : k < 8) :
    (bytesOf p).take (k + 1) = (bytesOf p).take k ++ [byte p k] := by
  simp [bytesOf, List.take_add_one, inside]

/-! ## The system -/

/-- What an observer of one service sees. -/
inductive Obs (n : Nat) where
  | registered (i : Fin n) (time : Int)
  | stored (i : Fin n) (frame : CanFrame) (time : Int)
  | refused (i : Fin n) (frame : CanFrame) (time : Int)
  | passStart
  | invoked (i : Fin n) (payload : CanPayload)
  | completed (i : Fin n) (bytes : List Byte)
  | passEnd
  deriving Repr, DecidableEq

/-- Where the main loop stands with respect to the service. -/
inductive Point (n : Nat) where
  /-- Anywhere outside the handle function. -/
  | outside
  /-- `if (msg.unhandled && msg.handler != nullptr)` for slot `i`. -/
  | test (i : Fin n)
  /-- In the handler of slot `i`, which has read these bytes. -/
  | reading (i : Fin n) (bytes : List Byte)
  /-- `msg.unhandled = false;` for slot `i`. -/
  | returned (i : Fin n)
  /-- After the last slot. -/
  | finished
  deriving Repr, DecidableEq

/-- The loop at index `i`. -/
def Point.goto (i : Nat) : Point n := if inside : i < n then .test ⟨i, inside⟩ else .finished

@[simp] theorem Point.goto_ne_reading (k : Nat) (i : Fin n) (bytes : List Byte) :
    Point.goto k ≠ .reading i bytes := by
  unfold goto
  split <;> nofun

@[simp] theorem Point.goto_ne_returned (k : Nat) (i : Fin n) : Point.goto k ≠ .returned i := by
  unfold goto
  split <;> nofun

structure State (n : Nat) (α φ : Type) where
  table : Table n α φ
  point : Point n
  now : Int
  /-- Calls of `on_rpdo_overrun()`. -/
  overruns : Nat
  /-- Oldest first. -/
  log : List (Obs n)

inductive Event (α : Type) where
  | recv (attr : α) (frame : CanFrame)
  | main
  | advance (time : Nat)

namespace State

def init (t : Table n α φ) (now : Int) : State n α φ where
  table := t
  point := .outside
  now := now
  overruns := 0
  log := []

/-- The interrupt. -/
def recv (receiver : Receiver n α φ) (s : State n α φ) (attr : α) (frame : CanFrame) :
    State n α φ :=
  match receiver s.table attr frame s.now with
  | (.mismatch, table) => { s with table := table }
  | (.overrun i, table) =>
      { s with
        table := table
        overruns := s.overruns + 1
        log := s.log ++ [.refused i frame s.now] }
  | (.dropped i, table) => { s with table := table, log := s.log ++ [.refused i frame s.now] }
  | (.stored i, table) => { s with table := table, log := s.log ++ [.stored i frame s.now] }

/-- The next step of the main loop. -/
def main (s : State n α φ) : State n α φ :=
  match s.point with
  | .outside => { s with point := .goto 0, log := s.log ++ [.passStart] }
  | .test i =>
      if (s.table i).unhandled && (s.table i).handler.isSome then
        { s with
          point := .reading i []
          log := s.log ++ [.invoked i (s.table i).frame.payload] }
      else { s with point := .goto (i + 1) }
  | .reading i bytes =>
      if bytes.length < 8 then
        { s with point := .reading i (bytes ++ [byte (s.table i).frame.payload bytes.length]) }
      else { s with point := .returned i, log := s.log ++ [.completed i bytes] }
  | .returned i => { s with table := clear s.table i, point := .goto (i + 1) }
  | .finished => { s with point := .outside, log := s.log ++ [.passEnd] }

def step (receiver : Receiver n α φ) (s : State n α φ) : Event α → State n α φ
  | .recv attr frame => s.recv receiver attr frame
  | .main => s.main
  | .advance time => { s with now := s.now + time }

/-- The ways a step of the main loop can change the state. -/
inductive MainStep (s : State n α φ) : State n α φ → Prop
  | start (at_point : s.point = .outside) :
      MainStep s { s with point := .goto 0, log := s.log ++ [.passStart] }
  | skip (i : Fin n) (at_point : s.point = .test i)
      (idle : ((s.table i).unhandled && (s.table i).handler.isSome) = false) :
      MainStep s { s with point := .goto (i + 1) }
  | invoke (i : Fin n) (at_point : s.point = .test i)
      (due : ((s.table i).unhandled && (s.table i).handler.isSome) = true) :
      MainStep s
        { s with
          point := .reading i []
          log := s.log ++ [.invoked i (s.table i).frame.payload] }
  | read (i : Fin n) (bytes : List Byte) (at_point : s.point = .reading i bytes)
      (more : bytes.length < 8) :
      MainStep s
        { s with point := .reading i (bytes ++ [byte (s.table i).frame.payload bytes.length]) }
  | complete (i : Fin n) (bytes : List Byte) (at_point : s.point = .reading i bytes)
      (all : ¬ bytes.length < 8) :
      MainStep s { s with point := .returned i, log := s.log ++ [.completed i bytes] }
  | clear (i : Fin n) (at_point : s.point = .returned i) :
      MainStep s { s with table := Reception.clear s.table i, point := .goto (i + 1) }
  | finish (at_point : s.point = .finished) :
      MainStep s { s with point := .outside, log := s.log ++ [.passEnd] }

theorem main_step (s : State n α φ) : MainStep s s.main := by
  unfold main
  cases at_point : s.point with
  | outside => exact .start at_point
  | test i =>
      by_cases due : ((s.table i).unhandled && (s.table i).handler.isSome) = true
      · simp only [if_pos due]
        exact .invoke i at_point due
      · simp only [if_neg due]
        exact .skip i at_point (Bool.eq_false_iff.mpr due)
  | reading i bytes =>
      by_cases more : bytes.length < 8
      · simp only [if_pos more]
        exact .read i bytes at_point more
      · simp only [if_neg more]
        exact .complete i bytes at_point more
  | returned i => exact .clear i at_point
  | finished => exact .finish at_point

end State

/-! ## What the log says about one slot -/

namespace Obs

/-- A frame stored in slot `j`. -/
@[simp] def storedIn (j : Fin n) : Obs n → Option CanPayload
  | .stored i frame _ => if i = j then some frame.payload else none
  | _ => none

/-- What the handler of slot `j` read, when it returned. -/
@[simp] def completedBy (j : Fin n) : Obs n → Option (List Byte)
  | .completed i bytes => if i = j then some bytes else none
  | _ => none

/-- A frame that arrived for slot `j`, stored or not. -/
@[simp] def arrivedFor (j : Fin n) : Obs n → Option CanFrame
  | .stored i frame _ => if i = j then some frame else none
  | .refused i frame _ => if i = j then some frame else none
  | _ => none

/-- An arrival, for any slot, that was not stored. -/
@[simp] def refusal : Obs n → Option (Fin n × CanFrame)
  | .refused i frame _ => some (i, frame)
  | _ => none

end Obs

namespace State

def stored (s : State n α φ) (j : Fin n) : List CanPayload := s.log.filterMap (Obs.storedIn j)

def completed (s : State n α φ) (j : Fin n) : List (List Byte) :=
  s.log.filterMap (Obs.completedBy j)

def arrivals (s : State n α φ) (j : Fin n) : List CanFrame := s.log.filterMap (Obs.arrivedFor j)

def refused (s : State n α φ) : List (Fin n × CanFrame) := s.log.filterMap Obs.refusal

end State

/-- The frames of a schedule that have the attribute. -/
def matching [DecidableEq α] (attr : α) (schedule : List (Event α)) : List CanFrame :=
  schedule.filterMap fun
    | .recv a frame => if a = attr then some frame else none
    | _ => none

end Ucanopen.Reception
