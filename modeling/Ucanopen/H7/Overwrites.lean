import Ucanopen.H7.Reception
import Ucanopen.F4.Supervision
import Ucanopen.F4.Watchdog
import Ucanopen.Lib.Parts

/-! # What overwriting a slot does to its handler

`recv_frame` of the H7 port takes every frame, and so refreshes the supervision time
with every frame. A handler that is interrupted reads on in the new frame: what it
has read then is the beginning of older frames and the end of newer ones.
-/

namespace Ucanopen.H7

open Bytes Reception

variable {n : Nat} {α φ : Type}

/-! ## Bytes of several frames -/

/-- Byte `k` is byte `k` of a payload, and later bytes are not from older payloads. -/
def Spliced (payloads : List CanPayload) (bytes : List Byte) : Prop :=
  ∃ origin : Nat → Nat, Monotone origin ∧
    ∀ k < bytes.length, ∃ p, payloads[origin k]? = some p ∧ bytes[k]? = some (byte p k)

namespace Spliced

variable {payloads : List CanPayload} {bytes : List Byte}

theorem nil (payloads : List CanPayload) : Spliced payloads [] :=
  ⟨id, monotone_id, fun _ inside => absurd inside (Nat.not_lt_zero _)⟩

theorem later (spliced : Spliced payloads bytes) (more : List CanPayload) :
    Spliced (payloads ++ more) bytes := by
  obtain ⟨origin, ordered, each⟩ := spliced
  refine ⟨origin, ordered, fun k inside => ?_⟩
  obtain ⟨p, here, same⟩ := each k inside
  exact ⟨p, (List.getElem?_append_left (List.getElem?_eq_some_iff.mp here).1).trans here, same⟩

/-- The next byte is read from the newest payload. -/
theorem read (spliced : Spliced payloads bytes) {p : CanPayload}
    (newest : payloads.getLast? = some p) :
    Spliced payloads (bytes ++ [byte p bytes.length]) := by
  obtain ⟨origin, ordered, each⟩ := spliced
  have last : payloads[payloads.length - 1]? = some p := by
    rw [← List.getLast?_eq_getElem?]
    exact newest
  refine ⟨fun k => if k < bytes.length then origin k else payloads.length - 1, ?_, ?_⟩
  · intro k l le
    dsimp only
    by_cases inside : l < bytes.length
    · rw [if_pos (lt_of_le_of_lt le inside), if_pos inside]
      exact ordered le
    · rw [if_neg inside]
      split
      · rename_i before
        obtain ⟨q, here, _⟩ := each k before
        have bound := (List.getElem?_eq_some_iff.mp here).1
        omega
      · exact le_rfl
  · intro k inside
    rw [List.length_append, List.length_singleton] at inside
    by_cases before : k < bytes.length
    · obtain ⟨q, here, same⟩ := each k before
      refine ⟨q, ?_, ?_⟩
      · simp only [if_pos before]
        exact here
      · rw [List.getElem?_append_left before]
        exact same
    · obtain rfl : k = bytes.length := by omega
      refine ⟨p, ?_, List.getElem?_concat_length⟩
      simp only [if_neg before]
      exact last

end Spliced

/-- What the handler of slot `j` has read, and reads, is spliced from stored frames. -/
structure Splices (s : State n α φ) (j : Fin n) : Prop where
  slot : (s.table j).unhandled = false ∧ s.stored j = [] ∨
    (s.stored j).getLast? = some (s.table j).frame.payload
  reading : ∀ bytes, s.point = .reading j bytes →
    bytes.length ≤ 8 ∧ Spliced (s.stored j) bytes ∧ s.stored j ≠ []
  completed : ∀ bytes ∈ s.completed j, bytes.length = 8 ∧ Spliced (s.stored j) bytes

namespace Splices

variable {s t : State n α φ} {j : Fin n}

theorem init {table : Table n α φ} (idle : ∀ i, (table i).unhandled = false) (now : Int)
    (j : Fin n) : Splices (.init table now) j where
  slot := .inl ⟨idle j, rfl⟩
  reading := nofun
  completed := nofun

theorem newest (inv : Splices s j) (some_stored : s.stored j ≠ []) :
    (s.stored j).getLast? = some (s.table j).frame.payload := by
  obtain none | last := inv.slot
  · exact absurd none.2 some_stored
  · exact last

theorem recv [DecidableEq α] {attr : α} {frame : CanFrame} (inv : Splices s j)
    (step : RecvStep s attr frame t) : Splices t j := by
  cases step with
  | mismatch => exact inv
  | stored i found =>
      have completed : State.completed
          { s with
            table := store s.table i frame s.now
            log := s.log ++ [.stored i frame s.now] } j = s.completed j := by
        simp [State.completed]
      by_cases same : i = j
      · subst same
        have more : State.stored
            { s with
              table := store s.table i frame s.now
              log := s.log ++ [.stored i frame s.now] } i = s.stored i ++ [frame.payload] := by
          simp [State.stored]
        refine ⟨.inr ?_, fun bytes at_point => ?_, fun bytes member => ?_⟩
        · rw [more]
          simp
        · obtain ⟨length, spliced, _⟩ := inv.reading bytes at_point
          rw [more]
          exact ⟨length, spliced.later _, by simp⟩
        · rw [completed] at member
          obtain ⟨length, spliced⟩ := inv.completed bytes member
          rw [more]
          exact ⟨length, spliced.later _⟩
      · have kept : State.stored
            { s with
              table := store s.table i frame s.now
              log := s.log ++ [.stored i frame s.now] } j = s.stored j := by
          simp [State.stored, same]
        refine ⟨?_, ?_, ?_⟩
        · rw [kept]
          simp only [store_other s.table (Ne.symm same)]
          exact inv.slot
        · rw [kept]
          exact inv.reading
        · rw [kept, completed]
          exact inv.completed

/-- A step of the loop that neither reads nor returns from the handler of slot `j`. -/
theorem quiet {obs : List (Obs n)} (inv : Splices s j) (log : t.log = s.log ++ obs)
    (slot : (t.table j).frame = (s.table j).frame ∧
      ((t.table j).unhandled = true → (s.table j).unhandled = true))
    (silent : obs.filterMap (Obs.storedIn j) = [] ∧ obs.filterMap (Obs.completedBy j) = [])
    (reading : ∀ bytes, t.point = .reading j bytes → s.point = .reading j bytes) :
    Splices t j := by
  have stored : t.stored j = s.stored j := by
    simp [State.stored, log, silent.1]
  have completed : t.completed j = s.completed j := by
    simp [State.completed, log, silent.2]
  refine ⟨?_, ?_, ?_⟩
  · rw [stored, slot.1]
    obtain ⟨handled, none⟩ | last := inv.slot
    · refine .inl ⟨?_, none⟩
      cases pending : (t.table j).unhandled with
      | false => rfl
      | true => exact absurd (handled.symm.trans (slot.2 pending)) nofun
    · exact .inr last
  · rw [stored]
    exact fun bytes at_point => inv.reading bytes (reading bytes at_point)
  · rw [stored, completed]
    exact inv.completed

theorem main (inv : Splices s j) (step : State.MainStep s t) : Splices t j := by
  cases step with
  | start at_point =>
      exact inv.quiet rfl ⟨rfl, id⟩ ⟨rfl, rfl⟩ fun bytes wrong =>
        (Point.goto_ne_reading _ _ _ wrong).elim
  | skip i at_point idle =>
      exact inv.quiet (List.append_nil _).symm ⟨rfl, id⟩ ⟨rfl, rfl⟩ fun bytes wrong =>
        (Point.goto_ne_reading _ _ _ wrong).elim
  | invoke i at_point due =>
      by_cases same : i = j
      · subst same
        have stored : s.stored i ≠ [] := by
          intro none
          obtain ⟨handled, _⟩ | last := inv.slot
          · rw [handled] at due
            exact absurd due nofun
          · rw [none] at last
            exact absurd last nofun
        have kept : State.stored
            { s with
              point := .reading i []
              log := s.log ++ [.invoked i (s.table i).frame.payload] } i = s.stored i := by
          simp [State.stored]
        have completed : State.completed
            { s with
              point := .reading i []
              log := s.log ++ [.invoked i (s.table i).frame.payload] } i = s.completed i := by
          simp [State.completed]
        refine ⟨?_, fun bytes at_point => ?_, ?_⟩
        · rw [kept]
          exact inv.slot
        · obtain rfl : bytes = [] := (Point.reading.inj at_point).2.symm
          rw [kept]
          exact ⟨Nat.zero_le _, Spliced.nil _, stored⟩
        · rw [kept, completed]
          exact inv.completed
      · refine inv.quiet rfl ⟨rfl, id⟩ ⟨rfl, rfl⟩ fun bytes wrong => ?_
        exact absurd (Point.reading.inj wrong).1 same
  | read i bytes at_point more =>
      by_cases same : i = j
      · subst same
        obtain ⟨_, spliced, stored⟩ := inv.reading bytes at_point
        refine ⟨inv.slot, fun bytes' at_point' => ?_, inv.completed⟩
        obtain rfl := (Point.reading.inj at_point').2
        refine ⟨?_, spliced.read (inv.newest stored), stored⟩
        rw [List.length_append, List.length_singleton]
        omega
      · refine inv.quiet (List.append_nil _).symm ⟨rfl, id⟩ ⟨rfl, rfl⟩ fun bytes' wrong => ?_
        exact absurd (Point.reading.inj wrong).1 same
  | complete i bytes at_point all =>
      by_cases same : i = j
      · subst same
        obtain ⟨length, spliced, _⟩ := inv.reading bytes at_point
        have kept : State.stored
            { s with
              point := .returned i
              log := s.log ++ [.completed i bytes] } i = s.stored i := by
          simp [State.stored]
        have completed : State.completed
            { s with
              point := .returned i
              log := s.log ++ [.completed i bytes] } i = s.completed i ++ [bytes] := by
          simp [State.completed]
        refine ⟨?_, nofun, fun bytes' member => ?_⟩
        · rw [kept]
          exact inv.slot
        · rw [completed] at member
          rw [kept]
          obtain before | now := List.mem_append.mp member
          · exact inv.completed bytes' before
          · obtain rfl := List.mem_singleton.mp now
            exact ⟨by omega, spliced⟩
      · exact inv.quiet rfl ⟨rfl, id⟩ (by simp [same]) nofun
  | clear i at_point =>
      refine inv.quiet (List.append_nil _).symm ?_ ⟨rfl, rfl⟩ fun bytes wrong =>
        (Point.goto_ne_reading _ _ _ wrong).elim
      by_cases same : j = i
      · subst same
        simp
      · simp [same]
  | finish at_point =>
      exact inv.quiet rfl ⟨rfl, id⟩ ⟨rfl, rfl⟩ nofun

theorem run [DecidableEq α] {table : Table n α φ} (idle : ∀ i, (table i).unhandled = false)
    (now : Int) (schedule : List (Event α)) (j : Fin n) :
    Splices (Run.run (State.step recvOverwrite) (.init table now) schedule) j := by
  apply Run.invariant (fun s => Splices s j) (Splices.init idle now j)
  intro s e inv
  cases e with
  | recv attr frame => exact inv.recv (slot_recv_step s attr frame)
  | main => exact inv.main s.main_step
  | advance time => exact ⟨inv.slot, inv.reading, inv.completed⟩

end Splices

/-! ## Undisturbed handlers -/

/-- The handler of slot `j` is called at most once for a stored frame, and reads it whole. -/
structure Whole (s : State n α φ) (j : Fin n) : Prop where
  splices : Splices s j
  reading : ∀ bytes, s.point = .reading j bytes →
    (s.table j).unhandled = true ∧
      bytes = (bytesOf (s.table j).frame.payload).take bytes.length
  pending : (s.table j).unhandled = true → s.point ≠ .returned j →
    (s.completed j).Sublist ((s.stored j).dropLast.map bytesOf)
  handled : (s.completed j).Sublist ((s.stored j).map bytesOf)

namespace Whole

variable {s t : State n α φ} {j : Fin n}

theorem init {table : Table n α φ} (idle : ∀ i, (table i).unhandled = false) (now : Int)
    (j : Fin n) : Whole (.init table now) j where
  splices := .init idle now j
  reading := nofun
  pending := fun wrong => absurd ((idle j).symm.trans wrong) nofun
  handled := .slnil

theorem recv [DecidableEq α] {attr : α} {frame : CanFrame} (inv : Whole s j)
    (clear : slotOf s.table attr = some j → ¬ Running j s.point)
    (step : RecvStep s attr frame t) : Whole t j := by
  have splices := inv.splices.recv step
  cases step with
  | mismatch => exact inv
  | stored i found =>
      have completed : State.completed
          { s with
            table := store s.table i frame s.now
            log := s.log ++ [.stored i frame s.now] } j = s.completed j := by
        simp [State.completed]
      by_cases same : i = j
      · subst same
        have more : State.stored
            { s with
              table := store s.table i frame s.now
              log := s.log ++ [.stored i frame s.now] } i = s.stored i ++ [frame.payload] := by
          simp [State.stored]
        refine ⟨splices, fun bytes at_point => ?_, fun _ _ => ?_, ?_⟩
        · exact absurd (show Running i s.point by rw [at_point]; rfl) (clear found)
        · rw [completed, more, List.dropLast_concat]
          exact inv.handled
        · rw [completed, more, List.map_append]
          exact inv.handled.trans (List.sublist_append_left ..)
      · have kept : State.stored
            { s with
              table := store s.table i frame s.now
              log := s.log ++ [.stored i frame s.now] } j = s.stored j := by
          simp [State.stored, same]
        have slot : store s.table i frame s.now j = s.table j := store_other _ (Ne.symm same) _ _
        refine ⟨splices, ?_, ?_, ?_⟩
        · simp only [slot]
          exact inv.reading
        · rw [completed, kept]
          simp only [slot]
          exact inv.pending
        · rw [completed, kept]
          exact inv.handled

/-- A step of the loop that has nothing to do with slot `j`. -/
theorem quiet {obs : List (Obs n)} (inv : Whole s j) (splices : Splices t j)
    (log : t.log = s.log ++ obs) (slot : t.table j = s.table j)
    (silent : obs.filterMap (Obs.storedIn j) = [] ∧ obs.filterMap (Obs.completedBy j) = [])
    (reading : ∀ bytes, t.point = .reading j bytes → s.point = .reading j bytes)
    (returned : s.point = .returned j → t.point = .returned j) : Whole t j := by
  have stored : t.stored j = s.stored j := by
    simp [State.stored, log, silent.1]
  have completed : t.completed j = s.completed j := by
    simp [State.completed, log, silent.2]
  refine ⟨splices, ?_, ?_, ?_⟩
  · rw [slot]
    exact fun bytes at_point => inv.reading bytes (reading bytes at_point)
  · rw [slot, completed, stored]
    exact fun pending elsewhere => inv.pending pending fun at_point => elsewhere (returned at_point)
  · rw [completed, stored]
    exact inv.handled

/-- The handler returns: it has read the newest frame, which no earlier call has read. -/
theorem complete {bytes : List Byte} (inv : Whole s j)
    (splices : Splices { s with point := .returned j, log := s.log ++ [.completed j bytes] } j)
    (at_point : s.point = .reading j bytes) (all : ¬ bytes.length < 8) :
    Whole { s with point := .returned j, log := s.log ++ [.completed j bytes] } j := by
  obtain ⟨pending, read⟩ := inv.reading bytes at_point
  obtain ⟨_, _, stored⟩ := inv.splices.reading bytes at_point
  have newest := inv.splices.newest stored
  have whole : bytes = bytesOf (s.table j).frame.payload := by
    rw [read]
    apply List.take_of_length_le
    rw [bytesOf, List.length_map, List.length_range]
    omega
  have elsewhere : s.point ≠ .returned j := by
    simp [at_point]
  have kept : State.stored
      { s with point := .returned j, log := s.log ++ [.completed j bytes] } j = s.stored j := by
    simp [State.stored]
  have completed : State.completed
      { s with point := .returned j, log := s.log ++ [.completed j bytes] } j =
        s.completed j ++ [bytes] := by
    simp [State.completed]
  refine ⟨splices, by simp, fun _ wrong => absurd rfl wrong, ?_⟩
  rw [completed, kept, ← List.dropLast_append_getLast? _ newest, List.map_append, whole]
  exact (inv.pending pending elsewhere).append (.refl _)

theorem main (inv : Whole s j) (step : State.MainStep s t) : Whole t j := by
  have splices := inv.splices.main step
  cases step with
  | start at_point =>
      refine inv.quiet splices rfl rfl ⟨rfl, rfl⟩ (fun bytes wrong => ?_) fun wrong => ?_
      · exact (Point.goto_ne_reading _ _ _ wrong).elim
      · exact absurd (at_point.symm.trans wrong) nofun
  | skip i at_point idle =>
      refine inv.quiet splices (List.append_nil _).symm rfl ⟨rfl, rfl⟩ (fun bytes wrong => ?_)
        fun wrong => ?_
      · exact (Point.goto_ne_reading _ _ _ wrong).elim
      · exact absurd (at_point.symm.trans wrong) nofun
  | invoke i at_point due =>
      by_cases same : i = j
      · subst same
        have elsewhere : s.point ≠ .returned i := by
          rw [at_point]
          exact nofun
        have unhandled : (s.table i).unhandled = true := (Bool.and_eq_true_iff.mp due).1
        refine ⟨splices, fun bytes at_point' => ?_, fun _ _ => ?_, ?_⟩
        · obtain rfl : bytes = [] := (Point.reading.inj at_point').2.symm
          exact ⟨unhandled, rfl⟩
        · simpa [State.completed, State.stored, List.filterMap_cons] using
            inv.pending unhandled elsewhere
        · simpa [State.completed, State.stored, List.filterMap_cons] using inv.handled
      · refine inv.quiet splices rfl rfl ⟨rfl, rfl⟩ (fun bytes wrong => ?_) fun wrong => ?_
        · exact absurd (Point.reading.inj wrong).1 same
        · exact absurd (at_point.symm.trans wrong) nofun
  | read i bytes at_point more =>
      by_cases same : i = j
      · subst same
        obtain ⟨pending, read⟩ := inv.reading bytes at_point
        have elsewhere : s.point ≠ .returned i := by
          rw [at_point]
          exact nofun
        refine ⟨splices, fun bytes' at_point' => ?_, fun _ _ => inv.pending pending elsewhere,
          inv.handled⟩
        obtain rfl := (Point.reading.inj at_point').2
        refine ⟨pending, ?_⟩
        rw [List.length_append, List.length_singleton, bytesOf_take_succ _ more, ← read]
      · refine inv.quiet splices (List.append_nil _).symm rfl ⟨rfl, rfl⟩ (fun bytes' wrong => ?_)
          fun wrong => ?_
        · exact absurd (Point.reading.inj wrong).1 same
        · exact absurd (at_point.symm.trans wrong) nofun
  | complete i bytes at_point all =>
      by_cases same : i = j
      · subst same
        exact inv.complete splices at_point all
      · refine inv.quiet splices rfl rfl (by simp [same]) nofun fun wrong => ?_
        exact absurd (at_point.symm.trans wrong) nofun
  | clear i at_point =>
      by_cases same : i = j
      · subst same
        have handled : (Reception.clear s.table i i).unhandled = false := by simp
        refine ⟨splices, fun bytes wrong => (Point.goto_ne_reading _ _ _ wrong).elim,
          fun pending => absurd (handled.symm.trans pending) nofun, inv.handled⟩
      · refine inv.quiet splices (List.append_nil _).symm (clear_other _ (Ne.symm same)) ⟨rfl, rfl⟩
          (fun bytes wrong => (Point.goto_ne_reading _ _ _ wrong).elim) fun wrong => ?_
        exact absurd (Point.returned.inj (at_point.symm.trans wrong)) same
  | finish at_point =>
      refine inv.quiet splices rfl rfl ⟨rfl, rfl⟩ nofun fun wrong => ?_
      exact absurd (at_point.symm.trans wrong) nofun

theorem run [DecidableEq α] {table : Table n α φ} (idle : ∀ i, (table i).unhandled = false)
    (now : Int) (schedule : List (Event α)) (j : Fin n)
    (undisturbed : Run.StepsMeet (State.step recvOverwrite) (Newest.Undisturbed j)
      (.init table now) schedule) :
    Whole (Run.run (State.step recvOverwrite) (.init table now) schedule) j := by
  apply Run.invariant_of_steps (fun s => Whole s j) (Whole.init idle now j) _ schedule undisturbed
  intro s e allowed inv
  cases e with
  | recv attr frame => exact inv.recv allowed (slot_recv_step s attr frame)
  | main => exact inv.main s.main_step
  | advance time =>
      exact ⟨⟨inv.splices.slot, inv.splices.reading, inv.splices.completed⟩, inv.reading,
        inv.pending, inv.handled⟩

end Whole

/-! ## Supervision -/

def RpdoService.good (t : Table 4 α φ) (rpdo : Fin 4) (now : Int) : Bool :=
  F4.RpdoService.good t rpdo now

def Node.good (t : Table n α φ) (now : Int) : Bool := F4.Node.good t now

/-- When message `j` was registered, and when a frame arrived for it. -/
def signs (start : Table n α φ) (s : State n α φ) (j : Fin n) : List Int :=
  (start j).timepoint :: (taken s j).map Prod.fst

/-- The supervision time of message `j` is that of its last sign of life. -/
structure Fresh (start : Table n α φ) (s : State n α φ) (j : Fin n) : Prop where
  timeout : (s.table j).timeout = (start j).timeout
  sign : (s.table j).timepoint ∈ signs start s j
  last : ∀ t ∈ signs start s j, t ≤ (s.table j).timepoint
  past : (s.table j).timepoint ≤ s.now

namespace Fresh

variable {start : Table n α φ} {s t : State n α φ} {j : Fin n}

theorem init {now : Int} (past : (start j).timepoint ≤ now) : Fresh start (.init start now) j where
  timeout := rfl
  sign := .head _
  last := by
    intro t member
    rw [List.mem_singleton.mp member]
    exact le_rfl
  past := past

/-- A step that brings no sign of life takes none away. -/
theorem quiet {obs : List (Obs n)} (inv : Fresh start s j) (log : t.log = s.log ++ obs)
    (slot : (t.table j).timeout = (s.table j).timeout ∧
      (t.table j).timepoint = (s.table j).timepoint)
    (silent : obs.filterMap (takenBy j) = []) (now : t.now = s.now) :
    Fresh start t j := by
  have more : signs start t j = signs start s j := by
    simp [signs, taken, log, silent]
  constructor
  · exact slot.1.trans inv.timeout
  · rw [more, slot.2]
    exact inv.sign
  · rw [more, slot.2]
    exact inv.last
  · rw [slot.2, now]
    exact inv.past

theorem recv [DecidableEq α] {attr : α} {frame : CanFrame} (inv : Fresh start s j)
    (step : RecvStep s attr frame t) : Fresh start t j := by
  cases step with
  | mismatch => exact inv
  | stored i found =>
      by_cases same : i = j
      · subst same
        have more : signs start
            { s with
              table := store s.table i frame s.now
              log := s.log ++ [.stored i frame s.now] } i =
            signs start s i ++ [s.now] := by
          simp [signs, taken]
        refine ⟨by simpa using inv.timeout, ?_, ?_, by simp⟩
        · rw [more]
          simp
        · rw [more]
          intro t member
          simp only [store_self]
          obtain before | now := List.mem_append.mp member
          · exact (inv.last t before).trans inv.past
          · rw [List.mem_singleton.mp now]
      · apply inv.quiet rfl
        · simp [store_other s.table (Ne.symm same)]
        · simp [same]
        · rfl

theorem main (inv : Fresh start s j) (step : State.MainStep s t) : Fresh start t j := by
  cases step with
  | start => exact inv.quiet rfl ⟨rfl, rfl⟩ rfl rfl
  | skip => exact inv.quiet (List.append_nil _).symm ⟨rfl, rfl⟩ rfl rfl
  | invoke => exact inv.quiet rfl ⟨rfl, rfl⟩ rfl rfl
  | read => exact inv.quiet (List.append_nil _).symm ⟨rfl, rfl⟩ rfl rfl
  | complete => exact inv.quiet rfl ⟨rfl, rfl⟩ rfl rfl
  | clear i =>
      exact inv.quiet (List.append_nil _).symm ⟨clear_timeout .., clear_timepoint ..⟩ rfl rfl
  | finish => exact inv.quiet rfl ⟨rfl, rfl⟩ rfl rfl

theorem run [DecidableEq α] {now : Int} (past : (start j).timepoint ≤ now)
    (schedule : List (Event α)) :
    Fresh start (Run.run (State.step recvOverwrite) (.init start now) schedule) j := by
  apply Run.invariant (fun s => Fresh start s j) (Fresh.init past)
  intro s e inv
  cases e with
  | recv attr frame => exact inv.recv (slot_recv_step s attr frame)
  | main => exact inv.main s.main_step
  | advance time =>
      refine ⟨inv.timeout, inv.sign, inv.last, ?_⟩
      have past := inv.past
      change (s.table j).timepoint ≤ s.now + time
      omega

end Fresh

/-- The call of a handler, or its return. -/
@[simp] def callOf : Obs n → Option (Obs n)
  | .invoked i payload => some (.invoked i payload)
  | .completed i bytes => some (.completed i bytes)
  | _ => none

/-- The slots, where the loop stands, the clock, and what became of the handlers. -/
structure Shown (n : Nat) (α φ : Type) where
  table : Table n α φ
  point : Point n
  now : Int
  calls : List (Obs n)

def shown (s : State n α φ) : Shown n α φ where
  table := s.table
  point := s.point
  now := s.now
  calls := s.log.filterMap callOf

/-- A frame whose slot is unhandled holds what the slot holds, and comes at the same time. -/
def Repeats [DecidableEq α] (s : State n α φ) : Event α → Prop
  | .recv attr frame => ∀ i, slotOf s.table attr = some i → (s.table i).unhandled = true →
      (s.table i).frame = frame ∧ (s.table i).timepoint = s.now
  | _ => True

/-- The loop goes by what is shown. -/
theorem shown_main {s t : State n α φ} (same : shown s = shown t) : shown s.main = shown t.main := by
  obtain ⟨table, point, now, overruns, log⟩ := s
  obtain ⟨table', point', now', overruns', log'⟩ := t
  obtain ⟨rfl, rfl, rfl, calls⟩ := Shown.mk.inj same
  unfold State.main shown
  cases point with
  | outside => simpa using calls
  | test i =>
      by_cases due : ((table i).unhandled && (table i).handler.isSome) = true
      · simpa [due] using calls
      · simpa [due] using calls
  | reading i bytes =>
      by_cases more : bytes.length < 8
      · simpa [more] using calls
      · simpa [more] using calls
  | returned i => simpa using calls
  | finished => simpa using calls

/-- A receive function shows the table it leaves, and nothing else of it. -/
theorem shown_recv (receiver : Receiver n α φ) (s : State n α φ) (attr : α) (frame : CanFrame) :
    shown (s.recv receiver attr frame) =
      { shown s with table := (receiver s.table attr frame s.now).2 } := by
  unfold State.recv
  split
  all_goals
    rename_i left
    simp [shown, left]

theorem shown_step (receiver : Receiver n α φ) {s t : State n α φ} (e : Event α)
    (same : shown s = shown t) : shown (s.step receiver e) = shown (t.step receiver e) := by
  cases e with
  | recv attr frame =>
      change shown (s.recv receiver attr frame) = shown (t.recv receiver attr frame)
      have table : s.table = t.table := congrArg Shown.table same
      have now : s.now = t.now := congrArg Shown.now same
      rw [shown_recv, shown_recv, same, table, now]
  | main => exact shown_main same
  | advance time =>
      have now : s.now = t.now := congrArg Shown.now same
      have advanced := congrArg (fun v : Shown n α φ => { v with now := t.now + time }) same
      change shown { s with now := s.now + time } = shown { t with now := t.now + time }
      rw [now]
      exact advanced

/-- A slot that is overwritten with what it holds stays as it was. -/
theorem store_eq_self_iff {t : Table n α φ} {i : Fin n} (locked : (t i).unhandled = true)
    (frame : CanFrame) (now : Int) :
    store t i frame now = t ↔ (t i).frame = frame ∧ (t i).timepoint = now := by
  unfold store
  rw [Function.update_eq_self_iff]
  generalize t i = slot at locked ⊢
  obtain ⟨attr, timeout, timepoint, unhandled, held, handler⟩ := slot
  simp only [Message.mk.injEq, true_and, and_true]
  constructor
  · rintro ⟨time, _, same⟩
    exact ⟨same.symm, time.symm⟩
  · rintro ⟨same, time⟩
    exact ⟨time.symm, locked.symm, same.symm⟩

/-- An event shows whether a slot is locked or overwritten, unless it repeats. -/
theorem shown_step_iff [DecidableEq α] (reports : Bool) (s : State n α φ) (e : Event α) :
    shown (s.step (F4.recvLocked reports) e) = shown (s.step recvOverwrite e) ↔ Repeats s e := by
  cases e with
  | recv attr frame =>
      change shown (s.recv (F4.recvLocked reports) attr frame) =
        shown (s.recv recvOverwrite attr frame) ↔ _
      rw [shown_recv, shown_recv]
      unfold F4.recvLocked recvOverwrite
      cases found : slotOf s.table attr with
      | none => simp [Repeats, found]
      | some i =>
          cases locked : (s.table i).unhandled with
          | false => simp [Repeats, found, locked]
          | true =>
              have kept : s.table = store s.table i frame s.now ↔ _ :=
                eq_comm.trans (store_eq_self_iff locked frame s.now)
              simp [Repeats, found, locked, ← kept]
  | main => exact iff_of_true rfl trivial
  | advance time => exact iff_of_true rfl trivial

/-- The receptions of the two ports show the same slots, loop, time and handler calls all
    along a run exactly when every frame finds its slot handled, or repeats what is in it. -/
theorem receptions_agree_iff [DecidableEq α] :
    (∀ (table : Table 4 α φ) (now : Int) (schedule : List (Event α)),
      (∀ es, es <+: schedule →
        shown (Run.run (State.step F4.RpdoService.recv) (.init table now) es) =
          shown (Run.run (State.step RpdoService.recvFrame) (.init table now) es)) ↔
        Run.StepsMeet (State.step F4.RpdoService.recv) Repeats (.init table now) schedule) ∧
    (∀ (n : Nat) (table : Table n α φ) (now : Int) (schedule : List (Event α)),
      (∀ es, es <+: schedule →
        shown (Run.run (State.step F4.Node.recv) (.init table now) es) =
          shown (Run.run (State.step (Node.recvFrame true)) (.init table now) es)) ↔
        Run.StepsMeet (State.step F4.Node.recv) Repeats (.init table now) schedule) := by
  constructor
  · intro table now schedule
    exact Run.views_agree_iff shown (fun _ _ e same => shown_step recvOverwrite e same)
      (shown_step_iff true) rfl schedule
  · intro n table now schedule
    exact Run.views_agree_iff shown (fun _ _ e same => shown_step recvOverwrite e same)
      (shown_step_iff false) rfl schedule

end Ucanopen.H7
