import Ucanopen.Reception.Slots

/-! # RPDO and node reception of the F4 port

`recv` stores a frame only in a slot whose last frame has been handled. The slot
is locked from the arrival until after the handler has returned, so the handler
sees each stored frame whole and once.
-/

namespace Ucanopen.F4

open Bytes Reception

variable {n : Nat} {α φ : Type}

/-- The text the two `recv` functions share, but for the report of an overrun. -/
def recvLocked [DecidableEq α] (reports : Bool) : Receiver n α φ :=
  fun t attr frame now =>
    match slotOf t attr with
    | none => (.mismatch, t)
    | some i =>
        if (t i).unhandled then (if reports then .overrun i else .dropped i, t)
        else (.stored i, store t i frame now)

namespace RpdoService

/-- The constructor. The attributes and frames are indeterminate, so any values
    will do. -/
def init (attr : Fin 4 → α) (frame : Fin 4 → CanFrame) : Table 4 α φ := fun i =>
  { attr := attr i, timeout := 0, timepoint := 0, unhandled := false, frame := frame i,
    handler := none }

/-- `register_rpdo`, given the attribute `register_rxmessage` returned. -/
def registerRpdo (t : Table 4 α φ) (rpdo : Fin 4) (attr : α) (timeout : Int)
    (handler : Option φ) (now : Int) : Table 4 α φ :=
  Function.update t rpdo
    { t rpdo with attr := attr, timeout := timeout, timepoint := now, handler := handler }

def recv [DecidableEq α] : Receiver 4 α φ := recvLocked true

/-- The tables a program can register before it starts the server. -/
inductive Registered : Table 4 α φ → Prop
  | init (attr : Fin 4 → α) (frame : Fin 4 → CanFrame) : Registered (init attr frame)
  | register {t : Table 4 α φ} (rpdo : Fin 4) (attr : α) (timeout : Int) (handler : Option φ)
      (now : Int) (before : Registered t) : Registered (registerRpdo t rpdo attr timeout handler now)

theorem Registered.idle {t : Table 4 α φ} (registered : Registered t) (i : Fin 4) :
    (t i).unhandled = false := by
  induction registered with
  | init attr frame => rfl
  | @register t rpdo attr timeout handler now before ih =>
      by_cases same : i = rpdo
      · subst same
        simpa [registerRpdo] using ih
      · simpa [registerRpdo, same] using ih

end RpdoService

namespace Node

/-- The constructor. -/
def init : Table 0 α φ := Fin.elim0

/-- `register_rx_message`, given the attribute `register_rxmessage` returned. -/
def registerRxMessage (t : Table n α φ) (attr : α) (timeout : Int) (handler : Option φ)
    (now : Int) : Table (n + 1) α φ :=
  Fin.snoc t
    { attr := attr, timeout := timeout, timepoint := now, unhandled := false, frame := ⟨0, 0, 0⟩,
      handler := handler }

def recv [DecidableEq α] : Receiver n α φ := recvLocked false

/-- The tables a program can register before it starts the server. -/
inductive Registered : {n : Nat} → Table n α φ → Prop
  | init : Registered init
  | register {n : Nat} {t : Table n α φ} (attr : α) (timeout : Int) (handler : Option φ)
      (now : Int) (before : Registered t) : Registered (registerRxMessage t attr timeout handler now)

theorem Registered.idle {t : Table n α φ} (registered : Registered t) :
    ∀ i, (t i).unhandled = false := by
  induction registered with
  | init => exact fun i => i.elim0
  | register attr timeout handler now before ih =>
      intro i
      refine Fin.lastCases ?_ (fun k => ?_) i
      · simp [registerRxMessage]
      · simpa [registerRxMessage] using ih k

end Node

/-! ## Exactly once -/

/-- The ways `recv` can change the state. -/
inductive RecvStep [DecidableEq α] (reports : Bool) (s : State n α φ) (attr : α)
    (frame : CanFrame) : State n α φ → Prop
  | mismatch (nowhere : slotOf s.table attr = none) : RecvStep reports s attr frame s
  | refused (i : Fin n) (found : slotOf s.table attr = some i)
      (locked : (s.table i).unhandled = true) :
      RecvStep reports s attr frame
        { s with
          overruns := s.overruns + reports.toNat
          log := s.log ++ [.refused i frame s.now] }
  | stored (i : Fin n) (found : slotOf s.table attr = some i)
      (free : (s.table i).unhandled = false) :
      RecvStep reports s attr frame
        { s with
          table := store s.table i frame s.now
          log := s.log ++ [.stored i frame s.now] }

theorem recv_step [DecidableEq α] (reports : Bool) (s : State n α φ) (attr : α)
    (frame : CanFrame) : RecvStep reports s attr frame (s.recv (recvLocked reports) attr frame) := by
  unfold State.recv recvLocked
  cases found : slotOf s.table attr with
  | none => exact .mismatch found
  | some i =>
      cases locked : (s.table i).unhandled with
      | true =>
          have step : RecvStep reports s attr frame _ := .refused i found locked
          cases reports with
          | true => simpa [locked] using step
          | false => simpa [locked] using step
      | false =>
          have step : RecvStep reports s attr frame _ := .stored i found locked
          simpa [locked] using step

/-- The frame slot `j` still owes to its handler: pending, or being handled. -/
def owed (s : State n α φ) (j : Fin n) : List CanPayload :=
  if (s.table j).unhandled ∧ s.point ≠ .returned j then [(s.table j).frame.payload] else []

/-- The slot is locked while its handler runs, so what the handler reads is one
    stored frame, and the complete runs account for all stored frames in order. -/
structure Exactly (s : State n α φ) (j : Fin n) : Prop where
  reading : ∀ bytes, s.point = .reading j bytes →
    (s.table j).unhandled = true ∧
      bytes = (bytesOf (s.table j).frame.payload).take bytes.length
  returned : s.point = .returned j → (s.table j).unhandled = true
  once : s.completed j ++ (owed s j).map bytesOf = (s.stored j).map bytesOf

namespace Exactly

variable {s t : State n α φ} {j : Fin n}

theorem init {table : Table n α φ} (idle : ∀ i, (table i).unhandled = false) (now : Int)
    (j : Fin n) : Exactly (.init table now) j where
  reading := nofun
  returned := nofun
  once := by simp [owed, State.init, idle, State.completed, State.stored]

theorem recv [DecidableEq α] {reports : Bool} {attr : α} {frame : CanFrame} (inv : Exactly s j)
    (step : RecvStep reports s attr frame t) : Exactly t j := by
  cases step with
  | mismatch nowhere => exact inv
  | refused i found locked =>
      refine { inv with once := ?_ }
      simpa [State.completed, State.stored, owed, List.filterMap_cons] using inv.once
  | stored i found free =>
      by_cases same : j = i
      · subst same
        have elsewhere : s.point ≠ .returned j := fun at_point =>
          absurd (free.symm.trans (inv.returned at_point)) Bool.false_ne_true
        refine ⟨fun bytes at_point => ?_, fun at_point => absurd at_point elsewhere, ?_⟩
        · exact absurd (free.symm.trans (inv.reading bytes at_point).1) Bool.false_ne_true
        · have once := inv.once
          simp only [owed, free, Bool.false_eq_true, false_and, if_false, List.map_nil,
            List.append_nil] at once
          simp only [State.completed] at once
          simp [State.completed, State.stored, owed, elsewhere, once]
      · have others : store s.table i frame s.now j = s.table j := store_other _ same _ _
        refine ⟨?_, ?_, ?_⟩
        · simpa only [others] using inv.reading
        · simpa only [others] using inv.returned
        · have once := inv.once
          simpa [State.completed, State.stored, owed, others, Ne.symm same, List.filterMap_cons]
            using once

/-- A step that leaves the slot and its handler alone. -/
theorem elsewhere (inv : Exactly s j) (point : Point n) (obs : List (Obs n))
    (before : s.point ≠ .returned j) (reading : ∀ bytes, point ≠ .reading j bytes)
    (returned : point ≠ .returned j)
    (silent : obs.filterMap (Obs.completedBy j) = [])
    (nothing : obs.filterMap (Obs.storedIn j) = []) :
    Exactly { s with point := point, log := s.log ++ obs } j where
  reading := fun bytes at_point => absurd at_point (reading bytes)
  returned := fun at_point => absurd at_point returned
  once := by
    have once := inv.once
    simp only [owed, before, ne_eq, not_false_eq_true, and_true] at once
    simp only [State.completed, State.stored, List.filterMap_append, silent, nothing,
      List.append_nil, owed, returned, ne_eq, not_false_eq_true, and_true]
    exact once

/-! The statements that work on slot `j` itself. -/

theorem invoke (inv : Exactly s j) (at_point : s.point = .test j)
    (unhandled : (s.table j).unhandled = true) :
    Exactly
      { s with
        point := .reading j []
        log := s.log ++ [.invoked j (s.table j).frame.payload] } j where
  reading := by
    rintro bytes ⟨⟩
    exact ⟨unhandled, rfl⟩
  returned := fun wrong => absurd wrong (by simp)
  once := by
    have once := inv.once
    simpa [State.completed, State.stored, owed, at_point, List.filterMap_cons] using once

theorem read (inv : Exactly s j) {bytes : List Byte} (at_point : s.point = .reading j bytes)
    (more : bytes.length < 8) :
    Exactly
      { s with
        point := .reading j (bytes ++ [byte (s.table j).frame.payload bytes.length]) } j where
  reading := by
    obtain ⟨unhandled, soFar⟩ := inv.reading bytes at_point
    rintro bytes' ⟨⟩
    refine ⟨unhandled, ?_⟩
    rw [List.length_append, List.length_singleton, bytesOf_take_succ _ more, ← soFar]
  returned := fun wrong => absurd wrong (by simp)
  once := by
    have once := inv.once
    simpa [State.completed, State.stored, owed, at_point] using once

/-- The handler returns with the whole payload, and the slot owes nothing more. -/
theorem complete (inv : Exactly s j) {bytes : List Byte} (at_point : s.point = .reading j bytes)
    (all : ¬ bytes.length < 8) :
    Exactly { s with point := .returned j, log := s.log ++ [.completed j bytes] } j := by
  obtain ⟨unhandled, soFar⟩ := inv.reading bytes at_point
  have whole : bytes = bytesOf (s.table j).frame.payload := by
    rw [soFar]
    apply List.take_of_length_le
    simp only [bytesOf, List.length_map, List.length_range]
    omega
  have once := inv.once
  simp only [owed, unhandled, at_point, ne_eq, reduceCtorEq, not_false_eq_true, and_true,
    if_true, List.map_singleton, State.completed, State.stored] at once
  refine ⟨fun bytes wrong => absurd wrong (by simp), fun _ => unhandled, ?_⟩
  simp only [State.completed, State.stored, owed, List.filterMap_append]
  simp [← once, whole]

theorem clear (inv : Exactly s j) {i : Fin n} (at_point : s.point = .returned i) :
    Exactly { s with table := Reception.clear s.table i, point := .goto (i + 1) } j where
  reading := fun bytes wrong => absurd wrong (by simp)
  returned := fun wrong => absurd wrong (by simp)
  once := by
    have once := inv.once
    by_cases same : i = j
    · subst same
      simpa [State.completed, State.stored, owed, at_point] using once
    · have others : Reception.clear s.table i j = s.table j := clear_other _ (Ne.symm same)
      simpa [State.completed, State.stored, owed, at_point, others, same] using once

theorem main (inv : Exactly s j) (step : State.MainStep s t) : Exactly t j := by
  cases step with
  | start at_point =>
      exact inv.elsewhere _ _ (by simp [at_point]) (by simp) (by simp) rfl rfl
  | skip i at_point idle =>
      have skipped := inv.elsewhere (.goto (i + 1)) [] (by simp [at_point]) (by simp) (by simp)
        rfl rfl
      simpa only [List.append_nil] using skipped
  | invoke i at_point due =>
      by_cases same : i = j
      · subst same
        exact inv.invoke at_point (Bool.and_eq_true_iff.mp due).1
      · exact inv.elsewhere _ _ (by simp [at_point]) (by simp [same]) (by simp) rfl rfl
  | read i bytes at_point more =>
      by_cases same : i = j
      · subst same
        exact inv.read at_point more
      · have other := inv.elsewhere
          (.reading i (bytes ++ [byte (s.table i).frame.payload bytes.length])) []
          (by simp [at_point]) (by simp [same]) (by simp) rfl rfl
        simpa only [List.append_nil] using other
  | complete i bytes at_point all =>
      by_cases same : i = j
      · subst same
        exact inv.complete at_point all
      · have silent : [Obs.completed i bytes].filterMap (Obs.completedBy j) = [] := by simp [same]
        exact inv.elsewhere _ _ (by simp [at_point]) (by simp) (by simp [same]) silent rfl
  | clear i at_point => exact inv.clear at_point
  | finish at_point =>
      exact inv.elsewhere _ _ (by simp [at_point]) (by simp) (by simp) rfl rfl

theorem step [DecidableEq α] {reports : Bool} (inv : Exactly s j) (e : Event α) :
    Exactly (s.step (recvLocked reports) e) j := by
  cases e with
  | recv attr frame => exact inv.recv (recv_step reports s attr frame)
  | main => exact inv.main s.main_step
  | advance time => exact ⟨inv.reading, inv.returned, inv.once⟩

theorem run [DecidableEq α] (reports : Bool) {table : Table n α φ}
    (idle : ∀ i, (table i).unhandled = false) (now : Int) (schedule : List (Event α)) (j : Fin n) :
    Exactly (Run.run (State.step (recvLocked reports)) (.init table now) schedule) j :=
  Run.invariant (fun s => Exactly s j) (Exactly.init idle now j)
    (fun _ e inv => inv.step e) schedule

end Exactly

/-! ## Nothing else happens to a frame -/

theorem step_overruns [DecidableEq α] (reports : Bool) (s : State n α φ) (e : Event α)
    (inv : s.overruns = reports.toNat * s.refused.length) :
    (s.step (recvLocked reports) e).overruns =
      reports.toNat * (s.step (recvLocked reports) e).refused.length := by
  cases e with
  | recv attr frame =>
      have step := recv_step reports s attr frame
      change (s.recv (recvLocked reports) attr frame).overruns =
        reports.toNat * (s.recv (recvLocked reports) attr frame).refused.length
      generalize s.recv (recvLocked reports) attr frame = t at step
      cases step with
      | mismatch nowhere => exact inv
      | refused i found locked =>
          have counted : ({ s with
              overruns := s.overruns + reports.toNat
              log := s.log ++ [.refused i frame s.now] } : State n α φ).refused.length =
                s.refused.length + 1 := by simp [State.refused]
          rw [counted, Nat.mul_succ, ← inv]
      | stored i found free => simpa [State.refused, List.filterMap_cons] using inv
  | main =>
      have step := s.main_step
      change s.main.overruns = reports.toNat * s.main.refused.length
      generalize s.main = t at step
      cases step with
      | skip i at_point idle => exact inv
      | read i bytes at_point more => exact inv
      | clear i at_point => exact inv
      | _ => simpa [State.refused, List.filterMap_cons] using inv
  | advance time => exact inv

/-- The attributes stay, and the log records each frame of the slot's attribute. -/
theorem step_arrivals [DecidableEq α] (reports : Bool) (s : State n α φ) {j : Fin n}
    (alone : ∀ i, (s.table i).attr = (s.table j).attr → i = j) (e : Event α) :
    (s.step (recvLocked reports) e).arrivals j =
        s.arrivals j ++ matching (s.table j).attr [e] ∧
      ∀ i, ((s.step (recvLocked reports) e).table i).attr = (s.table i).attr := by
  cases e with
  | recv attr frame =>
      have step := recv_step reports s attr frame
      have lands := slotOf_eq_iff alone attr
      change (s.recv (recvLocked reports) attr frame).arrivals j = _ ∧
        ∀ i, ((s.recv (recvLocked reports) attr frame).table i).attr = _
      generalize s.recv (recvLocked reports) attr frame = t at step
      cases step with
      | mismatch nowhere =>
          have other : attr ≠ (s.table j).attr := fun same =>
            absurd (nowhere.symm.trans (lands.mpr same)) nofun
          simp [matching, other]
      | refused i found locked =>
          rw [found, Option.some.injEq] at lands
          simp [State.arrivals, matching, List.filterMap_cons, lands]
      | stored i found free =>
          rw [found, Option.some.injEq] at lands
          simp [State.arrivals, matching, List.filterMap_cons, lands]
  | main =>
      have step := s.main_step
      change s.main.arrivals j = _ ∧ ∀ i, (s.main.table i).attr = _
      generalize s.main = t at step
      cases step with
      | _ => simp [State.arrivals, matching, List.filterMap_cons]
  | advance time => simp [State.step, State.arrivals, matching]

theorem arrivals_run [DecidableEq α] (reports : Bool) (s : State n α φ) {j : Fin n}
    (alone : ∀ i, (s.table i).attr = (s.table j).attr → i = j) (schedule : List (Event α)) :
    (Run.run (State.step (recvLocked reports)) s schedule).arrivals j =
      s.arrivals j ++ matching (s.table j).attr schedule := by
  induction schedule generalizing s with
  | nil => simp [matching]
  | cons e es ih =>
      obtain ⟨arrivals, attrs⟩ := step_arrivals reports s alone e
      rw [Run.run_cons, ih _ (by simpa only [attrs] using alone), arrivals, attrs,
        List.append_assoc]
      congr 1
      exact (List.filterMap_append (l := [e])).symm

/-- Both services handle each frame they store exactly once, whole and in order, and the
    RPDO service reports each frame it does not store. Nothing with the attribute of a slot
    escapes one that has it alone. -/
theorem stored_handled_once [DecidableEq α] :
    (∀ table : Table 4 α φ, RpdoService.Registered table →
      ∀ (j : Fin 4) (now : Int) (schedule : List (Event α)),
        let s := Run.run (State.step RpdoService.recv) (.init table now) schedule
        Exactly s j ∧ s.overruns = s.refused.length ∧
          ((∀ i, (table i).attr = (table j).attr → i = j) →
            s.arrivals j = matching (table j).attr schedule)) ∧
    (∀ (n : Nat) (table : Table n α φ), Node.Registered table →
      ∀ (j : Fin n) (now : Int) (schedule : List (Event α)),
        let s := Run.run (State.step Node.recv) (.init table now) schedule
        Exactly s j ∧
          ((∀ i, (table i).attr = (table j).attr → i = j) →
            s.arrivals j = matching (table j).attr schedule)) := by
  constructor
  · intro table registered j now schedule s
    refine ⟨Exactly.run true registered.idle now schedule j, ?_, fun alone => ?_⟩
    · have counted : (Run.run (State.step (recvLocked true)) (.init table now) schedule).overruns =
          true.toNat *
            (Run.run (State.step (recvLocked true)) (.init table now) schedule).refused.length :=
        Run.invariant (fun s : State 4 α φ => s.overruns = true.toNat * s.refused.length) rfl
          (fun s e inv => step_overruns true s e inv) schedule
      rw [Bool.toNat_true, Nat.one_mul] at counted
      exact counted
    · exact arrivals_run true (.init table now) alone schedule
  · intro n table registered j now schedule s
    refine ⟨Exactly.run false registered.idle now schedule j, fun alone => ?_⟩
    exact arrivals_run false (.init table now) alone schedule

section Registered

/-- The first RPDO registered, with the attribute 7. -/
def rpdoTable : Table 4 Nat Unit :=
  RpdoService.registerRpdo (RpdoService.init (fun i => i) fun _ => ⟨0, 0, 0⟩) rpdo1 7 100 (some ()) 0

/-- A node with two messages. -/
def nodeTable : Table 2 Nat Unit :=
  Node.registerRxMessage (Node.registerRxMessage Node.init 5 100 (some ()) 0) 6 100 (some ()) 0

/-- A frame, the start of a pass, and a second frame while the first is handled. -/
def twoFrames (attr : Nat) : List (Event Nat) :=
  [.recv attr ⟨0x201, 8, 1⟩, .main, .main, .main, .recv attr ⟨0x201, 8, 2⟩, .main]

theorem stored_handled_once_two_frames :
    (let s := Run.run (State.step RpdoService.recv) (.init rpdoTable 0) (twoFrames 7);
      Exactly s 0 ∧ s.overruns = s.refused.length ∧
        s.arrivals 0 = matching 7 (twoFrames 7)) ∧
    (let s := Run.run (State.step Node.recv) (.init nodeTable 0) (twoFrames 6);
      Exactly s 1 ∧ s.arrivals 1 = matching 6 (twoFrames 6)) := by
  have rpdo := stored_handled_once.1 rpdoTable (.register 0 7 100 (some ()) 0 (.init _ _)) 0 0
    (twoFrames 7)
  have node := stored_handled_once.2 2 nodeTable
    (.register 6 100 _ 0 (.register 5 100 _ 0 .init)) 1 0 (twoFrames 6)
  exact ⟨⟨rpdo.1, rpdo.2.1, rpdo.2.2 (by decide)⟩, node.1, node.2 (by decide)⟩

end Registered

end Ucanopen.F4
