import Ucanopen.H7.SdoRuns

/-! # How many requests a client of the H7 port may have outstanding

The SDO service of the H7 port has one slot for a request. A client that waits for the
response on the bus before it sends the next request never finds the slot occupied; any
larger window can lose a request.
-/

namespace Ucanopen.H7

open Run

variable {α E : Type} {port : Port 16 E}

namespace State

/-- A client with window `w` brings a request only while fewer than `w` requests have no
    response on the bus. -/
def Windowed [DecidableEq α] (w : Nat) (s : State α E) : Event α → Prop
  | .recv attr _ =>
      attr = s.sdo.rsdo.attr →
        s.accepted.length + s.rejected.length < s.putFrames.length + w
  | .main => True

/-- Whoever has as many responses as requests finds the slot free. -/
theorem slot_free {s : State α E}
    (order : s.requests ++ s.point.inProgress ++ s.waiting = s.accepted)
    (sent : s.putFrames.map (·.2) ++ s.unsent = s.responses)
    (answered : s.accepted.length ≤ s.putFrames.length) : s.sdo.rsdo.isUnhandled = false := by
  have order := congrArg List.length order
  have sent := congrArg List.length sent
  have fewer : s.responses.length ≤ s.handled.length := List.length_filterMap_le ..
  simp only [List.length_append, State.requests, List.length_map] at order sent
  cases occupied : s.sdo.rsdo.isUnhandled with
  | false => rfl
  | true =>
      have waits : s.waiting.length = 1 := by simp [waiting, occupied]
      omega

/-- A request that finds the slot free is not refused. -/
theorem recv_kept [DecidableEq α] {s : State α E} (kept : s.rejected = []) {attr : α}
    (free : attr = s.sdo.rsdo.attr → s.sdo.rsdo.isUnhandled = false) (frame : CanFrame) :
    (s.onFrameReceived attr frame).rejected = [] := by
  by_cases same : attr = s.sdo.rsdo.attr
  · have free := free same
    have step := s.recv_step attr frame
    generalize s.onFrameReceived attr frame = t at step
    cases step with
    | elsewhere => exact kept
    | overrun occupied =>
        rw [free] at occupied
        exact absurd occupied Bool.false_ne_true
    | success => exact kept
  · have elsewhere : attr ∉ s.sdo.getRxAttr := fun member => same (List.mem_singleton.mp member)
    rw [onFrameReceived, if_neg elsewhere]
    exact kept

/-- Nothing was refused so far. -/
structure Lossless (m : Machine E) (port : Port 16 E) (s : State α E) : Prop where
  served : OneSlot port m s
  rejected : s.rejected = []

theorem Lossless.step [DecidableEq α] {m : Machine E} {s : State α E} {w : Nat}
    (small : w ≤ 1) (inv : Lossless m port s) {e : Event α} (allowed : s.Windowed w e) :
    Lossless m port (s.step port e) := by
  refine ⟨inv.served.step e, ?_⟩
  cases e with
  | recv attr frame =>
      change (s.onFrameReceived attr frame).rejected = []
      apply recv_kept inv.rejected
      intro same
      have within := allowed same
      rw [inv.rejected, List.length_nil] at within
      exact slot_free inv.served.order inv.served.sent (by omega)
  | main =>
      change (s.main port).rejected = []
      cases fault : s.core.fault with
      | some f =>
          have stopped : s.main port = s := by
            unfold State.main
            rw [fault]
          rw [stopped]
          exact inv.rejected
      | none =>
          have step := s.main_step port fault
          generalize s.main port = t at step
          cases step with
          | _ => exact inv.rejected

/-- A window of one is the largest with which no client can lose a request. -/
theorem single_window_iff [DecidableEq α] (port : Port 16 E) (attr : α) (node : NodeId)
    (frame : CanFrame) (payload : CanPayload) (m : Machine E) (w : Nat) :
    (∀ schedule, StepsMeet (step port) (Windowed w) (init (.init attr node frame payload) m)
        schedule →
      (runFrom port (.init attr node frame payload) m schedule).rejected = []) ↔ w ≤ 1 := by
  constructor
  · intro lossless
    by_contra large
    -- The second of two requests in a row finds the slot occupied.
    have meets : StepsMeet (step port) (Windowed w) (init (.init attr node frame payload) m)
        [.recv attr ⟨0, 8, 0⟩, .recv attr ⟨0, 8, 0⟩] := by
      refine ⟨fun _ => ?_, fun _ => ?_, trivial⟩
      · simp only [init, List.length_nil]
        omega
      · simp [step, onFrameReceived, SdoService.getRxAttr, SdoService.recvFrame, init,
          SdoService.init]
        omega
    have kept := lossless _ meets
    simp [runFrom, step, onFrameReceived, SdoService.getRxAttr, SdoService.recvFrame, init,
      SdoService.init] at kept
  · intro small schedule windowed
    have start : Lossless m port (init (.init attr node frame payload) m) :=
      ⟨.init port attr node frame payload m, rfl⟩
    exact (Run.invariant_of_steps (Lossless m port) start
      (fun _ _ allowed inv => inv.step small allowed) schedule windowed).rejected

end State

end Ucanopen.H7
