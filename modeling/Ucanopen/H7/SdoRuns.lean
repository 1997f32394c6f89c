import Ucanopen.H7.SdoService

/-! # The H7 SDO service answers each accepted request once

The two flags and the order of `send` and `handle_recv_frames` in `run` make a
sequential server out of two slots. What holds is stated for every statement of
the main loop, as the interrupt finds it there.
-/

namespace Ucanopen.H7

open Bytes

variable {α E : Type}

/-- The request that has left the slot and is not finished. -/
def Point.inProgress : Point → List CanPayload
  | .handleAbort request => [request]
  | .handleExecute request => [request]
  | .handleStore request _ => [request]
  | .handleFlag request => [request]
  | _ => []

namespace State

/-- The request waiting in `_rsdo`. -/
def waiting (s : State α E) : List CanPayload :=
  if s.sdo.rsdo.isUnhandled then [s.sdo.rsdo.frame.payload] else []

/-- The pending response, unless `put_frame` has it and the flag is not yet clear. -/
def unsent (s : State α E) : List CanPayload := if s.point = .sendClear then [] else s.pending

/-! ## What one event can do -/

/-- The ways `on_frame_received` can change the state. -/
inductive RecvStep (s : State α E) (frame : CanFrame) : State α E → Prop
  | elsewhere : RecvStep s frame s
  | overrun (occupied : s.sdo.rsdo.isUnhandled = true) :
      RecvStep s frame
        { s with errcount := s.errcount + 1, rejected := s.rejected ++ [frame.payload] }
  | success (free : s.sdo.rsdo.isUnhandled = false) :
      RecvStep s frame
        { s with
          sdo := { s.sdo with rsdo := { s.sdo.rsdo with frame := frame, isUnhandled := true } }
          accepted := s.accepted ++ [frame.payload] }

theorem recv_step [DecidableEq α] (s : State α E) (attr : α) (frame : CanFrame) :
    RecvStep s frame (s.onFrameReceived attr frame) := by
  unfold onFrameReceived
  by_cases routed : attr ∈ s.sdo.getRxAttr
  · obtain rfl : attr = s.sdo.rsdo.attr := List.mem_singleton.mp routed
    rw [if_pos routed]
    simp only [SdoService.recvFrame, ne_eq, not_true_eq_false, if_false]
    cases occupied : s.sdo.rsdo.isUnhandled with
    | true =>
        have step : RecvStep s frame _ := .overrun occupied
        exact step
    | false => exact .success occupied
  · simp only [if_neg routed]
    exact .elsewhere

/-- The statements that only decide where to go on. -/
inductive Leads (s : State α E) : Point → Point → Prop
  | beforeSend : Leads s .beforeSend .sendTest
  | sendPending (notSent : s.sdo.tsdo.notSent = true) : Leads s .sendTest .sendPut
  | sendNothing (notSent : s.sdo.tsdo.notSent = false) : Leads s .sendTest .afterSend
  | afterSend : Leads s .afterSend .handleTest
  | handleWaiting (occupied : s.sdo.rsdo.isUnhandled = true) : Leads s .handleTest .handleCopy
  | handleNothing : Leads s .handleTest .afterHandle
  | handleCopy : Leads s .handleCopy (.handleClear s.sdo.rsdo.frame.payload)
  | handleRequest (request : CanPayload)
      (notAbort : (ExpeditedSdo.fromPayload request).cs ≠ SdoCsCodes.abort) :
      Leads s (.handleAbort request) (.handleExecute request)
  | afterHandle : Leads s .afterHandle .beforeSend

/-- The ways a statement of the main loop can change the state. -/
inductive MainStep (port : Port 16 E) (s : State α E) : State α E → Prop
  | goto (next : Point) (leads : Leads s s.point next) : MainStep port s { s with point := next }
  | put (at_point : s.point = .sendPut) :
      MainStep port s
        { s with
          putFrames := s.putFrames ++ [(s.sdo.tsdo.header, s.sdo.tsdo.payload)]
          point := .sendClear }
  | sent (at_point : s.point = .sendClear) :
      MainStep port s
        { s with
          sdo := { s.sdo with tsdo := { s.sdo.tsdo with notSent := false } }
          point := .afterSend }
  | taken (request : CanPayload) (at_point : s.point = .handleClear request) :
      MainStep port s
        { s with
          sdo := { s.sdo with rsdo := { s.sdo.rsdo with isUnhandled := false } }
          point := .handleAbort request }
  | abort (request : CanPayload) (at_point : s.point = .handleAbort request)
      (abort : (ExpeditedSdo.fromPayload request).cs = SdoCsCodes.abort) :
      MainStep port s
        { s with handled := s.handled ++ [(request, none)], point := .afterHandle }
  | fault (request : CanPayload) (core : Core E) (at_point : s.point = .handleExecute request)
      (ran : port.execute s.core request = (none, core)) :
      MainStep port s { s with core := core }
  | execute (request response : CanPayload) (core : Core E)
      (at_point : s.point = .handleExecute request)
      (ran : port.execute s.core request = (some response, core)) :
      MainStep port s { s with core := core, point := .handleStore request response }
  | store (request response : CanPayload) (at_point : s.point = .handleStore request response) :
      MainStep port s
        { s with
          sdo := { s.sdo with tsdo := { s.sdo.tsdo with payload := response } }
          point := .handleFlag request }
  | flag (request : CanPayload) (at_point : s.point = .handleFlag request) :
      MainStep port s
        { s with
          sdo := { s.sdo with tsdo := { s.sdo.tsdo with notSent := true } }
          handled := s.handled ++ [(request, some s.sdo.tsdo.payload)]
          point := .afterHandle }

theorem main_step (port : Port 16 E) (s : State α E) (alive : s.core.fault = none) :
    MainStep port s (s.main port) := by
  unfold main
  simp only [alive]
  cases at_point : s.point with
  | beforeSend => exact .goto _ (at_point ▸ .beforeSend)
  | sendTest =>
      cases notSent : s.sdo.tsdo.notSent with
      | true => exact .goto .sendPut (at_point ▸ .sendPending notSent)
      | false => exact .goto .afterSend (at_point ▸ .sendNothing notSent)
  | sendPut => exact .put at_point
  | sendClear => exact .sent at_point
  | afterSend => exact .goto _ (at_point ▸ .afterSend)
  | handleTest =>
      cases occupied : s.sdo.rsdo.isUnhandled with
      | true => exact .goto .handleCopy (at_point ▸ .handleWaiting occupied)
      | false => exact .goto .afterHandle (at_point ▸ .handleNothing)
  | handleCopy => exact .goto _ (at_point ▸ .handleCopy)
  | handleClear request => exact .taken request at_point
  | handleAbort request =>
      by_cases abort : (ExpeditedSdo.fromPayload request).cs = SdoCsCodes.abort
      · simp only [if_pos abort]
        exact .abort request at_point abort
      · simp only [if_neg abort]
        exact .goto _ (at_point ▸ .handleRequest request abort)
  | handleExecute request =>
      cases ran : port.execute s.core request with
      | mk answer core =>
          cases answer with
          | none =>
              have step := MainStep.fault request core at_point ran
              rw [at_point] at step
              simpa only [ran] using step
          | some response => simpa only [ran] using .execute request response core at_point ran
  | handleStore request response => exact .store request response at_point
  | handleFlag request => exact .flag request at_point
  | afterHandle => exact .goto _ (at_point ▸ .afterHandle)

/-! ## The service against the sequential server -/

section Assertions

variable (port : Port 16 E) (m : Machine E)

/-- The core after the handled requests. -/
def served (s : State α E) : Core E := port.serve (.start m) s.requests

/-- What holds at each statement of the main loop, beside the history: which
    flags are known there, and how far the request in progress has come. -/
def Holds (s : State α E) : Point → Prop
  | .beforeSend => s.core = s.served port m
  | .sendTest => s.core = s.served port m
  | .sendPut => s.core = s.served port m ∧ s.sdo.tsdo.notSent = true
  | .sendClear => s.core = s.served port m
  | .afterSend => s.core = s.served port m ∧ s.sdo.tsdo.notSent = false
  | .handleTest => s.core = s.served port m ∧ s.sdo.tsdo.notSent = false
  | .handleCopy =>
      s.core = s.served port m ∧ s.sdo.tsdo.notSent = false ∧ s.sdo.rsdo.isUnhandled = true
  | .handleClear request =>
      s.core = s.served port m ∧ s.sdo.tsdo.notSent = false ∧ s.waiting = [request]
  | .handleAbort _ => s.core = s.served port m ∧ s.sdo.tsdo.notSent = false
  | .handleExecute request =>
      s.core = s.served port m ∧ s.sdo.tsdo.notSent = false ∧
        (ExpeditedSdo.fromPayload request).cs ≠ SdoCsCodes.abort
  | .handleStore request response =>
      port.execute (s.served port m) request = (some response, s.core) ∧
        s.sdo.tsdo.notSent = false
  | .handleFlag request =>
      port.execute (s.served port m) request = (some s.sdo.tsdo.payload, s.core) ∧
        s.sdo.tsdo.notSent = false
  | .afterHandle => s.core = s.served port m

/-- The history of the run, explained by executing the handled requests one after
    another on the initial machine. -/
structure OneSlot (s : State α E) : Prop where
  order : s.requests ++ s.point.inProgress ++ s.waiting = s.accepted
  answers : s.handled.map (·.2) = Server.answers port.execute (.start m) s.requests
  sent : s.putFrames.map (·.2) ++ s.unsent = s.responses
  errors : s.errcount = BitVec.ofNat 64 s.rejected.length
  holds : s.core.fault = none → s.Holds port m s.point

end Assertions

namespace OneSlot

variable {port : Port 16 E} {m : Machine E} {s t : State α E}

theorem init (port : Port 16 E) (attr : α) (node : NodeId) (frame : CanFrame)
    (payload : CanPayload) (m : Machine E) :
    OneSlot port m (init (.init attr node frame payload) m) where
  order := rfl
  answers := rfl
  sent := rfl
  errors := rfl
  holds := fun _ => rfl

/-- The interrupt does not touch what holds at the statement it interrupts. -/
theorem recv {frame : CanFrame} (inv : OneSlot port m s) (step : RecvStep s frame t) :
    OneSlot port m t := by
  cases step with
  | elsewhere => exact inv
  | overrun occupied =>
      refine { inv with errors := ?_, holds := ?_ }
      · rw [List.length_append, List.length_singleton, BitVec.ofNat_add, ← inv.errors]
        rfl
      · intro alive
        have here := inv.holds alive
        change Holds port m _ s.point
        cases at_point : s.point <;> rw [at_point] at here <;> exact here
  | success free =>
      refine { inv with order := ?_, holds := ?_ }
      · have order := inv.order
        simp only [waiting, free, Bool.false_eq_true, if_false, List.append_nil] at order
        change s.requests ++ s.point.inProgress ++ [frame.payload] = s.accepted ++ [frame.payload]
        rw [order]
      · intro alive
        have here := inv.holds alive
        change Holds port m _ s.point
        cases at_point : s.point with
        | handleCopy =>
            rw [at_point] at here
            exact absurd (free.symm.trans here.2.2) nofun
        | handleClear request =>
            rw [at_point] at here
            exact absurd here.2.2 (by simp [waiting, free])
        | _ => rw [at_point] at here; exact here

/-- A statement that changes nothing but the point. -/
theorem goto {next : Point} (inv : OneSlot port m s) (alive : s.core.fault = none)
    (leads : Leads s s.point next) : OneSlot port m { s with point := next } := by
  have order := inv.order
  have sent := inv.sent
  have here := inv.holds alive
  have progress : s.point.inProgress = next.inProgress ∧ s.point ≠ .sendClear ∧
      next ≠ .sendClear ∧ s.Holds port m next := by
    generalize s.point = point at leads here
    cases leads with
    | beforeSend => exact ⟨rfl, nofun, nofun, here⟩
    | sendPending notSent => exact ⟨rfl, nofun, nofun, here, notSent⟩
    | sendNothing notSent => exact ⟨rfl, nofun, nofun, here, notSent⟩
    | afterSend => exact ⟨rfl, nofun, nofun, here⟩
    | handleWaiting occupied => exact ⟨rfl, nofun, nofun, here.1, here.2, occupied⟩
    | handleNothing => exact ⟨rfl, nofun, nofun, here.1⟩
    | handleCopy => exact ⟨rfl, nofun, nofun, here.1, here.2.1, if_pos here.2.2⟩
    | handleRequest request notAbort => exact ⟨rfl, nofun, nofun, here.1, here.2, notAbort⟩
    | afterHandle => exact ⟨rfl, nofun, nofun, here⟩
  obtain ⟨same, before, after, holds⟩ := progress
  refine { inv with order := ?_, sent := ?_, holds := fun _ => ?_ }
  · rw [same] at order
    exact order
  · simp only [unsent, if_neg before] at sent
    simp only [unsent, if_neg after]
    exact sent
  · change Holds port m _ next
    cases next <;> exact holds

/-- `put_frame` moves the pending response to the frames sent. -/
theorem put (inv : OneSlot port m s) (at_point : s.point = .sendPut)
    (core : s.core = s.served port m) (notSent : s.sdo.tsdo.notSent = true) :
    OneSlot port m { s with
      putFrames := s.putFrames ++ [(s.sdo.tsdo.header, s.sdo.tsdo.payload)]
      point := .sendClear } where
  order := by
    have order := inv.order
    rw [at_point] at order
    exact order
  answers := inv.answers
  sent := by
    have sent := inv.sent
    simp only [unsent, pending, at_point, notSent, reduceCtorEq, if_false, if_true] at sent
    simpa [unsent, responses] using sent
  errors := inv.errors
  holds := fun _ => core

/-- A finished request joins the history with its answer. -/
theorem finish {request : CanPayload} {answer : Option CanPayload} {sdo : SdoService α}
    (inv : OneSlot port m s) (progress : s.point.inProgress = [request])
    (ran : port.execute (s.served port m) request = (answer, s.core))
    (slot : sdo.rsdo = s.sdo.rsdo) (before : s.unsent = [])
    (pending : (if sdo.tsdo.notSent then [sdo.tsdo.payload] else []) = answer.toList) :
    OneSlot port m { s with
      sdo := sdo
      handled := s.handled ++ [(request, answer)]
      point := .afterHandle } where
  order := by
    have order := inv.order
    rw [progress] at order
    simpa [requests, waiting, slot, Point.inProgress] using order
  answers := by
    have ran' : port.execute (Server.after port.execute (.start m) s.requests) request =
        (answer, s.core) := ran
    have answers := inv.answers
    simp only [requests, List.map_append, List.map_cons, List.map_nil, Server.answers_concat]
    rw [answers, show (port.execute (Server.after port.execute (.start m) (s.handled.map (·.1)))
      request).1 = answer from congrArg Prod.fst ran']
    rfl
  sent := by
    have sent := inv.sent
    rw [before, List.append_nil] at sent
    change s.putFrames.map (·.2) ++ (if sdo.tsdo.notSent then [sdo.tsdo.payload] else []) =
      (s.handled ++ [(request, answer)]).filterMap (·.2)
    rw [pending, sent, List.filterMap_append]
    cases answer <;> rfl
  errors := inv.errors
  holds := fun _ => by
    change s.core = port.serve (.start m) ((s.handled ++ [(request, answer)]).map (·.1))
    rw [List.map_append, Port.serve, List.map_singleton, Server.after_concat]
    exact (congrArg Prod.snd ran).symm

theorem main (inv : OneSlot port m s) (alive : s.core.fault = none) (step : MainStep port s t) :
    OneSlot port m t := by
  have order := inv.order
  have sent := inv.sent
  have here := inv.holds alive
  cases step with
  | goto next leads => exact inv.goto alive leads
  | put at_point =>
      rw [at_point] at here
      exact inv.put at_point here.1 here.2
  | sent at_point =>
      rw [at_point] at here order
      refine { inv with order := order, sent := ?_, holds := fun _ => ⟨here, rfl⟩ }
      simpa [unsent, pending, responses, at_point] using sent
  | taken request at_point =>
      rw [at_point] at here order
      obtain ⟨core, notSent, waiting⟩ := here
      refine { inv with order := ?_, sent := ?_, holds := fun _ => ⟨core, notSent⟩ }
      · rw [waiting] at order
        simpa [State.waiting, Point.inProgress, requests] using order
      · simpa [unsent, pending, responses, at_point] using sent
  | abort request at_point abort =>
      rw [at_point] at here
      refine inv.finish (by rw [at_point]; rfl) ?_ rfl ?_ ?_
      · rw [port.execute_abort _ abort, here.1]
      · simp [unsent, pending, here.2]
      · simp [here.2]
  | fault request core at_point ran =>
      rw [at_point] at here
      refine { inv with holds := fun alive => ?_ }
      have answered := port.execute_answers (c := s.core) (by rw [ran]; exact alive) here.2.2
      exact absurd answered (by simp [ran])
  | execute request response core at_point ran =>
      rw [at_point] at here order
      refine { inv with order := order, sent := ?_, holds := fun _ => ⟨?_, here.2.1⟩ }
      · simpa [unsent, pending, responses, at_point] using sent
      · rw [← ran, here.1]
        rfl
  | store request response at_point =>
      rw [at_point] at here order
      refine { inv with order := order, sent := ?_, holds := fun _ => here }
      simpa [unsent, pending, responses, at_point, here.2] using sent
  | flag request at_point =>
      rw [at_point] at here
      refine inv.finish (by rw [at_point]; rfl) here.1 rfl ?_ rfl
      simp [unsent, pending, here.2]

theorem step [DecidableEq α] (inv : OneSlot port m s) (e : Event α) :
    OneSlot port m (s.step port e) := by
  cases e with
  | recv attr frame => exact inv.recv (s.recv_step attr frame)
  | main =>
      cases fault : s.core.fault with
      | some f =>
          have stopped : s.step port .main = s := by simp only [State.step, State.main, fault]
          rw [stopped]
          exact inv
      | none => exact inv.main fault (s.main_step port fault)

theorem run [DecidableEq α] (port : Port 16 E) (attr : α) (node : NodeId) (frame : CanFrame)
    (payload : CanPayload) (m : Machine E) (schedule : List (Event α)) :
    OneSlot port m (runFrom port (.init attr node frame payload) m schedule) :=
  Run.invariant (OneSlot port m) (OneSlot.init port attr node frame payload m)
    (fun _ e inv => inv.step e) schedule

end OneSlot

/-- No event changes a response that is pending before and after it. -/
theorem pending_kept [DecidableEq α] {port : Port 16 E} {m : Machine E} {s : State α E}
    (inv : OneSlot port m s) (e : Event α) (before : s.sdo.tsdo.notSent = true) :
    (s.step port e).sdo.tsdo.payload = s.sdo.tsdo.payload := by
  cases e with
  | recv attr frame =>
      have step := s.recv_step attr frame
      change (s.onFrameReceived attr frame).sdo.tsdo.payload = _
      generalize s.onFrameReceived attr frame = t at step
      cases step <;> rfl
  | main =>
      change (s.main port).sdo.tsdo.payload = _
      cases fault : s.core.fault with
      | some f => simp only [main, fault]
      | none =>
          have step := s.main_step port fault
          have here := inv.holds fault
          generalize s.main port = t at step
          cases step with
          | store request response at_point =>
              rw [at_point] at here
              exact absurd (before.symm.trans here.2) nofun
          | _ => rfl

/-- Each accepted request is answered once, in order, on the memory its
    predecessors left; what is sent followed by what is still to be sent is the
    list of these answers at every statement of the main loop. -/
theorem responses_once [DecidableEq α]
    (binaryFind : List (ODEntry 16 E) → ODObjectKey 16 → Option (ODEntry 16 E))
    (spec : BinaryFindSpec binaryFind) (d : ObjectDictionary 16 E) (attr : α) (node : NodeId)
    (frame : CanFrame) (payload : CanPayload) (m : Machine E) (schedule : List (Event α)) :
    let server := port binaryFind spec d
    let s := runFrom server (.init attr node frame payload) m schedule
    s.putFrames.map (·.2) ++ s.unsent = s.responses ∧
      s.handled.map (·.2) = Server.answers server.execute (.start m) s.requests ∧
      s.requests ++ s.point.inProgress ++ s.waiting = s.accepted ∧
      (∀ e, s.sdo.tsdo.notSent = true →
        (s.step server e).sdo.tsdo.payload = s.sdo.tsdo.payload) ∧
      s.errcount = BitVec.ofNat 64 s.rejected.length := by
  intro server s
  have inv : OneSlot server m s := OneSlot.run server attr node frame payload m schedule
  exact ⟨inv.sent, inv.answers, inv.order, fun e => pending_kept inv e, inv.errors⟩

section Window

/-- One read request, and the main loop up to the statement after `put_frame`. -/
def window : List (Event Unit) :=
  .recv () ⟨0x601, 8, 0x40⟩ :: List.replicate 14 .main

def atWindow : State Unit Unit :=
  runFrom (port equalRangeFind equalRangeFind_spec .empty) (.init () ⟨1⟩ ⟨0, 0, 0⟩ 0)
    ⟨fun _ => 0, ()⟩ window

theorem responses_once_window :
    let s := atWindow
    s.putFrames.map (·.2) ++ s.unsent = s.responses ∧
      s.handled.map (·.2) = Server.answers
        (port equalRangeFind equalRangeFind_spec .empty).execute (.start ⟨fun _ => 0, ()⟩)
        s.requests ∧
      s.requests ++ s.point.inProgress ++ s.waiting = s.accepted ∧
      (∀ e, s.sdo.tsdo.notSent = true →
        (s.step (port equalRangeFind equalRangeFind_spec .empty) e).sdo.tsdo.payload =
          s.sdo.tsdo.payload) ∧
      s.errcount = BitVec.ofNat 64 s.rejected.length :=
  responses_once equalRangeFind equalRangeFind_spec .empty () ⟨1⟩ ⟨0, 0, 0⟩ 0 ⟨fun _ => 0, ()⟩
    window

/-- There the response is both sent and still marked as pending. -/
theorem window_duplicates :
    atWindow.responses.length = 1 ∧
      atWindow.putFrames.map (·.2) ++ atWindow.pending =
        atWindow.responses ++ atWindow.responses ∧
      ¬ atWindow.putFrames.map (·.2) ++ atWindow.pending = atWindow.responses := by
  have run : atWindow.responses.length = 1 ∧
      atWindow.putFrames.map (·.2) ++ atWindow.pending =
        atWindow.responses ++ atWindow.responses := by decide +kernel
  refine ⟨run.1, run.2, fun once => ?_⟩
  have doubled := congrArg List.length (run.2.symm.trans once)
  rw [List.length_append, run.1] at doubled
  exact absurd doubled (by decide)

end Window

end State

end Ucanopen.H7
