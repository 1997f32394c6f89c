import Ucanopen.H7.DeviceErrors
import Ucanopen.Sdo.Work

/-! # The H7 SDO service next to the application

Between two requests the rest of the device works on the machine. The service still
executes each accepted request once, in arrival order, and puts each answer before it
looks for the next request.
-/

namespace Ucanopen.H7

open F4 (FrameReceiver)

variable {α φ E : Type}

/-- An event of the service, or work of the application between two of its statements. -/
inductive SdoEvent (α E : Type) where
  | base (e : Event α)
  | apply (f : Machine E → Machine E)

namespace State

def stepWith [DecidableEq α] (port : Port 16 E) (s : State α E) : SdoEvent α E → State α E
  | .base e => s.step port e
  | .apply f => s.apply f

/-- The request that a statement executes. An abort frame is executed by passing over it. -/
def executes (s : State α E) : Option CanPayload :=
  match s.core.fault, s.point with
  | none, .handleExecute request => some request
  | none, .handleAbort request =>
      if (ExpeditedSdo.fromPayload request).cs = SdoCsCodes.abort then some request else none
  | _, _ => none

/-- What an event does to the machine. -/
def works (s : State α E) : SdoEvent α E → List (Work E)
  | .base .main => (s.executes.map Work.request).toList
  | .base (.recv _ _) => []
  | .apply f => [.application f]

/-- A request that is executed and not yet finished, with its answer. -/
def computed (s : State α E) : List (CanPayload × Option CanPayload) :=
  match s.point with
  | .handleExecute request => if s.core.fault = none then [] else [(request, none)]
  | .handleStore request response => [(request, some response)]
  | .handleFlag request => [(request, some s.sdo.tsdo.payload)]
  | _ => []

/-- Which flags are known at each statement. -/
def Flags (s : State α E) : Point → Prop
  | .sendPut => s.sdo.tsdo.notSent = true
  | .afterSend => s.sdo.tsdo.notSent = false
  | .handleTest => s.sdo.tsdo.notSent = false
  | .handleCopy => s.sdo.tsdo.notSent = false ∧ s.sdo.rsdo.isUnhandled = true
  | .handleClear request => s.sdo.tsdo.notSent = false ∧ s.waiting = [request]
  | .handleAbort _ => s.sdo.tsdo.notSent = false
  | .handleExecute request =>
      s.sdo.tsdo.notSent = false ∧ (ExpeditedSdo.fromPayload request).cs ≠ SdoCsCodes.abort
  | .handleStore _ _ => s.sdo.tsdo.notSent = false
  | .handleFlag _ => s.sdo.tsdo.notSent = false
  | _ => True

/-- The run is explained by performing the work one piece after another. -/
structure Interleaved (port : Port 16 E) (m : Machine E) (work : List (Work E))
    (s : State α E) : Prop where
  order : s.requests ++ s.point.inProgress ++ s.waiting = s.accepted
  core : s.core = Server.after (Work.perform port) (.start m) work
  answers : Work.exchanges port (.start m) work = s.handled ++ s.computed
  sent : s.putFrames.map (·.2) ++ s.unsent = s.responses
  flags : s.Flags s.point

namespace Interleaved

variable {port : Port 16 E} {m : Machine E} {work : List (Work E)} {s t : State α E}

theorem init (port : Port 16 E) (attr : α) (node : NodeId) (frame : CanFrame)
    (payload : CanPayload) (m : Machine E) :
    Interleaved port m [] (init (.init attr node frame payload) m) where
  order := rfl
  core := rfl
  answers := rfl
  sent := rfl
  flags := trivial

theorem recv {frame : CanFrame} (inv : Interleaved port m work s) (step : RecvStep s frame t) :
    Interleaved port m work t := by
  have flags := inv.flags
  cases step with
  | elsewhere => exact inv
  | overrun occupied =>
      refine { inv with flags := ?_ }
      change Flags _ s.point
      cases at_point : s.point <;> rw [at_point] at flags <;> exact flags
  | success free =>
      refine { inv with order := ?_, flags := ?_ }
      · have order := inv.order
        simp only [waiting, free, Bool.false_eq_true, if_false, List.append_nil] at order
        change s.requests ++ s.point.inProgress ++ [frame.payload] = s.accepted ++ [frame.payload]
        rw [order]
      · change Flags _ s.point
        cases at_point : s.point with
        | handleCopy =>
            rw [at_point] at flags
            exact absurd (free.symm.trans flags.2) Bool.false_ne_true
        | handleClear request =>
            rw [at_point] at flags
            exact absurd flags.2 (by simp [waiting, free])
        | _ => rw [at_point] at flags; exact flags

/-- A statement that only decides where to go on executes nothing. -/
theorem goto {next : Point} (inv : Interleaved port m work s) (alive : s.core.fault = none)
    (leads : Leads s s.point next) :
    s.executes = none ∧ Interleaved port m work { s with point := next } := by
  have order := inv.order
  have sent := inv.sent
  have answers := inv.answers
  have flags := inv.flags
  have progress : s.point.inProgress = next.inProgress ∧ s.point ≠ .sendClear ∧
      next ≠ .sendClear ∧ s.Flags next ∧ s.computed = State.computed { s with point := next } ∧
        s.executes = none := by
    unfold computed executes
    rw [alive]
    generalize s.point = point at leads flags
    cases leads with
    | beforeSend => exact ⟨rfl, nofun, nofun, trivial, rfl, rfl⟩
    | sendPending notSent => exact ⟨rfl, nofun, nofun, notSent, rfl, rfl⟩
    | sendNothing notSent => exact ⟨rfl, nofun, nofun, notSent, rfl, rfl⟩
    | afterSend => exact ⟨rfl, nofun, nofun, flags, rfl, rfl⟩
    | handleWaiting occupied => exact ⟨rfl, nofun, nofun, ⟨flags, occupied⟩, rfl, rfl⟩
    | handleNothing => exact ⟨rfl, nofun, nofun, trivial, rfl, rfl⟩
    | handleCopy => exact ⟨rfl, nofun, nofun, ⟨flags.1, if_pos flags.2⟩, rfl, rfl⟩
    | handleRequest request notAbort =>
        exact ⟨rfl, nofun, nofun, ⟨flags, notAbort⟩, rfl, if_neg notAbort⟩
    | afterHandle => exact ⟨rfl, nofun, nofun, trivial, rfl, rfl⟩
  obtain ⟨same, before, after, holds, computed, executes⟩ := progress
  refine ⟨executes, { inv with order := ?_, answers := ?_, sent := ?_, flags := ?_ }⟩
  · rw [same] at order
    exact order
  · rw [computed] at answers
    exact answers
  · simp only [unsent, if_neg before] at sent
    simp only [unsent, if_neg after]
    exact sent
  · change Flags _ next
    cases next <;> exact holds

/-- A request with nothing left to do for it joins the history with its answer. -/
theorem finish {past : List (Work E)} {request : CanPayload} {answer : Option CanPayload}
    {sdo : SdoService α} (inv : Interleaved port m past s) (progress : s.point.inProgress = [request])
    (slot : sdo.rsdo = s.sdo.rsdo) (before : s.unsent = [])
    (pending : (if sdo.tsdo.notSent then [sdo.tsdo.payload] else []) = answer.toList)
    (core : s.core = Server.after (Work.perform port) (.start m) work)
    (answers : Work.exchanges port (.start m) work = s.handled ++ [(request, answer)]) :
    Interleaved port m work { s with
      sdo := sdo
      handled := s.handled ++ [(request, answer)]
      point := .afterHandle } where
  order := by
    have order := inv.order
    rw [progress] at order
    simpa [requests, waiting, slot, Point.inProgress] using order
  core := core
  answers := by simpa [computed] using answers
  sent := by
    have sent := inv.sent
    rw [before, List.append_nil] at sent
    change s.putFrames.map (·.2) ++ (if sdo.tsdo.notSent then [sdo.tsdo.payload] else []) =
      (s.handled ++ [(request, answer)]).filterMap (·.2)
    rw [pending, sent, List.filterMap_append]
    cases answer <;> rfl
  flags := trivial

theorem main (inv : Interleaved port m work s) :
    Interleaved port m (work ++ s.works (.base .main)) (s.main port) := by
  cases alive : s.core.fault with
  | some f =>
      have stopped : s.main port = s := by
        unfold State.main
        rw [alive]
      have none : s.executes = none := by
        unfold executes
        rw [alive]
      rw [stopped, works, none]
      simpa using inv
  | none =>
      have step := s.main_step port alive
      have order := inv.order
      have sent := inv.sent
      have answers := inv.answers
      have flags := inv.flags
      generalize s.main port = t at step ⊢
      unfold works
      cases step with
      | goto next leads =>
          obtain ⟨executes, goes⟩ := inv.goto alive leads
          rw [executes]
          simpa using goes
      | put at_point =>
          rw [at_point] at order flags
          have none : s.executes = none := by simp [executes, alive, at_point]
          rw [none, Option.map_none, Option.toList_none, List.append_nil]
          have pending : s.pending = [s.sdo.tsdo.payload] := if_pos flags
          refine { inv with order := order, answers := ?_, sent := ?_, flags := trivial }
          · simpa [computed, at_point] using answers
          · simpa [unsent, at_point, pending, responses] using sent
      | sent at_point =>
          rw [at_point] at order
          have none : s.executes = none := by simp [executes, alive, at_point]
          rw [none, Option.map_none, Option.toList_none, List.append_nil]
          refine { inv with order := order, answers := ?_, sent := ?_, flags := rfl }
          · simpa [computed, at_point] using answers
          · simpa [unsent, State.pending, at_point, responses] using sent
      | taken request at_point =>
          rw [at_point] at order flags
          have none : s.executes = none := by simp [executes, alive, at_point]
          rw [none, Option.map_none, Option.toList_none, List.append_nil]
          refine { inv with order := ?_, answers := ?_, sent := ?_, flags := flags.1 }
          · rw [flags.2] at order
            simpa [waiting, Point.inProgress, requests] using order
          · simpa [computed, at_point] using answers
          · simpa [unsent, State.pending, at_point, responses] using sent
      | abort request at_point abort =>
          have idle : s.sdo.tsdo.notSent = false := by rwa [at_point] at flags
          have passed : s.executes = some request := by
            simp [executes, alive, at_point, abort]
          have ran : Work.perform port s.core (.request request) = (none, s.core) :=
            port.execute_abort s.core abort
          rw [passed]
          refine inv.finish (by rw [at_point]; rfl) rfl ?_ ?_ ?_ ?_
          · simp [unsent, State.pending, idle]
          · simp [idle]
          · rw [Option.map_some, Option.toList_some, Server.after_concat, ← inv.core, ran]
          · rw [Option.map_some, Option.toList_some, Work.exchanges_concat, ← inv.core, ran, answers]
            simp [computed, at_point, Work.answered]
      | fault request core at_point ran =>
          rw [at_point] at flags
          have execute : s.executes = some request := by simp [executes, alive, at_point]
          have performed : Work.perform port s.core (.request request) = (none, core) := ran
          have faulted : core.fault ≠ none := fun alive => by
            have answered := port.execute_answers (c := s.core) (by rw [ran]; exact alive) flags.2
            exact absurd answered (by simp [ran])
          rw [execute, Option.map_some, Option.toList_some]
          refine { inv with core := ?_, answers := ?_ }
          · rw [Server.after_concat, ← inv.core, performed]
          · rw [Work.exchanges_concat, ← inv.core, performed, answers]
            simp [computed, at_point, Work.answered, alive, faulted]
      | execute request response core at_point ran =>
          rw [at_point] at flags order
          have execute : s.executes = some request := by simp [executes, alive, at_point]
          have performed : Work.perform port s.core (.request request) = (some response, core) := ran
          rw [execute, Option.map_some, Option.toList_some]
          refine ⟨order, ?_, ?_, ?_, flags.1⟩
          · rw [Server.after_concat, ← inv.core, performed]
          · rw [Work.exchanges_concat, ← inv.core, performed, answers]
            simp [computed, at_point, Work.answered, alive]
          · simpa [unsent, State.pending, responses, at_point] using sent
      | store request response at_point =>
          rw [at_point] at order
          have idle : s.sdo.tsdo.notSent = false := by rwa [at_point] at flags
          have none : s.executes = none := by simp [executes, alive, at_point]
          rw [none, Option.map_none, Option.toList_none, List.append_nil]
          refine { inv with order := order, answers := ?_, sent := ?_, flags := idle }
          · simpa [computed, at_point] using answers
          · simpa [unsent, State.pending, responses, at_point, idle] using sent
      | flag request at_point =>
          have idle : s.sdo.tsdo.notSent = false := by rwa [at_point] at flags
          have none : s.executes = none := by simp [executes, alive, at_point]
          rw [none, Option.map_none, Option.toList_none, List.append_nil]
          refine inv.finish (by rw [at_point]; rfl) rfl ?_ rfl inv.core ?_
          · simp [unsent, State.pending, idle]
          · simpa [computed, at_point] using answers

theorem step [DecidableEq α] (inv : Interleaved port m work s) (e : SdoEvent α E) :
    Interleaved port m (work ++ s.works e) (s.stepWith port e) := by
  cases e with
  | base e =>
      cases e with
      | recv attr frame =>
          change Interleaved port m (work ++ []) (s.onFrameReceived attr frame)
          rw [List.append_nil]
          exact inv.recv (s.recv_step attr frame)
      | main => exact inv.main
  | apply f =>
      have flags : (s.apply f).Flags (s.apply f).point := by
        have flags := inv.flags
        change State.Flags _ s.point
        cases at_point : s.point <;> rw [at_point] at flags <;> exact flags
      refine ⟨inv.order, ?_, ?_, inv.sent, flags⟩
      · change (s.apply f).core = _
        rw [works, Server.after_concat, ← inv.core]
        rfl
      · rw [works, Work.exchanges_concat, inv.answers]
        exact List.append_nil _

theorem run [DecidableEq α] (port : Port 16 E) (attr : α) (node : NodeId) (frame : CanFrame)
    (payload : CanPayload) (m : Machine E) (events : List (SdoEvent α E)) :
    Interleaved port m
      (Run.trace (stepWith port) works (State.init (.init attr node frame payload) m) events)
      (Run.run (stepWith port) (State.init (.init attr node frame payload) m) events) :=
  Run.traced_invariant (Interleaved port m) (Interleaved.init port attr node frame payload m)
    (fun _ _ e inv => inv.step e) events

end Interleaved

end State

/-! ## In the device -/

namespace Device

/-- What an event means to the SDO service and its machine. -/
def sdoSees [DecidableEq α] (app : Application φ E) (d : Device α φ E) :
    DeviceEvent α → List (SdoEvent α E)
  | .interrupt attr frame =>
      if d.receiver attr = some .sdoService then [.base (.recv attr frame)] else []
  | .main =>
      match d.sdo.core.fault with
      | some _ => []
      | none =>
          match d.phase with
          | .tpdo => [.apply fun m => (TpdoService.send d.tpdoService d.now m).2.2]
          | .sdoSend => [.base .main]
          | .nodeSend k =>
              match d.nodes[k]? with
              | none => []
              | some node => [.apply fun m => (Node.send node.enabled node.txMessages d.now m).2.2]
          | .rpdoHandle => [.apply (app.handled d.rpdo)]
          | .sdoHandle => [.base .main]
          | .nodeHandle k =>
              match d.nodes[k]? with
              | none => []
              | some node => [.apply (app.handled node.rx)]
          | .nodeOnRun k => [.apply (app.nodeOnRun k)]
          | .onRun => [.apply app.onRun, .base .main]
          | _ => []
  | _ => []

variable [DecidableEq α] (app : Application φ E) (port : Port 16 E)

theorem sdo_follows (d : Device α φ E) (e : DeviceEvent α) :
    (d.step app port e).sdo = Run.run (State.stepWith port) d.sdo (d.sdoSees app e) := by
  cases e with
  | interrupt attr frame =>
      change (d.deliver attr frame).sdo = _
      have step := d.interrupt_step attr frame
      generalize d.deliver attr frame = t at step ⊢
      cases step with
      | _ => simp [sdoSees, State.stepWith, State.step, *]
  | main =>
      change (d.work app port).sdo = _
      have step := d.main_step app port
      generalize d.work app port = t at step ⊢
      generalize d.emitted port = puts at step
      cases step with
      | stopped fault =>
          obtain ⟨f, stopped⟩ := Option.ne_none_iff_exists'.mp fault
          simp [sdoSees, stopped]
      | sent alive at_phase last => simp [sdoSees, alive, at_phase, last]
      | nodeSend alive at_phase here => simp [sdoSees, alive, at_phase, here, State.stepWith]
      | handled alive at_phase last => simp [sdoSees, alive, at_phase, last]
      | nodeHandle alive at_phase here =>
          simp [sdoSees, alive, at_phase, here, State.stepWith]
      | _ alive at_phase => simp [sdoSees, alive, at_phase, State.stepWith, State.step]
  | _ => rfl

/-- What an event of the device does to the machine. -/
def works (app : Application φ E) (port : Port 16 E) (d : Device α φ E) (e : DeviceEvent α) :
    List (Work E) :=
  Run.trace (State.stepWith port) State.works d.sdo (d.sdoSees app e)

end Device

namespace Setup

variable [DecidableEq α] (app : Application φ E) (port : Port 16 E)

theorem work_run (setup : Setup α φ E) (schedule : List (DeviceEvent α)) :
    State.Interleaved port setup.machine
      (Run.trace (Device.step app port) (Device.works app port) setup.device schedule)
      (setup.run app port schedule).sdo := by
  have alone := State.Interleaved.run port setup.sdoAttr setup.nodeId setup.sdoFrame
    setup.sdoPayload setup.machine
    (Run.trace (Device.step app port) (Device.sdoSees app) setup.device schedule)
  have work := Run.trace_part Device.sdo State.works (Device.sdo_follows app port) setup.device
    schedule
  have run := Run.part_run Device.sdo (Device.sdo_follows app port) setup.device schedule
  unfold Setup.run
  rw [run]
  unfold Device.works
  rw [← work]
  exact alone

/-- Every request the bus brings is taken or refused, depending on the slot. The running
    device executes those it takes, each once and in arrival order, interleaved with the
    work of the application and with nothing else, and answers what they compute there. -/
theorem requests_served (setup : Setup α φ E) (schedule : List (DeviceEvent α)) :
    let d := setup.run app port schedule
    let arrivals := Run.trace (Device.step app port) (Device.offered setup.sdoAttr) setup.device
      schedule
    State.Interleaved port setup.machine
        (Run.trace (Device.step app port) (Device.works app port) setup.device schedule) d.sdo ∧
      d.sdo.accepted = (arrivals.filter (·.2)).map (·.1) ∧
      d.sdo.rejected = (arrivals.filter (!·.2)).map (·.1) := by
  have arrived := setup.arrived_run app port schedule
  exact ⟨setup.work_run app port schedule, arrived.accepted, arrived.rejected⟩

end Setup

end Ucanopen.H7
