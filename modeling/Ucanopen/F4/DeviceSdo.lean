import Ucanopen.F4.DeviceParts
import Ucanopen.F4.SdoRuns
import Ucanopen.Sdo.Work

/-! # The SDO service next to the application

Handlers, creators and `inspect` change the machine between two requests. The service
still executes each accepted request once, in arrival order, and nothing but its
requests and the application's work reaches the machine.
-/

namespace Ucanopen.F4

variable {α φ E : Type}

/-- An event of the service, or work of the application between two of its steps. -/
inductive SdoEvent (α E : Type) where
  | base (e : Event α)
  | apply (f : Machine E → Machine E)

namespace State

def stepWith [DecidableEq α] (port : Port 8 E) (s : State α E) : SdoEvent α E → State α E
  | .base e => s.step port e
  | .apply f => s.apply f

/-- What an event does to the machine. -/
def works (s : State α E) : SdoEvent α E → List (Work E)
  | .base .main =>
      if s.core.fault = none ∧ s.stage = .handle then
        (s.sdo.rsdoQueue.front?.map Work.request).toList
      else []
  | .base (.recv _ _) => []
  | .apply f => [.application f]

/-- The run is explained by performing the work one piece after another. -/
structure Interleaved (port : Port 8 E) (m : Machine E) (work : List (Work E))
    (s : State α E) : Prop where
  order : s.popped ++ s.sdo.rsdoQueue.items = s.accepted
  overruns : s.overruns = s.rejected.length
  core : s.core = Server.after (Work.perform port) (.start m) work
  answers : Work.exchanges port (.start m) work = s.served.map fun r => (r.request, r.response)
  delivered : s.delivered = (s.served.filter (!·.queueFull)).filterMap (·.response)
  drained : s.stage = .beforeHandle → s.sdo.tsdoQueue.items = []

namespace Interleaved

variable {port : Port 8 E} {m : Machine E} {work : List (Work E)} {s t : State α E}

theorem init (port : Port 8 E) (attr : α) (node : NodeId) (m : Machine E) :
    Interleaved port m [] (.init attr node m) where
  order := rfl
  overruns := rfl
  core := rfl
  answers := rfl
  delivered := rfl
  drained := fun _ => rfl

theorem recv {p : CanPayload} (inv : Interleaved port m work s) (step : RecvStep s p t) :
    Interleaved port m work t := by
  cases step with
  | mismatch => exact inv
  | overrun full =>
      refine { inv with order := ?_, overruns := ?_ }
      · simpa [accepted, popped] using inv.order
      · simpa [rejected] using inv.overruns
  | pushed room =>
      refine { inv with order := ?_, overruns := ?_ }
      · simpa [accepted, popped] using congrArg (· ++ [p]) inv.order
      · simpa [rejected] using inv.overruns

theorem handle {request : CanPayload} (inv : Interleaved port m work s)
    (at_stage : s.stage = .handle) (front : s.sdo.rsdoQueue.front? = some request) :
    Interleaved port m (work ++ [.request request]) (s.handleIteration port request) where
  order := by
    rw [handleIteration_popped, handleIteration_rsdoQueue, List.append_assoc,
      List.singleton_append, ← s.sdo.rsdoQueue.items_of_front front]
    exact inv.order
  overruns := inv.overruns
  core := by
    rw [handleIteration_core, Server.after_concat, ← inv.core]
    rfl
  answers := by
    rw [Work.exchanges_concat, inv.answers, ← inv.core]
    simp [handleIteration, Work.answered, Work.perform]
  delivered := by
    have frames : (s.handleIteration port request).putFrames = s.putFrames := rfl
    have served : (s.handleIteration port request).served = s.served ++ [{
        request := request
        response := (port.execute s.core request).1
        activation := s.activations
        queueFull := s.sdo.tsdoQueue.full }] := rfl
    rw [State.delivered, frames, handleIteration_tsdoQueue, ← List.append_assoc,
      ← show s.delivered = s.putFrames.map (·.payload) ++ s.sdo.tsdoQueue.items from rfl,
      inv.delivered, served, List.filter_append, List.filterMap_append]
    congr 1
    cases s.sdo.tsdoQueue.full <;> cases (port.execute s.core request).1 <;> rfl
  drained := fun wrong => absurd (at_stage.symm.trans wrong) nofun

theorem main (inv : Interleaved port m work s) :
    Interleaved port m (work ++ s.works (.base .main)) (s.main port) := by
  unfold works State.main
  cases fault : s.core.fault with
  | some f => simpa using inv
  | none =>
      cases at_stage : s.stage with
      | beforeSend => simpa using { inv with drained := nofun }
      | send =>
          cases front : s.sdo.tsdoQueue.front? with
          | none =>
              simpa using { inv with drained := fun _ => s.sdo.tsdoQueue.items_of_no_front front }
          | some payload =>
              have sent : Interleaved port m work (s.sendIteration payload) := by
                refine { inv with delivered := ?_, drained := ?_ }
                · exact (s.sendIteration_delivered front).trans inv.delivered
                · exact fun wrong => absurd (at_stage.symm.trans wrong) nofun
              simpa using sent
      | beforeHandle => simpa using { inv with drained := nofun }
      | handle =>
          cases front : s.sdo.rsdoQueue.front? with
          | none => simpa using { inv with drained := nofun }
          | some request => simpa using inv.handle at_stage front
      | afterHandle => simpa using { inv with drained := nofun }

theorem step [DecidableEq α] (inv : Interleaved port m work s) (e : SdoEvent α E) :
    Interleaved port m (work ++ s.works e) (s.stepWith port e) := by
  cases e with
  | base e =>
      cases e with
      | recv attr frame =>
          change Interleaved port m (work ++ []) (s.recv attr frame)
          rw [List.append_nil]
          exact inv.recv (s.recv_step attr frame)
      | main => exact inv.main
  | apply f =>
      refine ⟨inv.order, inv.overruns, ?_, ?_, inv.delivered, inv.drained⟩
      · change (s.apply f).core = _
        rw [works, Server.after_concat, ← inv.core]
        rfl
      · rw [works, Work.exchanges_concat, inv.answers]
        exact List.append_nil _

theorem run [DecidableEq α] (port : Port 8 E) (attr : α) (node : NodeId) (m : Machine E)
    (events : List (SdoEvent α E)) :
    Interleaved port m (Run.trace (stepWith port) works (.init attr node m) events)
      (Run.run (stepWith port) (.init attr node m) events) :=
  Run.traced_invariant (Interleaved port m) (Interleaved.init port attr node m)
    (fun _ _ e inv => inv.step e) events

end Interleaved

end State

/-! ## In the device -/

namespace Device

/-- What an event means to the SDO service and its machine. -/
def sdoSees [DecidableEq α] (app : Application φ E) (d : Device α φ E) :
    DeviceEvent α → List (SdoEvent α E)
  | .interrupt attr frame =>
      if d.server.receiver attr = some .sdoService then [.base (.recv attr frame)] else []
  | .main =>
      match d.sdo.core.fault with
      | some _ => []
      | none =>
          match d.phase with
          | .tpdo => [.apply fun m => (TpdoService.send d.tpdoService d.now m).2.2]
          | .sdoSend => [.base .main]
          | .rpdoHandle => [.apply (app.handled d.rpdo)]
          | .sdoHandle => [.base .main]
          | .inspect => [.apply app.inspect]
          | .nodeSend k =>
              match d.nodes[k]? with
              | none => [.base .main]
              | some node => [.apply fun m => (Node.send node.txMessages d.now m).2.2]
          | .nodeHandle k =>
              match d.nodes[k]? with
              | none => []
              | some node => [.apply (app.handled node.rx)]
          | .nodeInspect k => [.apply (app.nodeInspect k)]
          | _ => []
  | _ => []

variable [DecidableEq α] (app : Application φ E) (port : Port 8 E)

theorem sdo_follows (d : Device α φ E) (e : DeviceEvent α) :
    (d.step app port e).sdo = Run.run (State.stepWith port) d.sdo (d.sdoSees app e) := by
  cases e with
  | interrupt attr frame =>
      change (d.onFrameReceived attr frame).sdo = _
      have step := d.interrupt_step attr frame
      generalize d.onFrameReceived attr frame = t at step ⊢
      cases step with
      | _ => simp [sdoSees, State.stepWith, State.step, *]
  | main =>
      change (d.work app port).sdo = _
      have step := d.main_step app port
      generalize d.work app port = t at step ⊢
      generalize d.emitted port = puts at step
      cases step with
      | stopped fault =>
          obtain ⟨f, stopped⟩ := Option.ne_none_iff_exists'.mp fault
          simp [sdoSees, stopped]
      | passed alive at_phase here =>
          simp [sdoSees, alive, at_phase, here, State.stepWith, State.step]
      | nodeSend alive at_phase here =>
          simp [sdoSees, alive, at_phase, here, State.stepWith]
      | noNode alive at_phase here => simp [sdoSees, alive, at_phase, here]
      | nodeHandle alive at_phase here =>
          simp [sdoSees, alive, at_phase, here, State.stepWith]
      | _ alive at_phase => simp [sdoSees, alive, at_phase, State.stepWith, State.step]
  | advance time => rfl
  | start => rfl
  | stop => rfl

/-- What an event of the device does to the machine. -/
def works (app : Application φ E) (port : Port 8 E) (d : Device α φ E) (e : DeviceEvent α) :
    List (Work E) :=
  Run.trace (State.stepWith port) State.works d.sdo (d.sdoSees app e)

/-- The record of arrivals grows by what the bus brings for the service. -/
theorem arrivals_step {d : Device α φ E}
    (routed : d.server.receiver d.sdo.sdo.rsdoRxattr = some .sdoService) (e : DeviceEvent α) :
    (d.step app port e).sdo.arrivals.map (·.payload) =
        d.sdo.arrivals.map (·.payload) ++ (wire d.sdo.sdo.rsdoRxattr [e]).map (·.payload) ∧
      (d.step app port e).sdo.sdo.rsdoRxattr = d.sdo.sdo.rsdoRxattr := by
  cases e with
  | interrupt attr frame =>
      change (d.onFrameReceived attr frame).sdo.arrivals.map _ = _ ∧
        (d.onFrameReceived attr frame).sdo.sdo.rsdoRxattr = _
      have step := d.interrupt_step attr frame
      generalize d.onFrameReceived attr frame = t at step ⊢
      have other : d.server.receiver attr ≠ some .sdoService →
          wire d.sdo.sdo.rsdoRxattr [.interrupt attr frame] = [] := by
        intro elsewhere
        have differ : attr ≠ d.sdo.sdo.rsdoRxattr := by
          rintro rfl
          exact elsewhere routed
        simp [wire, differ]
      cases step with
      | sdo owner =>
          obtain ⟨arrivals, rxattr⟩ := d.sdo.recv_arrivals attr frame
          refine ⟨arrivals.trans ?_, rxattr⟩
          by_cases same : attr = d.sdo.sdo.rsdoRxattr
          · simp [State.matching, wire, same]
          · simp [State.matching, wire, same]
      | nowhere owner => simp [other (by simp [owner])]
      | rpdo owner => simp [other (by simp [owner])]
      | node k owner => simp [other (by simp [owner])]
  | main =>
      change (d.work app port).sdo.arrivals.map _ = _ ∧ (d.work app port).sdo.sdo.rsdoRxattr = _
      have silent : wire d.sdo.sdo.rsdoRxattr [DeviceEvent.main] = [] := rfl
      have served := (d.sdo.main_step port).arrivals
      have step := d.main_step app port
      generalize d.work app port = t at step ⊢
      generalize d.emitted port = puts at step
      rw [silent, List.map_nil, List.append_nil]
      cases step with
      | sdoSend => exact ⟨congrArg _ served.1, served.2⟩
      | sdoHandle => exact ⟨congrArg _ served.1, served.2⟩
      | passed => exact ⟨congrArg _ served.1, served.2⟩
      | _ => exact ⟨rfl, rfl⟩
  | advance time => exact ⟨(List.append_nil _).symm, rfl⟩
  | start => exact ⟨(List.append_nil _).symm, rfl⟩
  | stop => exact ⟨(List.append_nil _).symm, rfl⟩

theorem arrivals_run {d : Device α φ E} (built : d.rxattrMap ≠ [])
    (routed : d.server.receiver d.sdo.sdo.rsdoRxattr = some .sdoService)
    (schedule : List (DeviceEvent α)) :
    (Run.run (step app port) d schedule).sdo.arrivals.map (·.payload) =
      d.sdo.arrivals.map (·.payload) ++
        (wire d.sdo.sdo.rsdoRxattr schedule).map (·.payload) := by
  induction schedule generalizing d with
  | nil => exact (List.append_nil _).symm
  | cons e es ih =>
      obtain ⟨arrivals, rxattr⟩ := arrivals_step app port routed e
      have kept := map_kept app port built e
      have split : wire d.sdo.sdo.rsdoRxattr (e :: es) =
          wire d.sdo.sdo.rsdoRxattr [e] ++ wire d.sdo.sdo.rsdoRxattr es :=
        List.filterMap_append (l := [e])
      rw [Run.run_cons, ih (by rwa [kept]) (by rw [rxattr, receiver_congr kept]; exact routed),
        arrivals, rxattr, split, List.map_append, List.append_assoc]

end Device

namespace Setup

variable [DecidableEq α]

theorem sdo_routed (setup : Setup α φ E) :
    setup.device.server.receiver setup.rsdoRxattr = some .sdoService :=
  setup.receiver_eq setup.server_sdo

theorem interleaved_run (setup : Setup α φ E) (app : Application φ E) (port : Port 8 E)
    (schedule : List (DeviceEvent α)) :
    State.Interleaved port setup.machine
      (Run.trace (Device.step app port) (Device.works app port) setup.device schedule)
      (setup.run app port schedule).sdo := by
  have alone := State.Interleaved.run port setup.rsdoRxattr setup.nodeId setup.machine
    (Run.trace (Device.step app port) (Device.sdoSees app) setup.device schedule)
  have work := Run.trace_part Device.sdo State.works (Device.sdo_follows app port) setup.device
    schedule
  have run := Run.part_run Device.sdo (Device.sdo_follows app port) setup.device schedule
  unfold Setup.run
  rw [run]
  unfold Device.works
  rw [← work]
  exact alone

/-- The SDO service of the running device executes the requests that the bus brings and
    its queue accepts, each once and in arrival order, interleaved with the work of the
    application and with nothing else; what it answers is what they compute there. -/
theorem requests_interleaved (setup : Setup α φ E) (app : Application φ E) (port : Port 8 E)
    (schedule : List (DeviceEvent α)) :
    State.Interleaved port setup.machine
        (Run.trace (Device.step app port) (Device.works app port) setup.device schedule)
        (setup.run app port schedule).sdo ∧
      (setup.run app port schedule).sdo.arrivals.map (·.payload) =
        (Device.wire setup.rsdoRxattr schedule).map (·.payload) := by
  constructor
  · exact setup.interleaved_run app port schedule
  · exact Device.arrivals_run app port setup.device_map_ne_nil setup.sdo_routed schedule

end Setup

end Ucanopen.F4
