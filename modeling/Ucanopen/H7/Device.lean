import Ucanopen.H7.Senders
import Ucanopen.H7.SdoRuns
import Ucanopen.H7.Overwrites
import Ucanopen.F4.DeviceParts

/-! # A whole device of the H7 port

`Server::run` calls every `send` before any `handle_recv_frames`, and the interrupt
counts the frames that their receiver did not take. A node can be disabled and enabled
at any time: a disabled node neither sends nor receives, but goes on handling what it
has received.

As in the other port a step of the main loop is an iteration of a service's loop, or a
statement of the SDO service.
-/

namespace Ucanopen.H7

open Reception
open F4 (FrameReceiver Source Put puts)

variable {n : Nat} {α φ E : Type}

/-! ## The server as it is configured -/

structure Server (α φ : Type) where
  rpdoService : Table 4 α φ
  sdoService : SdoService α
  nodes : List (Σ n, Table n α φ)
  attrMap : List (α × FrameReceiver)
  nmtState : NmtState

namespace Server

/-- The constructor, given what the RPDO slots and the slots of the SDO service happen
    to contain and the attribute the SDO service got. -/
def init (attr : Fin 4 → α) (frame : Fin 4 → CanFrame) (sdoAttr : α) (node : NodeId)
    (sdoFrame : CanFrame) (sdoPayload : CanPayload) : Server α φ where
  rpdoService := F4.RpdoService.init attr frame
  sdoService := .init sdoAttr node sdoFrame sdoPayload
  nodes := []
  attrMap := []
  nmtState := .preOperational

/-- The entries `start` pushes. -/
def routes (s : Server α φ) : List (α × FrameReceiver) :=
  (F4.RpdoService.getRxAttr s.rpdoService).map (fun attr => (attr, .rpdoService)) ++
    s.sdoService.getRxAttr.map (fun attr => (attr, .sdoService)) ++
    s.nodes.zipIdx.flatMap fun (node, k) =>
      (F4.Node.getRxAttr node.2).map fun attr => (attr, .node k)

def start (s : Server α φ) : Server α φ :=
  { s with
    attrMap := if s.attrMap.isEmpty then s.routes else s.attrMap
    nmtState := .operational }

def stop (s : Server α φ) : Server α φ := { s with nmtState := .stopped }

/-- The calls are those of the other port, and so is what registering does. -/
def step (s : Server α φ) : F4.Server.Call α φ → Server α φ
  | .registerRpdo rpdo attr timeout handler now =>
      { s with
        rpdoService :=
          F4.RpdoService.registerRpdo s.rpdoService rpdo attr timeout handler now }
  | .addNode => { s with nodes := s.nodes ++ [⟨0, F4.Node.init⟩] }
  | .registerRxMessage k attr timeout handler now =>
      { s with
        nodes := s.nodes.modify k fun node =>
          ⟨node.1 + 1, F4.Node.registerRxMessage node.2 attr timeout handler now⟩ }
  | .start => s.start
  | .stop => s.stop

/-- The server of the other port with the same receivers, as far as frames are routed. -/
def asF4 (s : Server α φ) : F4.Server α φ where
  rpdoService := s.rpdoService
  sdoService := .init s.sdoService.rsdo.attr ⟨0⟩
  nodes := s.nodes
  rxattrMap := s.attrMap
  nmtState := s.nmtState

theorem asF4_step (s : Server α φ) (c : F4.Server.Call α φ) :
    (s.step c).asF4 = s.asF4.step c := by
  cases c with
  | _ => rfl

/-- Both ports are configured alike. -/
theorem asF4_run (s : Server α φ) (calls : List (F4.Server.Call α φ)) :
    (Run.run step s calls).asF4 = Run.run F4.Server.step s.asF4 calls := by
  induction calls generalizing s with
  | nil => rfl
  | cons c calls ih => rw [Run.run_cons, ih, asF4_step, Run.run_cons]

end Server

/-! ## The device -/

/-- What the application's functions do to the machine. A handler gets the bytes it read. -/
structure Application (φ E : Type) where
  handler : φ → List Byte → Machine E → Machine E
  onRun : Machine E → Machine E
  nodeOnRun : Nat → Machine E → Machine E

/-- What a step of a reception loop does to the machine. -/
def Application.handled (app : Application φ E) (s : Reception.State n α φ) :
    Machine E → Machine E :=
  F4.Application.handled ⟨app.handler, app.onRun, app.nodeOnRun⟩ s

/-- The application changes the machine between two statements of the SDO service. -/
def State.apply (s : State α E) (f : Machine E → Machine E) : State α E :=
  { s with core := { s.core with machine := f s.core.machine } }

structure NodeUnit (α φ E : Type) where
  enabled : Bool
  count : Nat
  rx : Reception.State count α φ
  txMessages : List (Node.TxMessage (Machine E))

/-- Where `Server::run` stands. -/
inductive Phase where
  | heartbeat
  | sync
  | tpdo
  | sdoSend
  /-- The test of the first loop over the nodes, and `node->send()`. -/
  | nodeSend (k : Nat)
  | rpdoHandle
  | sdoHandle
  /-- The test of the second loop, and `node->handle_recv_frames()`. -/
  | nodeHandle (k : Nat)
  | nodeOnRun (k : Nat)
  | onRun
  deriving Repr, DecidableEq

structure Device (α φ E : Type) where
  heartbeatService : HeartbeatService
  syncService : SyncService
  tpdoService : List (TpdoService.Message (Machine E))
  /-- With the machine the whole device works on. -/
  sdo : State α E
  rpdo : Reception.State 4 α φ
  nodes : List (NodeUnit α φ E)
  attrMap : List (α × FrameReceiver)
  nmtState : NmtState
  errcount : BitVec 64
  now : Int
  phase : Phase
  /-- Complete passes of `run`. -/
  passes : Nat
  /-- Oldest first. -/
  bus : List Put

inductive DeviceEvent (α : Type) where
  | interrupt (attr : α) (frame : CanFrame)
  | main
  | advance (time : Nat)
  | start
  | stop
  | enable (k : Nat)
  | disable (k : Nat)

/-- What a reception reports. -/
def frameRecvStatus : Reception.Outcome n → FrameRecvStatus
  | .mismatch => .attrMismatch
  | .stored _ => .success
  | .overrun _ | .dropped _ => .overrun

namespace Device

def machine (d : Device α φ E) : Machine E := d.sdo.core.machine

/-- The device as the object that frames are routed in. -/
def server (d : Device α φ E) : Server α φ where
  rpdoService := d.rpdo.table
  sdoService := d.sdo.sdo
  nodes := d.nodes.map fun node => ⟨node.count, node.rx.table⟩
  attrMap := d.attrMap
  nmtState := d.nmtState

/-- The receiver whose `recv_frame` is called for a frame with this attribute. -/
def receiver [DecidableEq α] (d : Device α φ E) (attr : α) : Option FrameReceiver :=
  (d.attrMap.find? fun item => decide (item.1 = attr)).map Prod.snd

/-- What the receiver returns for a frame. -/
def status [DecidableEq α] (d : Device α φ E) (attr : α) (frame : CanFrame) :
    Option FrameRecvStatus :=
  match d.receiver attr with
  | none => none
  | some .rpdoService =>
      some (frameRecvStatus (RpdoService.recvFrame d.rpdo.table attr frame d.rpdo.now).1)
  | some .sdoService => some (d.sdo.sdo.recvFrame attr frame).1
  | some (.node k) =>
      d.nodes[k]?.map fun node =>
        frameRecvStatus (Node.recvFrame node.enabled node.rx.table attr frame node.rx.now).1

/-- The receiver takes the frame or leaves it. -/
def deliver [DecidableEq α] (d : Device α φ E) (attr : α) (frame : CanFrame) : Device α φ E :=
  match d.receiver attr with
  | none => d
  | some .rpdoService => { d with rpdo := d.rpdo.recv RpdoService.recvFrame attr frame }
  | some .sdoService => { d with sdo := d.sdo.onFrameReceived attr frame }
  | some (.node k) =>
      { d with
        nodes := d.nodes.modify k fun node =>
          { node with rx := node.rx.recv (Node.recvFrame node.enabled) attr frame } }

/-- The receive interrupt. -/
def onFrameReceived [DecidableEq α] (d : Device α φ E) (attr : α) (frame : CanFrame) :
    Device α φ E :=
  { d.deliver attr frame with
    errcount :=
      match d.status attr frame with
      | none => d.errcount
      | some .success => d.errcount
      | some _ => d.errcount + 1 }

/-- The ways the interrupt can change the receivers. -/
inductive InterruptStep [DecidableEq α] (d : Device α φ E) (attr : α) (frame : CanFrame) :
    Device α φ E → Prop
  | nowhere (owner : d.receiver attr = none) : InterruptStep d attr frame d
  | rpdo (owner : d.receiver attr = some .rpdoService) :
      InterruptStep d attr frame { d with rpdo := d.rpdo.recv RpdoService.recvFrame attr frame }
  | sdo (owner : d.receiver attr = some .sdoService) :
      InterruptStep d attr frame { d with sdo := d.sdo.onFrameReceived attr frame }
  | node (k : Nat) (owner : d.receiver attr = some (.node k)) :
      InterruptStep d attr frame
        { d with
          nodes := d.nodes.modify k fun node =>
            { node with rx := node.rx.recv (Node.recvFrame node.enabled) attr frame } }

theorem interrupt_step [DecidableEq α] (d : Device α φ E) (attr : α) (frame : CanFrame) :
    InterruptStep d attr frame (d.deliver attr frame) := by
  unfold deliver
  cases owner : d.receiver attr with
  | none => exact .nowhere owner
  | some receiver =>
      cases receiver with
      | rpdoService => exact .rpdo owner
      | sdoService => exact .sdo owner
      | node k => exact .node k owner

/-- What the next step of the main loop puts on the bus. -/
def emitted (port : Port 16 E) (d : Device α φ E) : List Put :=
  match d.sdo.core.fault with
  | some _ => []
  | none =>
      match d.phase with
      | .heartbeat =>
          puts d.now d.passes (fun _ => .heartbeat)
            [(d.heartbeatService.send d.nmtState d.now).2]
      | .sync => puts d.now d.passes (fun _ => .sync) [(d.syncService.send d.now).2]
      | .tpdo =>
          puts d.now d.passes .tpdo (TpdoService.send d.tpdoService d.now d.machine).2.1
      | .sdoSend =>
          ((d.sdo.main port).putFrames.drop d.sdo.putFrames.length).map
            fun (header, payload) => ⟨d.now, d.passes, .sdo, header.frame payload⟩
      | .nodeSend k =>
          match d.nodes[k]? with
          | none => []
          | some node =>
              puts d.now d.passes (.node k)
                (Node.send node.enabled node.txMessages d.now d.machine).2.1
      | _ => []

/-- The services after the next step of the main loop, and where it stands then. -/
def work (app : Application φ E) (port : Port 16 E) (d : Device α φ E) : Device α φ E :=
  match d.sdo.core.fault with
  | some _ => d
  | none =>
      match d.phase with
      | .heartbeat =>
          { d with
            heartbeatService := (d.heartbeatService.send d.nmtState d.now).1
            phase := .sync }
      | .sync => { d with syncService := (d.syncService.send d.now).1, phase := .tpdo }
      | .tpdo =>
          { d with
            tpdoService := (TpdoService.send d.tpdoService d.now d.machine).1
            sdo := d.sdo.apply fun m => (TpdoService.send d.tpdoService d.now m).2.2
            phase := .sdoSend }
      | .sdoSend =>
          let sdo := d.sdo.main port
          { d with sdo := sdo, phase := if sdo.point = .afterSend then .nodeSend 0 else .sdoSend }
      | .nodeSend k =>
          match d.nodes[k]? with
          | none => { d with phase := .rpdoHandle }
          | some node =>
              { d with
                nodes := d.nodes.set k
                  { node with
                    txMessages := (Node.send node.enabled node.txMessages d.now d.machine).1 }
                sdo := d.sdo.apply fun m =>
                  (Node.send node.enabled node.txMessages d.now m).2.2
                phase := .nodeSend (k + 1) }
      | .rpdoHandle =>
          let rpdo := d.rpdo.main
          { d with
            rpdo := rpdo
            sdo := d.sdo.apply (app.handled d.rpdo)
            phase := if rpdo.point = .outside then .sdoHandle else .rpdoHandle }
      | .sdoHandle =>
          let sdo := d.sdo.main port
          { d with
            sdo := sdo
            phase := if sdo.point = .afterHandle then .nodeHandle 0 else .sdoHandle }
      | .nodeHandle k =>
          match d.nodes[k]? with
          | none => { d with phase := .onRun }
          | some node =>
              { d with
                nodes := d.nodes.set k { node with rx := node.rx.main }
                sdo := d.sdo.apply (app.handled node.rx)
                phase := if node.rx.main.point = .outside then .nodeOnRun k else .nodeHandle k }
      | .nodeOnRun k =>
          { d with sdo := d.sdo.apply (app.nodeOnRun k), phase := .nodeHandle (k + 1) }
      | .onRun =>
          { d with
            sdo := (d.sdo.apply app.onRun).main port
            phase := .heartbeat
            passes := d.passes + 1 }

/-- The next step of `Server::run`. -/
def main (app : Application φ E) (port : Port 16 E) (d : Device α φ E) : Device α φ E :=
  { d.work app port with bus := d.bus ++ d.emitted port }

/-- The ways a step of the main loop can change the services, and what it puts. -/
inductive MainStep (app : Application φ E) (port : Port 16 E) (d : Device α φ E) :
    Device α φ E → List Put → Prop
  | stopped (fault : d.sdo.core.fault ≠ none) : MainStep app port d d []
  | heartbeat (alive : d.sdo.core.fault = none) (at_phase : d.phase = .heartbeat) :
      MainStep app port d
        { d with
          heartbeatService := (d.heartbeatService.send d.nmtState d.now).1
          phase := .sync }
        (puts d.now d.passes (fun _ => .heartbeat)
          [(d.heartbeatService.send d.nmtState d.now).2])
  | sync (alive : d.sdo.core.fault = none) (at_phase : d.phase = .sync) :
      MainStep app port d
        { d with syncService := (d.syncService.send d.now).1, phase := .tpdo }
        (puts d.now d.passes (fun _ => .sync) [(d.syncService.send d.now).2])
  | tpdo (alive : d.sdo.core.fault = none) (at_phase : d.phase = .tpdo) :
      MainStep app port d
        { d with
          tpdoService := (TpdoService.send d.tpdoService d.now d.machine).1
          sdo := d.sdo.apply fun m => (TpdoService.send d.tpdoService d.now m).2.2
          phase := .sdoSend }
        (puts d.now d.passes .tpdo (TpdoService.send d.tpdoService d.now d.machine).2.1)
  | sdoSend (alive : d.sdo.core.fault = none) (at_phase : d.phase = .sdoSend) :
      MainStep app port d
        { d with
          sdo := d.sdo.main port
          phase := if (d.sdo.main port).point = .afterSend then .nodeSend 0 else .sdoSend }
        (((d.sdo.main port).putFrames.drop d.sdo.putFrames.length).map
          fun (header, payload) => ⟨d.now, d.passes, .sdo, header.frame payload⟩)
  | sent {k : Nat} (alive : d.sdo.core.fault = none) (at_phase : d.phase = .nodeSend k)
      (last : d.nodes[k]? = none) : MainStep app port d { d with phase := .rpdoHandle } []
  | nodeSend {k : Nat} {node : NodeUnit α φ E} (alive : d.sdo.core.fault = none)
      (at_phase : d.phase = .nodeSend k) (here : d.nodes[k]? = some node) :
      MainStep app port d
        { d with
          nodes := d.nodes.set k
            { node with
              txMessages := (Node.send node.enabled node.txMessages d.now d.machine).1 }
          sdo := d.sdo.apply fun m => (Node.send node.enabled node.txMessages d.now m).2.2
          phase := .nodeSend (k + 1) }
        (puts d.now d.passes (.node k)
          (Node.send node.enabled node.txMessages d.now d.machine).2.1)
  | rpdoHandle (alive : d.sdo.core.fault = none) (at_phase : d.phase = .rpdoHandle) :
      MainStep app port d
        { d with
          rpdo := d.rpdo.main
          sdo := d.sdo.apply (app.handled d.rpdo)
          phase := if d.rpdo.main.point = .outside then .sdoHandle else .rpdoHandle } []
  | sdoHandle (alive : d.sdo.core.fault = none) (at_phase : d.phase = .sdoHandle) :
      MainStep app port d
        { d with
          sdo := d.sdo.main port
          phase := if (d.sdo.main port).point = .afterHandle then .nodeHandle 0 else .sdoHandle }
        []
  | handled {k : Nat} (alive : d.sdo.core.fault = none) (at_phase : d.phase = .nodeHandle k)
      (last : d.nodes[k]? = none) : MainStep app port d { d with phase := .onRun } []
  | nodeHandle {k : Nat} {node : NodeUnit α φ E} (alive : d.sdo.core.fault = none)
      (at_phase : d.phase = .nodeHandle k) (here : d.nodes[k]? = some node) :
      MainStep app port d
        { d with
          nodes := d.nodes.set k { node with rx := node.rx.main }
          sdo := d.sdo.apply (app.handled node.rx)
          phase := if node.rx.main.point = .outside then .nodeOnRun k else .nodeHandle k } []
  | nodeOnRun {k : Nat} (alive : d.sdo.core.fault = none) (at_phase : d.phase = .nodeOnRun k) :
      MainStep app port d
        { d with sdo := d.sdo.apply (app.nodeOnRun k), phase := .nodeHandle (k + 1) } []
  | onRun (alive : d.sdo.core.fault = none) (at_phase : d.phase = .onRun) :
      MainStep app port d
        { d with
          sdo := (d.sdo.apply app.onRun).main port
          phase := .heartbeat
          passes := d.passes + 1 } []

theorem main_step (app : Application φ E) (port : Port 16 E) (d : Device α φ E) :
    MainStep app port d (d.work app port) (d.emitted port) := by
  unfold work emitted
  cases alive : d.sdo.core.fault with
  | some f => exact .stopped (by simp [alive])
  | none =>
      cases at_phase : d.phase with
      | heartbeat => exact .heartbeat alive at_phase
      | sync => exact .sync alive at_phase
      | tpdo => exact .tpdo alive at_phase
      | sdoSend => exact .sdoSend alive at_phase
      | nodeSend k =>
          cases here : d.nodes[k]? with
          | none => simpa only [here] using .sent alive at_phase here
          | some node => simpa only [here] using .nodeSend alive at_phase here
      | rpdoHandle => exact .rpdoHandle alive at_phase
      | sdoHandle => exact .sdoHandle alive at_phase
      | nodeHandle k =>
          cases here : d.nodes[k]? with
          | none => simpa only [here] using .handled alive at_phase here
          | some node => simpa only [here] using .nodeHandle alive at_phase here
      | nodeOnRun k => exact .nodeOnRun alive at_phase
      | onRun => exact .onRun alive at_phase

def advance (d : Device α φ E) (time : Nat) : Device α φ E :=
  { d with
    now := d.now + time
    rpdo := { d.rpdo with now := d.rpdo.now + time }
    nodes := d.nodes.map fun node =>
      { node with rx := { node.rx with now := node.rx.now + time } } }

def start (d : Device α φ E) : Device α φ E :=
  { d with attrMap := d.server.start.attrMap, nmtState := d.server.start.nmtState }

def stop (d : Device α φ E) : Device α φ E := { d with nmtState := d.server.stop.nmtState }

/-- `enable()` and `disable()` of a node. -/
def setEnabled (d : Device α φ E) (k : Nat) (enabled : Bool) : Device α φ E :=
  { d with nodes := d.nodes.modify k fun node => { node with enabled := enabled } }

def step [DecidableEq α] (app : Application φ E) (port : Port 16 E) (d : Device α φ E) :
    DeviceEvent α → Device α φ E
  | .interrupt attr frame => d.onFrameReceived attr frame
  | .main => d.main app port
  | .advance time => d.advance time
  | .start => d.start
  | .stop => d.stop
  | .enable k => d.setEnabled k true
  | .disable k => d.setEnabled k false

end Device

/-! ## Configuration -/

/-- The time at which a call registers a message. -/
def registeredAt : F4.Server.Call α φ → Option Int
  | .registerRpdo _ _ _ _ now => some now
  | .registerRxMessage _ _ _ _ now => some now
  | _ => none

/-- What a program does before the main loop: it constructs the server, makes calls,
    registers what is to be sent, and starts the server. `register_message` returns an
    attribute of its own for each message. -/
structure Setup (α φ E : Type) where
  attr : Fin 4 → α
  frame : Fin 4 → CanFrame
  sdoAttr : α
  nodeId : NodeId
  sdoFrame : CanFrame
  sdoPayload : CanPayload
  calls : List (F4.Server.Call α φ)
  first : .start ∉ calls
  fresh : (sdoAttr :: F4.Server.attrs calls).Nodup
  heartbeatPeriod : Int
  heartbeatNow : Int
  syncPeriod : Int
  syncNow : Int
  tpdos : List (TpdoService.Registration (Machine E))
  txMessages : Nat → List (Node.TxRegistration (Machine E))
  machine : Machine E
  now : Int
  past : ∀ c ∈ calls, ∀ time, registeredAt c = some time → time ≤ now

namespace Setup

/-- The server when `start` has returned. -/
def server (setup : Setup α φ E) : Server α φ :=
  (Run.run Server.step (.init setup.attr setup.frame setup.sdoAttr setup.nodeId setup.sdoFrame
    setup.sdoPayload) setup.calls).start

/-- The device at the entry of the main loop. -/
def device (setup : Setup α φ E) : Device α φ E where
  heartbeatService := .init setup.nodeId setup.heartbeatPeriod setup.heartbeatNow
  syncService := .init setup.nodeId setup.syncPeriod setup.syncNow
  tpdoService := Run.run TpdoService.registerTpdo (TpdoService.init setup.nodeId) setup.tpdos
  sdo := .init (.init setup.sdoAttr setup.nodeId setup.sdoFrame setup.sdoPayload) setup.machine
  rpdo := .init setup.server.rpdoService setup.now
  nodes := setup.server.nodes.mapIdx fun k node =>
    ⟨true, node.1, .init node.2 setup.now,
      Run.run Node.registerTxMessage [] (setup.txMessages k)⟩
  attrMap := setup.server.attrMap
  nmtState := setup.server.nmtState
  errcount := 0
  now := setup.now
  phase := .heartbeat
  passes := 0
  bus := []

/-- A whole run of the device. -/
def run [DecidableEq α] (setup : Setup α φ E) (app : Application φ E) (port : Port 16 E)
    (schedule : List (DeviceEvent α)) : Device α φ E :=
  Run.run (Device.step app port) setup.device schedule

end Setup

/-! ## A small device -/

/-- An application that does nothing. -/
def Application.idle : Application φ E := ⟨fun _ _ m => m, fun m => m, fun _ m => m⟩

/-- One node, which receives one message. -/
def sampleCalls : List (F4.Server.Call Nat Unit) :=
  [.addNode, .registerRxMessage 0 11 100 (some ()) 0]

theorem sampleCalls_past : ∀ c ∈ sampleCalls, ∀ time, registeredAt c = some time → time ≤ 0 := by
  simp [sampleCalls, registeredAt]

/-- A server with a heartbeat and one node, which receives one message and sends one. -/
def Setup.sample : Setup Nat Unit Unit where
  attr := Fin.val
  frame := fun _ => ⟨0, 8, 0⟩
  sdoAttr := 10
  nodeId := ⟨5⟩
  sdoFrame := ⟨0, 8, 0⟩
  sdoPayload := 0
  calls := sampleCalls
  first := by simp [sampleCalls]
  fresh := by decide
  heartbeatPeriod := 10
  heartbeatNow := 0
  syncPeriod := 0
  syncNow := 0
  tpdos := []
  txMessages := fun _ => [⟨⟨0x10, 8⟩, 5, fun m => (0, m), 0⟩]
  machine := ⟨fun _ => 0, ()⟩
  now := 0
  past := sampleCalls_past

/-- A server without objects. -/
def emptyPort : Port 16 Unit := port equalRangeFind equalRangeFind_spec .empty

/-- A client sends a request, and the main loop runs for a while. -/
def askingRun (steps : Nat) : List (DeviceEvent Nat) :=
  .interrupt 10 ⟨0x605, 8, 0x40⟩ :: List.replicate steps .main

/-- The registration of an RPDO, and those of the small device. -/
def listeningCalls : List (F4.Server.Call Nat Unit) :=
  .registerRpdo Reception.rpdo1 7 100 (some ()) 0 :: sampleCalls

theorem listeningCalls_past :
    ∀ c ∈ listeningCalls, ∀ time, registeredAt c = some time → time ≤ 0 := by
  simp [listeningCalls, sampleCalls, registeredAt]

/-- The small device with an RPDO. -/
def Setup.listening : Setup Nat Unit Unit :=
  { Setup.sample with
    calls := listeningCalls
    first := by simp [listeningCalls, sampleCalls]
    fresh := by decide
    past := listeningCalls_past }

/-- The messages its node receives. -/
def listeningNode : Reception.Table 1 Nat Unit :=
  F4.Node.registerRxMessage F4.Node.init 11 100 (some ()) 0

theorem listening_node : Setup.listening.server.nodes[0]? = some ⟨1, listeningNode⟩ := rfl

/-- The bus brings a frame for the RPDO and one for the node, and the main loop runs for
    a while. -/
def listeningRun (steps : Nat) : List (DeviceEvent Nat) :=
  [.interrupt 7 ⟨0x205, 8, 1⟩, .interrupt 11 ⟨0x10, 8, 2⟩] ++ List.replicate steps .main

end Ucanopen.H7
