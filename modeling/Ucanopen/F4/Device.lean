import Ucanopen.F4.Identifiers
import Ucanopen.F4.Delivery
import Ucanopen.F4.Parameters
import Ucanopen.F4.Puts

/-! # A whole device of the F4 port

`Server::run` calls the services one after another, and the receive interrupt gives
frames to them in between. The services are those of the other modules; what the
application hands to them, that is message handlers, creators and `inspect`, works on
the machine whose memory the object dictionary describes.

A step of the main loop is an iteration of a service's loop, as before. The interrupt
reaches nothing that the `send` functions of the periodic services read, so a whole
call of one of them is one step.
-/

namespace Ucanopen.F4

variable {n : Nat} {α φ E : Type}

/-- What the application's functions do to the machine. A handler gets the bytes it read. -/
structure Application (φ E : Type) where
  handler : φ → List Byte → Machine E → Machine E
  inspect : Machine E → Machine E
  nodeInspect : Nat → Machine E → Machine E

/-- What a step of a reception loop does to the machine: a handler that returns has
    done its work. -/
def Application.handled (app : Application φ E) (s : Reception.State n α φ) :
    Machine E → Machine E :=
  match s.point with
  | .reading i bytes =>
      if bytes.length < 8 then id
      else
        match (s.table i).handler with
        | none => id
        | some handler => app.handler handler bytes
  | _ => id

/-- The application changes the machine between two steps of the SDO service. -/
def State.apply (s : State α E) (f : Machine E → Machine E) : State α E :=
  { s with core := { s.core with machine := f s.core.machine } }

/-- A node of the server: what it receives, and what it sends. -/
structure NodeUnit (α φ E : Type) where
  count : Nat
  rx : Reception.State count α φ
  txMessages : List (Node.TxMessage (Machine E))

/-- Where `Server::run` stands. -/
inductive Phase where
  | heartbeat
  | sync
  | tpdo
  | sdoSend
  | rpdoHandle
  | sdoHandle
  | inspect
  /-- The test of the loop over the nodes, and `node->send()`. -/
  | nodeSend (k : Nat)
  | nodeHandle (k : Nat)
  | nodeInspect (k : Nat)
  deriving Repr, DecidableEq

structure Device (α φ E : Type) where
  heartbeatService : HeartbeatService
  syncService : SyncService
  tpdoService : List (TpdoService.Message (Machine E))
  /-- With the machine the whole device works on. -/
  sdo : State α E
  rpdo : Reception.State 4 α φ
  nodes : List (NodeUnit α φ E)
  rxattrMap : List (α × FrameReceiver)
  nmtState : NmtState
  now : Int
  phase : Phase
  /-- Complete passes of `run`. -/
  passes : Nat
  /-- Oldest first. -/
  bus : List Put

inductive DeviceEvent (α : Type) where
  | interrupt (attr : α) (frame : CanFrame)
  | main
  | advance (time : Nat)
  | start
  | stop

namespace Device

def machine (d : Device α φ E) : Machine E := d.sdo.core.machine

/-- The device as the object that frames are routed in. -/
def server (d : Device α φ E) : Server α φ where
  rpdoService := d.rpdo.table
  sdoService := d.sdo.sdo
  nodes := d.nodes.map fun node => ⟨node.count, node.rx.table⟩
  rxattrMap := d.rxattrMap
  nmtState := d.nmtState

/-- The receive interrupt. -/
def onFrameReceived [DecidableEq α] (d : Device α φ E) (attr : α) (frame : CanFrame) :
    Device α φ E :=
  match d.server.receiver attr with
  | none => d
  | some .rpdoService => { d with rpdo := d.rpdo.recv RpdoService.recv attr frame }
  | some .sdoService => { d with sdo := d.sdo.recv attr frame }
  | some (.node k) =>
      { d with
        nodes := d.nodes.modify k fun node => { node with rx := node.rx.recv Node.recv attr frame } }

/-- The ways the interrupt can change the device. -/
inductive InterruptStep [DecidableEq α] (d : Device α φ E) (attr : α) (frame : CanFrame) :
    Device α φ E → Prop
  | nowhere (owner : d.server.receiver attr = none) : InterruptStep d attr frame d
  | rpdo (owner : d.server.receiver attr = some .rpdoService) :
      InterruptStep d attr frame { d with rpdo := d.rpdo.recv RpdoService.recv attr frame }
  | sdo (owner : d.server.receiver attr = some .sdoService) :
      InterruptStep d attr frame { d with sdo := d.sdo.recv attr frame }
  | node (k : Nat) (owner : d.server.receiver attr = some (.node k)) :
      InterruptStep d attr frame
        { d with
          nodes := d.nodes.modify k fun node =>
            { node with rx := node.rx.recv Node.recv attr frame } }

theorem interrupt_step [DecidableEq α] (d : Device α φ E) (attr : α) (frame : CanFrame) :
    InterruptStep d attr frame (d.onFrameReceived attr frame) := by
  unfold onFrameReceived
  cases owner : d.server.receiver attr with
  | none => exact .nowhere owner
  | some receiver =>
      cases receiver with
      | rpdoService => exact .rpdo owner
      | sdoService => exact .sdo owner
      | node k => exact .node k owner

/-- What the next step of the main loop puts on the bus. -/
def emitted (port : Port 8 E) (d : Device α φ E) : List Put :=
  match d.sdo.core.fault with
  | some _ => []
  | none =>
      match d.phase with
      | .heartbeat => puts d.now d.passes (fun _ => .heartbeat) [(d.heartbeatService.send d.nmtState d.now).2]
      | .sync => puts d.now d.passes (fun _ => .sync) [(d.syncService.send d.now).2]
      | .tpdo => puts d.now d.passes .tpdo (TpdoService.send d.tpdoService d.now d.machine).2.1
      | .sdoSend =>
          ((d.sdo.main port).putFrames.drop d.sdo.putFrames.length).map
            fun frame => ⟨d.now, d.passes, .sdo, frame⟩
      | .nodeSend k =>
          match d.nodes[k]? with
          | none => []
          | some node => puts d.now d.passes (.node k) (Node.send node.txMessages d.now d.machine).2.1
      | _ => []

/-- The services after the next step of the main loop, and where it stands then. -/
def work (app : Application φ E) (port : Port 8 E) (d : Device α φ E) : Device α φ E :=
  match d.sdo.core.fault with
  | some _ => d
  | none =>
      match d.phase with
      | .heartbeat =>
          { d with
            heartbeatService := (d.heartbeatService.send d.nmtState d.now).1
            phase := .sync }
      | .sync => { d with syncService := (d.syncService.send d.now).1, phase := .tpdo }
      | .tpdo =>
          { d with
            tpdoService := (TpdoService.send d.tpdoService d.now d.machine).1
            sdo := d.sdo.apply fun m => (TpdoService.send d.tpdoService d.now m).2.2
            phase := .sdoSend }
      | .sdoSend =>
          let sdo := d.sdo.main port
          { d with sdo := sdo, phase := if sdo.stage = .beforeHandle then .rpdoHandle else .sdoSend }
      | .rpdoHandle =>
          let rpdo := d.rpdo.main
          { d with
            rpdo := rpdo
            sdo := d.sdo.apply (app.handled d.rpdo)
            phase := if rpdo.point = .outside then .sdoHandle else .rpdoHandle }
      | .sdoHandle =>
          let sdo := d.sdo.main port
          { d with sdo := sdo, phase := if sdo.stage = .afterHandle then .inspect else .sdoHandle }
      | .inspect => { d with sdo := d.sdo.apply app.inspect, phase := .nodeSend 0 }
      | .nodeSend k =>
          match d.nodes[k]? with
          | none =>
              { d with sdo := d.sdo.main port, phase := .heartbeat, passes := d.passes + 1 }
          | some node =>
              { d with
                nodes := d.nodes.set k
                  { node with txMessages := (Node.send node.txMessages d.now d.machine).1 }
                sdo := d.sdo.apply fun m => (Node.send node.txMessages d.now m).2.2
                phase := .nodeHandle k }
      | .nodeHandle k =>
          match d.nodes[k]? with
          | none => { d with phase := .nodeInspect k }
          | some node =>
              { d with
                nodes := d.nodes.set k { node with rx := node.rx.main }
                sdo := d.sdo.apply (app.handled node.rx)
                phase := if node.rx.main.point = .outside then .nodeInspect k else .nodeHandle k }
      | .nodeInspect k =>
          { d with sdo := d.sdo.apply (app.nodeInspect k), phase := .nodeSend (k + 1) }

/-- The next step of `Server::run`. -/
def main (app : Application φ E) (port : Port 8 E) (d : Device α φ E) : Device α φ E :=
  { d.work app port with bus := d.bus ++ d.emitted port }

/-- The ways a step of the main loop can change the services, and what it puts. -/
inductive MainStep (app : Application φ E) (port : Port 8 E) (d : Device α φ E) :
    Device α φ E → List Put → Prop
  | stopped (fault : d.sdo.core.fault ≠ none) : MainStep app port d d []
  | heartbeat (alive : d.sdo.core.fault = none) (at_phase : d.phase = .heartbeat) :
      MainStep app port d
        { d with
          heartbeatService := (d.heartbeatService.send d.nmtState d.now).1
          phase := .sync }
        (puts d.now d.passes (fun _ => .heartbeat) [(d.heartbeatService.send d.nmtState d.now).2])
  | sync (alive : d.sdo.core.fault = none) (at_phase : d.phase = .sync) :
      MainStep app port d
        { d with syncService := (d.syncService.send d.now).1, phase := .tpdo }
        (puts d.now d.passes (fun _ => .sync) [(d.syncService.send d.now).2])
  | tpdo (alive : d.sdo.core.fault = none) (at_phase : d.phase = .tpdo) :
      MainStep app port d
        { d with
          tpdoService := (TpdoService.send d.tpdoService d.now d.machine).1
          sdo := d.sdo.apply fun m => (TpdoService.send d.tpdoService d.now m).2.2
          phase := .sdoSend }
        (puts d.now d.passes .tpdo (TpdoService.send d.tpdoService d.now d.machine).2.1)
  | sdoSend (alive : d.sdo.core.fault = none) (at_phase : d.phase = .sdoSend) :
      MainStep app port d
        { d with
          sdo := d.sdo.main port
          phase := if (d.sdo.main port).stage = .beforeHandle then .rpdoHandle else .sdoSend }
        (((d.sdo.main port).putFrames.drop d.sdo.putFrames.length).map
          fun frame => ⟨d.now, d.passes, .sdo, frame⟩)
  | rpdoHandle (alive : d.sdo.core.fault = none) (at_phase : d.phase = .rpdoHandle) :
      MainStep app port d
        { d with
          rpdo := d.rpdo.main
          sdo := d.sdo.apply (app.handled d.rpdo)
          phase := if d.rpdo.main.point = .outside then .sdoHandle else .rpdoHandle } []
  | sdoHandle (alive : d.sdo.core.fault = none) (at_phase : d.phase = .sdoHandle) :
      MainStep app port d
        { d with
          sdo := d.sdo.main port
          phase := if (d.sdo.main port).stage = .afterHandle then .inspect else .sdoHandle } []
  | inspect (alive : d.sdo.core.fault = none) (at_phase : d.phase = .inspect) :
      MainStep app port d { d with sdo := d.sdo.apply app.inspect, phase := .nodeSend 0 } []
  | passed {k : Nat} (alive : d.sdo.core.fault = none) (at_phase : d.phase = .nodeSend k)
      (last : d.nodes[k]? = none) :
      MainStep app port d
        { d with sdo := d.sdo.main port, phase := .heartbeat, passes := d.passes + 1 } []
  | nodeSend {k : Nat} {node : NodeUnit α φ E} (alive : d.sdo.core.fault = none)
      (at_phase : d.phase = .nodeSend k) (here : d.nodes[k]? = some node) :
      MainStep app port d
        { d with
          nodes := d.nodes.set k
            { node with txMessages := (Node.send node.txMessages d.now d.machine).1 }
          sdo := d.sdo.apply fun m => (Node.send node.txMessages d.now m).2.2
          phase := .nodeHandle k }
        (puts d.now d.passes (.node k) (Node.send node.txMessages d.now d.machine).2.1)
  | noNode {k : Nat} (alive : d.sdo.core.fault = none) (at_phase : d.phase = .nodeHandle k)
      (last : d.nodes[k]? = none) :
      MainStep app port d { d with phase := .nodeInspect k } []
  | nodeHandle {k : Nat} {node : NodeUnit α φ E} (alive : d.sdo.core.fault = none)
      (at_phase : d.phase = .nodeHandle k) (here : d.nodes[k]? = some node) :
      MainStep app port d
        { d with
          nodes := d.nodes.set k { node with rx := node.rx.main }
          sdo := d.sdo.apply (app.handled node.rx)
          phase := if node.rx.main.point = .outside then .nodeInspect k else .nodeHandle k } []
  | nodeInspect {k : Nat} (alive : d.sdo.core.fault = none)
      (at_phase : d.phase = .nodeInspect k) :
      MainStep app port d
        { d with sdo := d.sdo.apply (app.nodeInspect k), phase := .nodeSend (k + 1) } []

theorem main_step (app : Application φ E) (port : Port 8 E) (d : Device α φ E) :
    MainStep app port d (d.work app port) (d.emitted port) := by
  unfold work emitted
  cases alive : d.sdo.core.fault with
  | some f => exact .stopped (by simp [alive])
  | none =>
      cases at_phase : d.phase with
      | heartbeat => exact .heartbeat alive at_phase
      | sync => exact .sync alive at_phase
      | tpdo => exact .tpdo alive at_phase
      | sdoSend => exact .sdoSend alive at_phase
      | rpdoHandle => exact .rpdoHandle alive at_phase
      | sdoHandle => exact .sdoHandle alive at_phase
      | inspect => exact .inspect alive at_phase
      | nodeSend k =>
          cases here : d.nodes[k]? with
          | none => simpa only [here] using .passed alive at_phase here
          | some node => simpa only [here] using .nodeSend alive at_phase here
      | nodeHandle k =>
          cases here : d.nodes[k]? with
          | none => simpa only [here] using .noNode alive at_phase here
          | some node => simpa only [here] using .nodeHandle alive at_phase here
      | nodeInspect k => exact .nodeInspect alive at_phase

def advance (d : Device α φ E) (time : Nat) : Device α φ E :=
  { d with
    now := d.now + time
    rpdo := { d.rpdo with now := d.rpdo.now + time }
    nodes := d.nodes.map fun node => { node with rx := { node.rx with now := node.rx.now + time } } }

def start (d : Device α φ E) : Device α φ E :=
  { d with rxattrMap := d.server.start.rxattrMap, nmtState := d.server.start.nmtState }

def stop (d : Device α φ E) : Device α φ E := { d with nmtState := d.server.stop.nmtState }

def step [DecidableEq α] (app : Application φ E) (port : Port 8 E) (d : Device α φ E) :
    DeviceEvent α → Device α φ E
  | .interrupt attr frame => d.onFrameReceived attr frame
  | .main => d.main app port
  | .advance time => d.advance time
  | .start => d.start
  | .stop => d.stop

end Device

/-! ## Configuration -/

/-- What a program does before the main loop: it constructs the server, makes calls,
    registers what is to be sent, and starts the server. `register_rxmessage` returns
    an attribute of its own for each message. -/
structure Setup (α φ E : Type) where
  attr : Fin 4 → α
  frame : Fin 4 → CanFrame
  rsdoRxattr : α
  nodeId : NodeId
  calls : List (Server.Call α φ)
  first : .start ∉ calls
  fresh : (rsdoRxattr :: Server.attrs calls).Nodup
  heartbeatPeriod : Int
  heartbeatNow : Int
  syncPeriod : Int
  syncNow : Int
  tpdos : List (TpdoService.Registration (Machine E))
  txMessages : Nat → List (Node.TxRegistration (Machine E))
  machine : Machine E
  now : Int

namespace Setup

/-- The server when `start` has returned. -/
def server (setup : Setup α φ E) : Server α φ :=
  (Run.run Server.step (.init setup.attr setup.frame setup.rsdoRxattr setup.nodeId)
    setup.calls).start

/-- The messages of the TPDO service after the registrations. -/
def tpdoMessages (setup : Setup α φ E) : List (TpdoService.Message (Machine E)) :=
  Run.run (fun messages r => TpdoService.register r messages) (TpdoService.init setup.nodeId)
    setup.tpdos

/-- The messages node `k` sends. -/
def nodeMessages (setup : Setup α φ E) (k : Nat) : List (Node.TxMessage (Machine E)) :=
  Run.run (fun messages r => Node.register r messages) [] (setup.txMessages k)

/-- The device at the entry of the main loop. -/
def device (setup : Setup α φ E) : Device α φ E where
  heartbeatService := .init setup.nodeId setup.heartbeatPeriod setup.heartbeatNow
  syncService := .init setup.nodeId setup.syncPeriod setup.syncNow
  tpdoService := setup.tpdoMessages
  sdo := .init setup.rsdoRxattr setup.nodeId setup.machine
  rpdo := .init setup.server.rpdoService setup.now
  nodes := setup.server.nodes.mapIdx fun k node =>
    ⟨node.1, .init node.2 setup.now, setup.nodeMessages k⟩
  rxattrMap := setup.server.rxattrMap
  nmtState := setup.server.nmtState
  now := setup.now
  phase := .heartbeat
  passes := 0
  bus := []

/-- A whole run of the device. -/
def run [DecidableEq α] (setup : Setup α φ E) (app : Application φ E) (port : Port 8 E)
    (schedule : List (DeviceEvent α)) : Device α φ E :=
  Run.run (Device.step app port) setup.device schedule

end Setup

/-- An application whose functions do nothing. -/
def Application.idle : Application Unit Unit := ⟨fun _ _ m => m, fun m => m, fun _ m => m⟩

/-- A server with a heartbeat and one node, which receives one message and sends one. -/
def Setup.sample : Setup Nat Unit Unit where
  attr := Fin.val
  frame := fun _ => ⟨0, 8, 0⟩
  rsdoRxattr := 10
  nodeId := ⟨5⟩
  calls := [.addNode, .registerRxMessage 0 11 100 (some ()) 0]
  first := by simp
  fresh := by decide
  heartbeatPeriod := 10
  heartbeatNow := 0
  syncPeriod := 0
  syncNow := 0
  tpdos := []
  txMessages := fun _ => [⟨0x10, 8, 5, fun m => (0, m), 0⟩]
  machine := blank
  now := 0

/-- A client reads the limit, and the main loop runs for a while. -/
def readingRun (steps : Nat) : List (DeviceEvent Nat) :=
  .interrupt 10 ⟨0x605, 8, readLimit⟩ :: List.replicate steps .main

/-- The same server with an RPDO. -/
def Setup.listening : Setup Nat Unit Unit :=
  { Setup.sample with
    calls := [.registerRpdo Reception.rpdo1 7 100 (some ()) 0, .addNode,
      .registerRxMessage 0 11 100 (some ()) 0]
    first := by simp
    fresh := by decide }

/-- The messages its node receives. -/
def listeningNode : Reception.Table 1 Nat Unit :=
  Node.registerRxMessage Node.init 11 100 (some ()) 0

/-- The bus brings a frame for the RPDO and one for the node. -/
def listeningRun : List (DeviceEvent Nat) :=
  [.interrupt 7 ⟨0x205, 8, 1⟩, .interrupt 11 ⟨0x10, 8, 2⟩]

theorem listening_node : Setup.listening.server.nodes[0]? = some ⟨1, listeningNode⟩ := rfl

end Ucanopen.F4
