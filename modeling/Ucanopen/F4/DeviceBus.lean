import Ucanopen.F4.DeviceSdo

/-! # What a device puts on the bus

Each frame that `Server::run` puts belongs to one message, with the identifier and the
length that the message has from its construction or registration on. A listener that
filters by identifier therefore sees one message's frames and no others, as long as no
two messages share an identifier.
-/

namespace Ucanopen.F4

variable {α φ E μ : Type} {app : Application φ E} {port : Port 8 E}

/-! ## One message -/

theorem TpdoService.sendMessage_id (now : Int) (m : Message E) (e : E) :
    (sendMessage now m e).1.id = m.id := by
  unfold sendMessage
  cases m.creator with
  | none => rfl
  | some f =>
      dsimp only
      split
      · rfl
      · split <;> rfl

theorem TpdoService.sendMessage_frame {now : Int} {m : Message E} {e : E} {f : CanFrame}
    (put : (sendMessage now m e).2.1 = some f) : f.id = m.id ∧ f.len = len := by
  unfold sendMessage at put
  cases creator : m.creator with
  | none => simp [creator] at put
  | some make =>
      simp only [creator] at put
      split at put
      · exact absurd put nofun
      · split at put
        · exact absurd put nofun
        · obtain rfl := Option.some.inj put
          exact ⟨rfl, rfl⟩

theorem Node.sendMessage_header (now : Int) (m : TxMessage E) (e : E) :
    ((sendMessage now m e).1.id, (sendMessage now m e).1.len) = (m.id, m.len) := by
  unfold sendMessage
  split
  · rfl
  · split <;> rfl

theorem Node.sendMessage_frame {now : Int} {m : TxMessage E} {e : E} {f : CanFrame}
    (put : (sendMessage now m e).2.1 = some f) : f.id = m.id ∧ f.len = m.len := by
  unfold sendMessage at put
  split at put
  · exact absurd put nofun
  · split at put
    · exact absurd put nofun
    · obtain rfl := Option.some.inj put
      exact ⟨rfl, rfl⟩

theorem HeartbeatService.send_frame {s : HeartbeatService} {nmtState : NmtState} {now : Int}
    {f : CanFrame} (put : (s.send nmtState now).2 = some f) :
    f = ⟨s.id, len, nmtState.toUnderlying.setWidth 64⟩ := by
  unfold send at put
  split at put
  · exact absurd put nofun
  · split at put
    · exact (Option.some.inj put).symm
    · exact absurd put nofun

theorem SyncService.send_frame {s : SyncService} {now : Int} {f : CanFrame}
    (put : (s.send now).2 = some f) : f = ⟨s.id, len, 0⟩ := by
  unfold send at put
  split at put
  · exact absurd put nofun
  · split at put
    · exact (Option.some.inj put).symm
    · exact absurd put nofun

theorem HeartbeatService.send_id (s : HeartbeatService) (nmtState : NmtState) (now : Int) :
    (s.send nmtState now).1.id = s.id := by
  unfold send
  split
  · rfl
  · split <;> rfl

theorem SyncService.send_id (s : SyncService) (now : Int) : (s.send now).1.id = s.id := by
  unfold send
  split
  · rfl
  · split <;> rfl

/-! ## One step of the SDO service -/

namespace State

theorem handleIteration_tsdoId (s : State α E) (request : CanPayload) :
    (s.handleIteration port request).sdo.tsdoId = s.sdo.tsdoId := by
  simp only [handleIteration, SdoService.handleIteration]
  cases (port.execute s.core request).1 with
  | none => rfl
  | some response =>
      simp only [SdoService.pushResponse]
      split <;> rfl

/-- A step puts a response from the queue, or nothing. -/
inductive Puts (s t : State α E) : List CanFrame → Prop
  | nothing (same : t.putFrames = s.putFrames) : Puts s t []
  | response (payload : CanPayload) (at_stage : s.stage = .send)
      (more : t.putFrames = s.putFrames ++ [⟨s.sdo.tsdoId, SdoService.tsdoLen, payload⟩]) :
      Puts s t [⟨s.sdo.tsdoId, SdoService.tsdoLen, payload⟩]

theorem main_puts (port : Port 8 E) (s : State α E) :
    (s.main port).sdo.tsdoId = s.sdo.tsdoId ∧
      Puts s (s.main port) ((s.main port).putFrames.drop s.putFrames.length) := by
  have step := s.main_step port
  generalize s.main port = t at step
  have quiet : ∀ t : State α E, t.putFrames = s.putFrames →
      Puts s t (t.putFrames.drop s.putFrames.length) := by
    intro t same
    rw [same, List.drop_length]
    exact .nothing same
  cases step with
  | stopped => exact ⟨rfl, quiet _ rfl⟩
  | stage => exact ⟨rfl, quiet _ rfl⟩
  | activate => exact ⟨rfl, quiet _ rfl⟩
  | send payload at_stage =>
      refine ⟨rfl, ?_⟩
      have more : (s.sendIteration payload).putFrames =
          s.putFrames ++ [⟨s.sdo.tsdoId, SdoService.tsdoLen, payload⟩] := rfl
      rw [more, List.drop_left]
      exact .response payload at_stage more
  | handle request => exact ⟨handleIteration_tsdoId s request, quiet _ rfl⟩

theorem recv_kept [DecidableEq α] (s : State α E) (attr : α) (frame : CanFrame) :
    (s.recv attr frame).sdo.tsdoId = s.sdo.tsdoId ∧
      (s.recv attr frame).putFrames = s.putFrames ∧ (s.recv attr frame).stage = s.stage ∧
      (s.recv attr frame).core = s.core := by
  have step := s.recv_step attr frame
  generalize s.recv attr frame = t at step
  cases step with
  | _ => exact ⟨rfl, rfl, rfl, rfl⟩

end State

/-! ## Identifiers and lengths -/

namespace Device

/-- Identifier and length of the frames of a node's messages. -/
def headers (node : NodeUnit α φ E) : List (CanId × BitVec 8) :=
  node.txMessages.map fun m => (m.id, m.len)

/-- Identifier and length of the frames of each message. -/
def header (d : Device α φ E) : Source → Option (CanId × BitVec 8)
  | .heartbeat => some (d.heartbeatService.id, HeartbeatService.len)
  | .sync => some (d.syncService.id, SyncService.len)
  | .tpdo i => (d.tpdoService.map fun m => (m.id, TpdoService.len))[i]?
  | .sdo => some (d.sdo.sdo.tsdoId, SdoService.tsdoLen)
  | .node k i => (d.nodes.map headers)[k]?.bind (·[i]?)

/-- What a step puts has the header of its message. -/
theorem emitted_header (app : Application φ E) {d : Device α φ E} {put : Put}
    (member : put ∈ d.emitted port) : d.header put.source = some (put.frame.id, put.frame.len) := by
  have step := d.main_step app port
  generalize d.work app port = t at step
  generalize d.emitted port = puts at step member
  cases step with
  | heartbeat =>
      obtain ⟨i, f, here, rfl⟩ := mem_puts.mp member
      have sent := HeartbeatService.send_frame (List.mem_singleton.mp (List.mem_of_getElem? here)).symm
      rw [sent]
      rfl
  | sync =>
      obtain ⟨i, f, here, rfl⟩ := mem_puts.mp member
      have sent := SyncService.send_frame (List.mem_singleton.mp (List.mem_of_getElem? here)).symm
      rw [sent]
      rfl
  | tpdo =>
      obtain ⟨i, f, here, rfl⟩ := mem_puts.mp member
      obtain ⟨m, e, inside, sent⟩ := sendAll_frame here
      obtain ⟨id, len⟩ := TpdoService.sendMessage_frame sent
      simp [header, inside, id, len]
  | sdoSend =>
      obtain ⟨_, puts⟩ := d.sdo.main_puts port
      generalize (d.sdo.main port).putFrames.drop d.sdo.putFrames.length = frames at puts member
      cases puts with
      | nothing => exact absurd member List.not_mem_nil
      | response payload =>
          obtain rfl := List.mem_singleton.mp member
          rfl
  | nodeSend alive at_phase here =>
      obtain ⟨i, f, inside, rfl⟩ := mem_puts.mp member
      obtain ⟨m, e, there, sent⟩ := sendAll_frame inside
      obtain ⟨id, len⟩ := Node.sendMessage_frame sent
      simp [header, headers, here, there, id, len]
  | _ => exact absurd member List.not_mem_nil

/-- When a step puts a frame, and what a heartbeat and a sync message say. -/
theorem emitted_tells (app : Application φ E) {d : Device α φ E} {put : Put}
    (member : put ∈ d.emitted port) :
    put.time = d.now ∧ put.pass = d.passes ∧
      (put.source = .heartbeat →
        put.frame.payload = d.nmtState.toUnderlying.setWidth 64) ∧
      (put.source = .sync → put.frame.payload = 0) := by
  have step := d.main_step app port
  generalize d.work app port = t at step
  generalize d.emitted port = puts at step member
  cases step with
  | heartbeat =>
      obtain ⟨i, f, here, rfl⟩ := mem_puts.mp member
      have sent := HeartbeatService.send_frame (List.mem_singleton.mp (List.mem_of_getElem? here)).symm
      rw [sent]
      exact ⟨rfl, rfl, fun _ => rfl, nofun⟩
  | sync =>
      obtain ⟨i, f, here, rfl⟩ := mem_puts.mp member
      have sent := SyncService.send_frame (List.mem_singleton.mp (List.mem_of_getElem? here)).symm
      rw [sent]
      exact ⟨rfl, rfl, nofun, fun _ => rfl⟩
  | tpdo =>
      obtain ⟨i, f, _, rfl⟩ := mem_puts.mp member
      exact ⟨rfl, rfl, nofun, nofun⟩
  | sdoSend =>
      obtain ⟨f, _, rfl⟩ := List.mem_map.mp member
      exact ⟨rfl, rfl, nofun, nofun⟩
  | nodeSend =>
      obtain ⟨i, f, _, rfl⟩ := mem_puts.mp member
      exact ⟨rfl, rfl, nofun, nofun⟩
  | _ => exact absurd member List.not_mem_nil

/-- No event changes the identifier or the length of a message. -/
theorem header_kept [DecidableEq α] (d : Device α φ E) (e : DeviceEvent α) :
    (d.step app port e).header = d.header := by
  funext source
  cases e with
  | interrupt attr frame =>
      change (d.onFrameReceived attr frame).header source = _
      have step := d.interrupt_step attr frame
      generalize d.onFrameReceived attr frame = t at step ⊢
      cases step with
      | sdo =>
          cases source with
          | sdo => exact congrArg (fun id => some (id, _)) (d.sdo.recv_kept attr frame).1
          | _ => rfl
      | node k =>
          cases source with
          | node j i =>
              have kept := Run.map_modify_same (f := headers) (l := d.nodes) (k := k)
                (g := fun node => { node with rx := node.rx.recv Node.recv attr frame })
                fun _ => rfl
              exact congrArg (fun nodes => nodes[j]?.bind (·[i]?)) kept
          | _ => rfl
      | _ => rfl
  | main =>
      change (d.work app port).header source = _
      have step := d.main_step app port
      generalize d.work app port = t at step ⊢
      generalize d.emitted port = puts at step
      have tsdoId := (d.sdo.main_puts port).1
      cases step with
      | heartbeat =>
          cases source with
          | heartbeat =>
              exact congrArg (fun id => some (id, _)) (HeartbeatService.send_id ..)
          | _ => rfl
      | sync =>
          cases source with
          | sync => exact congrArg (fun id => some (id, _)) (SyncService.send_id ..)
          | _ => rfl
      | tpdo =>
          cases source with
          | tpdo i =>
              have kept := sendAll_headers
                (fun m : TpdoService.Message (Machine E) => (m.id, TpdoService.len))
                (fun m e => congrArg (·, _) (TpdoService.sendMessage_id d.now m e))
                d.tpdoService d.machine
              exact congrArg (·[i]?) kept
          | _ => rfl
      | @nodeSend k node alive at_phase here =>
          cases source with
          | node j i =>
              have kept : headers
                  { node with txMessages := (Node.send node.txMessages d.now d.machine).1 } =
                    headers node :=
                sendAll_headers _ (Node.sendMessage_header d.now) node.txMessages d.machine
              exact congrArg (fun nodes => nodes[j]?.bind (·[i]?))
                (Run.map_set_same (f := headers) here kept)
          | _ => rfl
      | @nodeHandle k node alive at_phase here =>
          cases source with
          | node j i =>
              have kept : headers { node with rx := node.rx.main } = headers node := rfl
              exact congrArg (fun nodes => nodes[j]?.bind (·[i]?)) (Run.map_set_same here kept)
          | _ => rfl
      | sdoSend =>
          cases source with
          | sdo => exact congrArg (fun id => some (id, _)) tsdoId
          | _ => rfl
      | sdoHandle =>
          cases source with
          | sdo => exact congrArg (fun id => some (id, _)) tsdoId
          | _ => rfl
      | passed =>
          cases source with
          | sdo => exact congrArg (fun id => some (id, _)) tsdoId
          | _ => rfl
      | _ =>
          cases source with
          | _ => rfl
  | advance time =>
      cases source with
      | node j i =>
          simp only [header, step, advance, List.map_map]
          rfl
      | _ => rfl
  | start => rfl
  | stop => rfl

/-! ## The frames of the SDO service -/

/-- Where the main loop stands and where the SDO service stands go together. -/
def Synced (d : Device α φ E) : Prop :=
  match d.phase with
  | .heartbeat | .sync | .tpdo => d.sdo.stage = .beforeSend
  | .sdoSend => d.sdo.stage = .beforeSend ∨ d.sdo.stage = .send
  | .rpdoHandle => d.sdo.stage = .beforeHandle
  | .sdoHandle => d.sdo.stage = .beforeHandle ∨ d.sdo.stage = .handle
  | .inspect | .nodeSend _ | .nodeHandle _ | .nodeInspect _ => d.sdo.stage = .afterHandle

theorem stage_next (port : Port 8 E) {s : State α E} (alive : s.core.fault = none) :
    match s.stage with
    | .beforeSend => (s.main port).stage = .send
    | .send => (s.main port).stage = .send ∨ (s.main port).stage = .beforeHandle
    | .beforeHandle => (s.main port).stage = .handle
    | .handle => (s.main port).stage = .handle ∨ (s.main port).stage = .afterHandle
    | .afterHandle => (s.main port).stage = .beforeSend := by
  unfold State.main
  rw [alive]
  cases at_stage : s.stage with
  | send =>
      cases s.sdo.tsdoQueue.front? with
      | none => exact .inr rfl
      | some payload => exact .inl at_stage
  | handle =>
      cases s.sdo.rsdoQueue.front? with
      | none => exact .inr rfl
      | some request => exact .inl at_stage
  | _ => rfl

theorem Synced.step [DecidableEq α] (app : Application φ E) (port : Port 8 E) {d : Device α φ E} (synced : Synced d) (e : DeviceEvent α) :
    Synced (d.step app port e) := by
  cases e with
  | interrupt attr frame =>
      have step := d.interrupt_step attr frame
      change Synced (d.onFrameReceived attr frame)
      generalize d.onFrameReceived attr frame = t at step ⊢
      cases step with
      | sdo owner =>
          have stage := (d.sdo.recv_kept attr frame).2.2.1
          unfold Synced
          simp only [stage]
          exact synced
      | _ => exact synced
  | main =>
      change Synced (d.work app port)
      have step := d.main_step app port
      have next := stage_next port (s := d.sdo)
      generalize d.work app port = t at step ⊢
      generalize d.emitted port = puts at step
      unfold Synced at synced
      cases step with
      | stopped => exact synced
      | heartbeat alive at_phase =>
          rw [at_phase] at synced
          exact synced
      | sync alive at_phase =>
          rw [at_phase] at synced
          exact synced
      | tpdo alive at_phase =>
          rw [at_phase] at synced
          exact .inl synced
      | sdoSend alive at_phase =>
          rw [at_phase] at synced
          have next := next alive
          obtain before | sending := synced
          · rw [before] at next
            simp [Synced, next]
          · rw [sending] at next
            obtain still | done := next
            · simp [Synced, still]
            · simp [Synced, done]
      | rpdoHandle alive at_phase =>
          rw [at_phase] at synced
          by_cases done : d.rpdo.main.point = .outside
          · simp [Synced, done, State.apply, synced]
          · simp [Synced, done, State.apply, synced]
      | sdoHandle alive at_phase =>
          rw [at_phase] at synced
          have next := next alive
          obtain before | handling := synced
          · rw [before] at next
            simp [Synced, next]
          · rw [handling] at next
            obtain still | done := next
            · simp [Synced, still]
            · simp [Synced, done]
      | inspect alive at_phase =>
          rw [at_phase] at synced
          exact synced
      | passed alive at_phase =>
          rw [at_phase] at synced
          have next := next alive
          rw [synced] at next
          exact next
      | nodeSend alive at_phase =>
          rw [at_phase] at synced
          exact synced
      | noNode alive at_phase =>
          rw [at_phase] at synced
          exact synced
      | @nodeHandle k node alive at_phase =>
          rw [at_phase] at synced
          by_cases done : node.rx.main.point = .outside
          · simp [Synced, done, State.apply, synced]
          · simp [Synced, done, State.apply, synced]
      | nodeInspect alive at_phase =>
          rw [at_phase] at synced
          exact synced
  | advance time => exact synced
  | start => exact synced
  | stop => exact synced

/-- Outside its sending phase the service puts nothing. -/
theorem main_silent (port : Port 8 E) {s : State α E} (elsewhere : s.stage ≠ .send) :
    (s.main port).putFrames = s.putFrames := by
  obtain ⟨_, puts⟩ := s.main_puts port
  generalize (s.main port).putFrames.drop s.putFrames.length = frames at puts
  cases puts with
  | nothing same => exact same
  | response payload at_stage => exact absurd at_stage elsewhere

/-- What a step puts for the SDO service is what the service puts. -/
theorem emitted_sdo [DecidableEq α] (app : Application φ E) (port : Port 8 E) {d : Device α φ E}
    (synced : Synced d) :
    (d.work app port).sdo.putFrames =
      d.sdo.putFrames ++ ((d.emitted port).filter (·.source = .sdo)).map (·.frame) := by
  have step := d.main_step app port
  generalize d.work app port = t at step ⊢
  generalize d.emitted port = puts at step ⊢
  unfold Synced at synced
  cases step with
  | heartbeat => rw [puts_source (by simp)]; exact (List.append_nil _).symm
  | sync => rw [puts_source (by simp)]; exact (List.append_nil _).symm
  | tpdo => rw [puts_source (by simp)]; exact (List.append_nil _).symm
  | nodeSend => rw [puts_source (by simp)]; exact (List.append_nil _).symm
  | sdoSend =>
      obtain ⟨_, puts⟩ := d.sdo.main_puts port
      generalize (d.sdo.main port).putFrames.drop d.sdo.putFrames.length = frames at puts ⊢
      cases puts with
      | nothing same => simpa using same
      | response payload _ more => simpa using more
  | sdoHandle alive at_phase =>
      rw [at_phase] at synced
      have elsewhere : d.sdo.stage ≠ .send := by
        intro sending
        simp [sending] at synced
      simpa using main_silent port elsewhere
  | passed alive at_phase =>
      rw [at_phase] at synced
      have elsewhere : d.sdo.stage ≠ .send := by
        intro sending
        simp [sending] at synced
      simpa using main_silent port elsewhere
  | _ => exact (List.append_nil _).symm

/-- What each event puts. -/
def emits (port : Port 8 E) (d : Device α φ E) : DeviceEvent α → List Put
  | .main => d.emitted port
  | _ => []

theorem bus_step [DecidableEq α] (d : Device α φ E) (e : DeviceEvent α) :
    (d.step app port e).bus = d.bus ++ d.emits port e := by
  cases e with
  | interrupt attr frame =>
      change (d.onFrameReceived attr frame).bus = _
      have step := d.interrupt_step attr frame
      generalize d.onFrameReceived attr frame = t at step ⊢
      cases step with
      | _ => exact (List.append_nil _).symm
  | main => rfl
  | _ => exact (List.append_nil _).symm

/-- The device stands where its service stands, and the bus has seen what the service put. -/
structure Heard (d : Device α φ E) : Prop where
  synced : Synced d
  sdo : (d.bus.filter (·.source = .sdo)).map (·.frame) = d.sdo.putFrames

theorem Heard.step [DecidableEq α] {d : Device α φ E} (heard : Heard d) (e : DeviceEvent α) :
    Heard (d.step app port e) := by
  refine ⟨heard.synced.step app port e, ?_⟩
  cases e with
  | interrupt attr frame =>
      change ((d.onFrameReceived attr frame).bus.filter _).map _ = (d.onFrameReceived attr frame).sdo.putFrames
      have step := d.interrupt_step attr frame
      generalize d.onFrameReceived attr frame = t at step ⊢
      cases step with
      | sdo => exact heard.sdo.trans (d.sdo.recv_kept attr frame).2.1.symm
      | _ => exact heard.sdo
  | main =>
      change ((d.bus ++ d.emitted port).filter _).map _ = (d.work app port).sdo.putFrames
      rw [List.filter_append, List.map_append, heard.sdo, emitted_sdo app port heard.synced]
  | advance time => exact heard.sdo
  | start => exact heard.sdo
  | stop => exact heard.sdo

end Device

/-! ## Whole runs -/

/-- What the server's own services send has another identifier than the SDO responses. -/
theorem tsdo_alone {node : NodeId} (placed : Placed node.id) {cob : Cob}
    (sent : cob ∈ [Cob.heartbeat, .sync, .tpdo1, .tpdo2, .tpdo3, .tpdo4]) :
    calculateCobId cob node ≠ calculateCobId .tsdo node := by
  intro same
  by_cases sync : cob = .sync
  · have tsdo : (0x580#32 + node.id) ∈ broadcastIds := by
      have broadcast : calculateCobId cob node ∈ broadcastIds := by
        rw [sync]
        change 0x080#32 ∈ broadcastIds
        decide
      rw [same] at broadcast
      exact broadcast
    exact absurd tsdo ((notBroadcast_iff placed.range).mpr placed _ (by decide))
  · -- The other identifiers are codes plus one node identifier.
    have own : ∀ cob ∈ [Cob.heartbeat, .sync, .tpdo1, .tpdo2, .tpdo3, .tpdo4], cob ≠ .sync →
        cob ≠ .nmt ∧ cob ≠ .time ∧ cobFunctionCodes cob ≠ cobFunctionCodes .tsdo := by decide
    obtain ⟨nmt, time, differ⟩ := own cob sent sync
    have codes : cobFunctionCodes cob = cobFunctionCodes .tsdo := by
      simpa only [calculateCobId, nmt, time, sync, or_self, if_false, BitVec.add_left_inj,
        reduceCtorEq] using same
    exact differ codes

/-- The state that the last call of `start` or `stop` set. -/
def commanded (schedule : List (DeviceEvent α)) : NmtState :=
  schedule.foldl
    (fun state e =>
      match e with
      | .start => .operational
      | .stop => .stopped
      | _ => state)
    .operational

namespace Setup

variable [DecidableEq α] (app : Application φ E) (port : Port 8 E)

theorem header_run (setup : Setup α φ E) (schedule : List (DeviceEvent α)) :
    (setup.run app port schedule).header = setup.device.header :=
  Run.invariant (fun d : Device α φ E => d.header = setup.device.header) rfl
    (fun d e same => (d.header_kept e).trans same) schedule

theorem heard_run (setup : Setup α φ E) (schedule : List (DeviceEvent α)) :
    (setup.run app port schedule).Heard := by
  have start : setup.device.Heard := ⟨rfl, rfl⟩
  exact Run.invariant Device.Heard start (fun _ e heard => heard.step e) schedule

theorem nmtState_run (setup : Setup α φ E) (schedule : List (DeviceEvent α)) :
    (setup.run app port schedule).nmtState = commanded schedule := by
  unfold Setup.run Run.run commanded
  induction schedule using List.reverseRecOn with
  | nil => rfl
  | append_singleton es e ih =>
      rw [List.foldl_append, List.foldl_append, ← ih]
      generalize es.foldl (Device.step app port) setup.device = d
      cases e with
      | interrupt attr frame =>
          change (d.onFrameReceived attr frame).nmtState = d.nmtState
          have step := d.interrupt_step attr frame
          generalize d.onFrameReceived attr frame = t at step ⊢
          cases step with
          | _ => rfl
      | main =>
          change (d.work app port).nmtState = d.nmtState
          have step := d.main_step app port
          generalize d.work app port = t at step ⊢
          generalize d.emitted port = puts at step
          cases step with
          | _ => rfl
      | _ => rfl

/-- The bus is what the events put. -/
theorem bus_run (setup : Setup α φ E) (schedule : List (DeviceEvent α)) :
    (setup.run app port schedule).bus =
      Run.trace (Device.step app port) (Device.emits port) setup.device schedule :=
  Run.grows_run Device.bus Device.bus_step setup.device schedule

/-- Identifier and length of each message, as configured. -/
def header (setup : Setup α φ E) : Source → Option (CanId × BitVec 8)
  | .heartbeat => some (calculateCobId .heartbeat setup.nodeId, cobSizes .heartbeat)
  | .sync => some (calculateCobId .sync setup.nodeId, cobSizes .sync)
  | .tpdo i =>
      ([Cob.tpdo1, .tpdo2, .tpdo3, .tpdo4].map fun cob =>
        (calculateCobId cob setup.nodeId, cobSizes cob))[i]?
  | .sdo => some (calculateCobId .tsdo setup.nodeId, cobSizes .tsdo)
  | .node k i =>
      if k < setup.server.nodes.length then
        ((setup.txMessages k).map fun r => (r.id, r.len))[i]?
      else none

omit [DecidableEq α] in
theorem tpdoMessages_ids (setup : Setup α φ E) :
    setup.tpdoMessages.map TpdoService.Message.id =
      [Cob.tpdo1, .tpdo2, .tpdo3, .tpdo4].map fun cob => calculateCobId cob setup.nodeId := by
  apply Run.invariant (fun messages : List (TpdoService.Message (Machine E)) =>
    messages.map TpdoService.Message.id = _)
  · rfl
  · intro messages r same
    rw [← same]
    unfold TpdoService.register TpdoService.registerTpdo
    apply List.ext_getElem?
    intro i
    rw [List.getElem?_map, List.getElem?_map, List.getElem?_modify]
    cases messages[i]? with
    | none => rfl
    | some m =>
        by_cases here : r.tpdo.val = i
        · simp [here]
        · simp [here]

omit [DecidableEq α] in
theorem nodeMessages_headers (setup : Setup α φ E) (k : Nat) :
    (setup.nodeMessages k).map (fun m => (m.id, m.len)) =
      (setup.txMessages k).map fun r => (r.id, r.len) := by
  unfold nodeMessages Run.run
  induction setup.txMessages k using List.reverseRecOn with
  | nil => rfl
  | append_singleton rs r ih =>
      rw [List.foldl_append, List.map_append, ← ih]
      simp [Node.register, Node.registerTxMessage]

omit [DecidableEq α] in
theorem device_header (setup : Setup α φ E) : setup.device.header = setup.header := by
  funext source
  cases source with
  | tpdo i =>
      have ids := congrArg (List.map fun id => (id, TpdoService.len)) setup.tpdoMessages_ids
      rw [List.map_map] at ids
      exact congrArg (·[i]?) ids
  | node k i =>
      unfold Device.header header device
      by_cases inside : k < setup.server.nodes.length
      · simp [inside, Device.headers, nodeMessages_headers]
      · simp [inside]
  | _ => rfl

/-- Each frame on the bus was put by a step of the main loop. -/
theorem put_run (setup : Setup α φ E) (schedule : List (DeviceEvent α)) {put : Put}
    (member : put ∈ (setup.run app port schedule).bus) :
    ∃ before after, schedule = before ++ .main :: after ∧
      put ∈ (setup.run app port before).emitted port := by
  rw [setup.bus_run] at member
  obtain ⟨before, e, after, rfl, emitted⟩ := Run.mem_trace member
  cases e with
  | main => exact ⟨before, after, rfl, emitted⟩
  | _ => exact absurd emitted List.not_mem_nil

theorem put_header (setup : Setup α φ E) (schedule : List (DeviceEvent α)) {put : Put}
    (member : put ∈ (setup.run app port schedule).bus) :
    setup.header put.source = some (put.frame.id, put.frame.len) := by
  obtain ⟨before, after, _, emitted⟩ := setup.put_run app port schedule member
  rw [← setup.device_header, ← setup.header_run app port before]
  exact Device.emitted_header app emitted

/-- Each frame on the bus has the identifier and the length of its message, and a
    heartbeat tells the state that was commanded last before the step that put it. -/
theorem bus_frames (setup : Setup α φ E) (schedule : List (DeviceEvent α)) :
    ∀ put ∈ (setup.run app port schedule).bus,
      setup.header put.source = some (put.frame.id, put.frame.len) ∧
      ∃ before after, schedule = before ++ .main :: after ∧
        put ∈ (setup.run app port before).emitted port ∧
        put.time = (setup.run app port before).now ∧
        put.pass = (setup.run app port before).passes ∧
        (put.source = .heartbeat →
          put.frame.payload = (commanded before).toUnderlying.setWidth 64) ∧
        (put.source = .sync → put.frame.payload = 0) := by
  intro put member
  obtain ⟨before, after, split, emitted⟩ := setup.put_run app port schedule member
  refine ⟨setup.put_header app port schedule member, before, after, split, emitted, ?_⟩
  rw [← setup.nmtState_run app port before]
  exact Device.emitted_tells app emitted

theorem bus_frames_sample :
    ∃ put ∈ (sample.run .idle (F4.port F4.sample) (readingRun 40)).bus,
      sample.header put.source = some (put.frame.id, put.frame.len) ∧
      ∃ before after, readingRun 40 = before ++ .main :: after ∧
        put ∈ (sample.run .idle (F4.port F4.sample) before).emitted (F4.port F4.sample) ∧
        put.time = (sample.run .idle (F4.port F4.sample) before).now ∧
        put.pass = (sample.run .idle (F4.port F4.sample) before).passes ∧
        (put.source = .heartbeat →
          put.frame.payload = (commanded before).toUnderlying.setWidth 64) ∧
        (put.source = .sync → put.frame.payload = 0) := by
  have answered : (sample.run .idle (F4.port F4.sample) (readingRun 40)).bus ≠ [] := by
    decide +kernel
  refine ⟨_, List.head_mem answered, ?_⟩
  exact bus_frames .idle (F4.port F4.sample) sample (readingRun 40) _ (List.head_mem answered)

/-! ## What a client hears -/

/-- The nodes leave the identifier of the SDO responses to the server. -/
def KeepsTsdo (setup : Setup α φ E) : Prop :=
  ∀ k, ∀ r ∈ setup.txMessages k, r.id ≠ calculateCobId .tsdo setup.nodeId

omit [DecidableEq α] in
/-- Then no other message has it. -/
theorem source_of_tsdo (setup : Setup α φ E) (placed : Placed setup.nodeId.id)
    (keeps : setup.KeepsTsdo) {source : Source} {len : BitVec 8}
    (here : setup.header source = some (calculateCobId .tsdo setup.nodeId, len)) :
    source = .sdo := by
  cases source with
  | sdo => rfl
  | heartbeat =>
      have same := (Prod.mk.inj (Option.some.inj here)).1
      exact absurd same (tsdo_alone placed (by decide))
  | sync =>
      have same := (Prod.mk.inj (Option.some.inj here)).1
      exact absurd same (tsdo_alone placed (by decide))
  | tpdo i =>
      simp only [header] at here
      obtain ⟨cob, inside, made⟩ := List.mem_map.mp (List.mem_of_getElem? here)
      exact absurd (Prod.mk.inj made).1 (tsdo_alone placed (by simp_all))
  | node k i =>
      simp only [header] at here
      split at here
      · obtain ⟨r, inside, made⟩ := List.mem_map.mp (List.mem_of_getElem? here)
        exact absurd (Prod.mk.inj made).1 (keeps k r inside)
      · exact absurd here nofun

/-- What a client hears under the identifier of the responses. -/
def heard (setup : Setup α φ E) (app : Application φ E) (port : Port 8 E)
    (schedule : List (DeviceEvent α)) : List CanPayload :=
  ((setup.run app port schedule).bus.filter fun put =>
    put.frame.id = calculateCobId .tsdo setup.nodeId).map (·.frame.payload)

theorem heard_payloads (setup : Setup α φ E) (placed : Placed setup.nodeId.id)
    (keeps : setup.KeepsTsdo) (schedule : List (DeviceEvent α)) :
    setup.heard app port schedule =
      (setup.run app port schedule).sdo.putFrames.map (·.payload) := by
  have same : (setup.run app port schedule).bus.filter
        (fun put => put.frame.id = calculateCobId .tsdo setup.nodeId) =
      (setup.run app port schedule).bus.filter (·.source = .sdo) := by
    apply List.filter_congr
    intro put member
    have headed := setup.put_header app port schedule member
    apply decide_eq_decide.mpr
    constructor
    · intro tsdo
      rw [tsdo] at headed
      exact setup.source_of_tsdo placed keeps headed
    · intro source
      rw [source] at headed
      exact (Prod.mk.inj (Option.some.inj headed)).1.symm
  rw [heard, same, ← (setup.heard_run app port schedule).sdo, List.map_map]
  rfl

/-- A client that listens to the identifier of the responses hears what the SDO service
    answered, in order and nothing else: all of it but what waits in the queue, and what
    found the queue full. -/
theorem client_hears_responses (setup : Setup α φ E) (placed : Placed setup.nodeId.id)
    (keeps : setup.KeepsTsdo) (schedule : List (DeviceEvent α)) :
    let d := setup.run app port schedule
    (d.bus.filter fun put => put.frame.id = calculateCobId .tsdo setup.nodeId).map
          (·.frame.payload) ++ d.sdo.sdo.tsdoQueue.items =
      (d.sdo.served.filter (!·.queueFull)).filterMap (·.response) := by
  intro d
  have payloads := setup.heard_payloads app port placed keeps schedule
  have served := setup.interleaved_run app port schedule
  rw [heard] at payloads
  rw [payloads]
  exact served.delivered

theorem client_hears_responses_sample :
    let d := sample.run .idle (F4.port F4.sample) (readingRun 40)
    (d.bus.filter fun put => put.frame.id = calculateCobId .tsdo ⟨5⟩).map
          (·.frame.payload) ++ d.sdo.sdo.tsdoQueue.items =
      (d.sdo.served.filter (!·.queueFull)).filterMap (·.response) := by
  apply client_hears_responses .idle (F4.port F4.sample) sample (by decide)
  intro k r member
  rw [List.mem_singleton.mp member]
  decide

end Setup

end Ucanopen.F4
