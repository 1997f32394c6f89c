import Ucanopen.H7.DeviceSdo

/-! # What a device of the H7 port puts on the bus

Every message is polled in one phase of the main loop, and a node's messages only while
the node is enabled. A poll keeps the header of the message and puts it in front of the
payload, so the frames on the bus carry the configured headers, at the rate of a timer
that stands still while its node is disabled.
-/

namespace Ucanopen.H7

open Run Periodic
open F4 (Source Put puts mem_puts puts_of puts_single timesOf timesOf_eq timerOf)

variable {α φ E : Type} {app : Application φ E} {port : Port 16 E}

/-- The phase in which a message is polled. -/
def turn : Source → Phase
  | .heartbeat => .heartbeat
  | .sync => .sync
  | .tpdo _ => .tpdo
  | .sdo => .sdoSend
  | .node k _ => .nodeSend k

/-- The frame that a statement of the SDO service puts. -/
def State.puts (s : State α E) : List (TxHeader × CanPayload) :=
  match s.core.fault, s.point with
  | none, .sendPut => [(s.sdo.tsdo.header, s.sdo.tsdo.payload)]
  | _, _ => []

theorem State.main_put (port : Port 16 E) (s : State α E) :
    (s.main port).sdo.tsdo.header = s.sdo.tsdo.header ∧
      (s.main port).putFrames = s.putFrames ++ s.puts := by
  unfold puts
  cases alive : s.core.fault with
  | some f =>
      unfold main
      rw [alive]
      exact ⟨rfl, (List.append_nil _).symm⟩
  | none =>
      have step := s.main_step port alive
      generalize s.main port = t at step
      cases step with
      | put at_point =>
          rw [at_point]
          exact ⟨rfl, rfl⟩
      | goto next leads =>
          refine ⟨rfl, ?_⟩
          generalize s.point = point at leads
          cases leads with
          | _ => exact (List.append_nil _).symm
      | fault request core at_point | abort request at_point
      | taken request at_point | flag request at_point =>
          rw [at_point]
          exact ⟨rfl, (List.append_nil _).symm⟩
      | execute request response core at_point | store request response at_point =>
          rw [at_point]
          exact ⟨rfl, (List.append_nil _).symm⟩
      | sent at_point =>
          rw [at_point]
          exact ⟨rfl, (List.append_nil _).symm⟩

theorem State.recv_header [DecidableEq α] (s : State α E) (attr : α) (frame : CanFrame) :
    (s.onFrameReceived attr frame).sdo.tsdo.header = s.sdo.tsdo.header ∧
      (s.onFrameReceived attr frame).putFrames = s.putFrames ∧
      (s.onFrameReceived attr frame).point = s.point ∧
      (s.onFrameReceived attr frame).core = s.core := by
  have step := s.recv_step attr frame
  generalize s.onFrameReceived attr frame = t at step
  cases step with
  | _ => exact ⟨rfl, rfl, rfl, rfl⟩

namespace Device

/-- The messages of the device as the bus knows them. -/
def announcement (d : Device α φ E) : Source → Option Announcement
  | .heartbeat => some d.heartbeatService.announcement
  | .sync => some d.syncService.announcement
  | .tpdo i => d.tpdoService[i]?.map TpdoService.Message.announcement
  | .sdo => some ⟨d.sdo.sdo.tsdo.header, none⟩
  | .node k i =>
      d.nodes[k]?.bind fun node => node.txMessages[i]?.map Node.TxMessage.announcement

/-- Only the messages of a node can be disabled. -/
def active (d : Device α φ E) : Source → Bool
  | .node k _ => d.listens (.node k)
  | _ => true

/-- The time at which an event polls a message. -/
def polled (source : Source) (d : Device α φ E) : DeviceEvent α → Option Int
  | .main =>
      if d.sdo.core.fault = none ∧ d.phase = turn source ∧ d.active source then some d.now
      else none
  | _ => none

/-! ## One step -/

/-- A step of the main loop puts messages that it polls. -/
theorem emitted_polled (app : Application φ E) {d : Device α φ E} {put : Put}
    (member : put ∈ d.emitted port) :
    (d.polled put.source .main = some d.now) ∧ put.time = d.now ∧ put.pass = d.passes ∧
      (put.source = .heartbeat → put.frame.payload = d.nmtState.toUnderlying.setWidth 64) := by
  have step := d.main_step app port
  generalize d.work app port = t at step
  generalize d.emitted port = puts at step member
  cases step with
  | heartbeat alive at_phase =>
      obtain ⟨i, f, here, rfl⟩ := mem_puts.mp member
      have sent := (List.mem_singleton.mp (List.mem_of_getElem? here)).symm
      exact ⟨if_pos ⟨alive, at_phase, rfl⟩, rfl, rfl, fun _ => HeartbeatService.send_payload sent⟩
  | sync alive at_phase | tpdo alive at_phase =>
      obtain ⟨i, f, _, rfl⟩ := mem_puts.mp member
      exact ⟨if_pos ⟨alive, at_phase, rfl⟩, rfl, rfl, by simp⟩
  | sdoSend alive at_phase =>
      obtain ⟨f, _, rfl⟩ := List.mem_map.mp member
      exact ⟨if_pos ⟨alive, at_phase, rfl⟩, rfl, rfl, by simp⟩
  | @nodeSend k node alive at_phase here =>
      obtain ⟨i, f, inside, rfl⟩ := mem_puts.mp member
      cases enabled : node.enabled with
      | true =>
          have active : d.active (.node k i) = true := by simp [active, listens, here, enabled]
          exact ⟨if_pos ⟨alive, at_phase, active⟩, rfl, rfl, by simp⟩
      | false => simp [Node.send, enabled] at inside
  | _ => exact absurd member List.not_mem_nil

/-- What is not polled puts nothing. -/
theorem emitted_still (app : Application φ E) {source : Source} {d : Device α φ E}
    (still : d.polled source .main = none) :
    (d.emitted port).filter (·.source = source) = [] := by
  apply List.filter_eq_nil_iff.mpr
  intro put member
  have polled := (emitted_polled app member).1
  intro same
  rw [of_decide_eq_true same, still] at polled
  exact absurd polled nofun

/-- A message that an event does not poll is left alone. -/
theorem announcement_still [DecidableEq α] (app : Application φ E) {source : Source}
    {d : Device α φ E} {e : DeviceEvent α} (still : d.polled source e = none) :
    (d.step app port e).announcement source = d.announcement source := by
  cases e with
  | interrupt attr frame =>
      change (d.deliver attr frame).announcement source = _
      have step := d.interrupt_step attr frame
      generalize d.deliver attr frame = t at step ⊢
      cases step with
      | sdo =>
          cases source with
          | sdo => simp [announcement, d.sdo.recv_header attr frame]
          | _ => rfl
      | node k =>
          cases source with
          | node j i =>
              simp only [announcement, List.getElem?_modify]
              cases d.nodes[j]? with
              | none => rfl
              | some node =>
                  by_cases same : k = j
                  · simp [same]
                  · simp [same]
          | _ => rfl
      | _ => cases source <;> rfl
  | main =>
      have away : d.sdo.core.fault = none → d.phase = turn source → d.active source = false := by
        intro alive here
        simpa [polled, alive, here] using still
      change (d.work app port).announcement source = _
      have header := d.sdo.main_put port
      have step := d.main_step app port
      generalize d.work app port = t at step ⊢
      generalize d.emitted port = puts at step
      cases step with
      | heartbeat alive at_phase =>
          cases source with
          | heartbeat => exact absurd (away alive at_phase) nofun
          | _ => rfl
      | sync alive at_phase =>
          cases source with
          | sync => exact absurd (away alive at_phase) nofun
          | _ => rfl
      | tpdo alive at_phase =>
          cases source with
          | tpdo i => exact absurd (away alive at_phase) nofun
          | _ => rfl
      | sdoSend | sdoHandle =>
          cases source with
          | sdo => simp [announcement, header]
          | _ => rfl
      | onRun =>
          cases source with
          | sdo =>
              have header := (d.sdo.apply app.onRun).main_put port
              exact congrArg (fun header => some (Announcement.mk header none)) header.1
          | _ => rfl
      | @nodeSend k node alive at_phase here =>
          cases source with
          | node j i =>
              by_cases same : k = j
              · subst same
                have disabled : node.enabled = false := by
                  simpa [active, listens, here] using away alive at_phase
                obtain ⟨inside, rfl⟩ := List.getElem?_eq_some_iff.mp here
                simp [announcement, inside, Node.send, disabled]
              · simp [announcement, List.getElem?_set_ne same]
          | _ => rfl
      | @nodeHandle k node alive at_phase here =>
          cases source with
          | node j i =>
              by_cases same : k = j
              · subst same
                obtain ⟨inside, rfl⟩ := List.getElem?_eq_some_iff.mp here
                simp [announcement, inside]
              · simp [announcement, List.getElem?_set_ne same]
          | _ => rfl
      | _ => cases source <;> rfl
  | advance time =>
      cases source with
      | node j i => cases here : d.nodes[j]? <;> simp [announcement, step, advance, here]
      | _ => rfl
  | enable k | disable k =>
      cases source with
      | node j i =>
          simp only [announcement, step, setEnabled, List.getElem?_modify]
          cases d.nodes[j]? with
          | none => rfl
          | some node =>
              by_cases same : k = j
              · simp [same]
              · simp [same]
      | _ => rfl
  | start | stop => cases source <;> rfl

/-- A message that a step polls puts what the poll says. -/
theorem announcement_polled (app : Application φ E) (port : Port 16 E) {source : Source}
    (periodic : source ≠ .sdo) {d : Device α φ E} (turns : d.polled source .main = some d.now) :
    ∃ frame : Option CanFrame,
      Announced d.now (d.announcement source) ((d.work app port).announcement source) frame ∧
        (d.emitted port).filter (·.source = source) =
          frame.toList.map fun f => ⟨d.now, d.passes, source, f⟩ := by
  simp only [polled, Option.ite_none_right_eq_some, and_true] at turns
  obtain ⟨alive, at_phase, active⟩ := turns
  cases source with
  | heartbeat =>
      simp only [work, emitted, alive, at_phase, turn, puts_single]
      exact ⟨_, d.heartbeatService.announced d.nmtState d.now, rfl⟩
  | sync =>
      simp only [work, emitted, alive, at_phase, turn, puts_single]
      exact ⟨_, d.syncService.announced d.now, rfl⟩
  | tpdo i =>
      have apart : Function.Injective Source.tpdo := fun _ _ => Source.tpdo.inj
      simp only [work, emitted, alive, at_phase, turn, puts_of _ _ apart]
      exact ⟨_, sendAll_announced (TpdoService.announced d.now) d.tpdoService d.machine i, rfl⟩
  | sdo => exact absurd rfl periodic
  | node k i =>
      have apart : Function.Injective (Source.node k) := fun _ _ same => (Source.node.inj same).2
      cases here : d.nodes[k]? with
      | none => simp [Device.active, listens, here] at active
      | some node =>
          have enabled : node.enabled = true := by simpa [Device.active, listens, here] using active
          have inside := (List.getElem?_eq_some_iff.mp here).1
          have send : Node.send node.enabled node.txMessages d.now d.machine =
              F4.sendAll (Node.sendMessage d.now) node.txMessages d.machine := by
            unfold Node.send
            rw [enabled]
            rfl
          simp only [work, emitted, alive, at_phase, turn, here, puts_of _ _ apart, send,
            announcement, List.getElem?_set_self inside, Option.bind_some]
          exact ⟨_, sendAll_announced (Node.announced d.now) node.txMessages d.machine i, rfl⟩

/-- What an event puts. -/
def emits (port : Port 16 E) (d : Device α φ E) : DeviceEvent α → List Put
  | .main => d.emitted port
  | _ => []

/-- The times at which an event puts a message. -/
def sent (port : Port 16 E) (source : Source) (d : Device α φ E) (e : DeviceEvent α) : List Int :=
  timesOf source (d.emits port e)

theorem polled_some {source : Source} {d : Device α φ E} {e : DeviceEvent α} {now : Int}
    (turns : d.polled source e = some now) : e = .main ∧ now = d.now := by
  cases e with
  | main =>
      simp only [polled, Option.ite_none_right_eq_some, Option.some.injEq] at turns
      exact ⟨rfl, turns.2.symm⟩
  | _ => exact absurd turns nofun

/-- In the running device a periodic message is a timer. -/
theorem timer_in [DecidableEq α] (app : Application φ E) (port : Port 16 E) {source : Source}
    (periodic : source ≠ .sdo) :
    TimerIn (Device.step (α := α) app port)
      (fun d => (d.announcement source).bind Announcement.timer) (polled source)
      (sent port source) where
  still := by
    intro d e still
    refine ⟨congrArg (·.bind Announcement.timer) (announcement_still app still), ?_⟩
    cases e with
    | main => rw [sent, timesOf_eq, emits, emitted_still app still, List.map_nil]
    | _ => rfl
  polled := by
    intro d e now turns
    obtain ⟨rfl, rfl⟩ := polled_some turns
    obtain ⟨frame, announced, puts⟩ := announcement_polled app port periodic turns
    have sent : d.sent port source .main = if frame.isSome then [d.now] else [] := by
      rw [Device.sent, timesOf_eq, emits, puts]
      cases frame <;> rfl
    rw [sent]
    exact announced.polled

/-- No event changes the header of a message. -/
theorem header_step [DecidableEq α] (app : Application φ E) (d : Device α φ E)
    (e : DeviceEvent α) (source : Source) :
    ((d.step app port e).announcement source).map Announcement.header =
      (d.announcement source).map Announcement.header := by
  cases turns : d.polled source e with
  | none => rw [announcement_still app turns]
  | some now =>
      obtain ⟨rfl, rfl⟩ := polled_some turns
      by_cases periodic : source = .sdo
      · subst periodic
        simp only [polled, Option.ite_none_right_eq_some, and_true] at turns
        obtain ⟨alive, at_phase, _⟩ := turns
        change ((d.work app port).announcement .sdo).map _ = _
        simp only [work, alive, at_phase, turn, announcement, Option.map_some, d.sdo.main_put port]
      · obtain ⟨frame, announced, _⟩ := announcement_polled app port periodic turns
        exact announced.header

/-- A frame has the header of its message. -/
theorem emitted_header (app : Application φ E) {d : Device α φ E} {put : Put}
    (member : put ∈ d.emitted port) :
    (d.announcement put.source).map Announcement.header = some ⟨put.frame.id, put.frame.len⟩ := by
  have turns := (emitted_polled app member).1
  by_cases periodic : put.source = .sdo
  · simp only [polled, Option.ite_none_right_eq_some, and_true] at turns
    obtain ⟨alive, at_phase, _⟩ := turns
    rw [periodic] at at_phase ⊢
    simp only [emitted, alive, at_phase, turn, d.sdo.main_put port, List.drop_left] at member
    obtain ⟨⟨header, payload⟩, inside, rfl⟩ := List.mem_map.mp member
    unfold State.puts at inside
    rw [alive] at inside
    split at inside
    · obtain ⟨rfl, rfl⟩ := Prod.mk.inj (List.mem_singleton.mp inside)
      rfl
    · exact absurd inside List.not_mem_nil
  · obtain ⟨frame, announced, puts⟩ := announcement_polled app port periodic turns
    have mine : put ∈ (d.emitted port).filter (·.source = put.source) := by
      simp [List.mem_filter, member]
    rw [puts] at mine
    obtain ⟨f, inside, made⟩ := List.mem_map.mp mine
    rw [← made]
    exact announced.framed (Option.mem_toList.mp inside)

variable [DecidableEq α]

theorem bus_step (d : Device α φ E) (e : DeviceEvent α) :
    (d.step app port e).bus = d.bus ++ d.emits port e := by
  cases e with
  | interrupt attr frame =>
      change (d.deliver attr frame).bus = _
      have step := d.interrupt_step attr frame
      generalize d.deliver attr frame = t at step ⊢
      cases step with
      | _ => exact (List.append_nil _).symm
  | main => rfl
  | _ => exact (List.append_nil _).symm

end Device

/-! ## Whole runs -/

/-- The state that the last call of `start` or `stop` set. -/
def commanded (schedule : List (DeviceEvent α)) : NmtState :=
  schedule.foldl
    (fun state e =>
      match e with
      | .start => .operational
      | .stop => .stopped
      | _ => state)
    .operational

/-- Whether the last call of `enable` or `disable` left a node enabled. -/
def switchedOn (k : Nat) (schedule : List (DeviceEvent α)) : Bool :=
  schedule.foldl (Device.toggled (.node k)) true

namespace Setup

/-- Header, period and time to run from of each message, as configured. Of two
    registrations of a TPDO the later counts, and one without a creator is off. -/
def announcement (setup : Setup α φ E) : Source → Option Announcement
  | .heartbeat =>
      some ⟨⟨calculateCobId .heartbeat setup.nodeId, cobSizes .heartbeat⟩,
        timerOf setup.heartbeatPeriod setup.heartbeatNow⟩
  | .sync =>
      some ⟨⟨calculateCobId .sync setup.nodeId, cobSizes .sync⟩,
        timerOf setup.syncPeriod setup.syncNow⟩
  | .tpdo i =>
      [Cob.tpdo1, .tpdo2, .tpdo3, .tpdo4][i]?.map fun cob =>
        ⟨⟨calculateCobId cob setup.nodeId, cobSizes cob⟩,
          (setup.tpdos.reverse.find? fun r => decide (r.tpdo.val = i)).bind fun r =>
            timerOf (if r.creator.isSome then r.period else 0) r.now⟩
  | .sdo => some ⟨⟨calculateCobId .tsdo setup.nodeId, cobSizes .tsdo⟩, none⟩
  | .node k i =>
      if k < setup.server.nodes.length then
        (setup.txMessages k)[i]?.map fun r => ⟨r.header, timerOf r.period r.now⟩
      else none

theorem registered_announcement (node : NodeId)
    (rs : List (TpdoService.Registration (Machine E))) (i : Nat) :
    (Run.run TpdoService.registerTpdo (TpdoService.init node) rs)[i]?.map
        TpdoService.Message.announcement =
      [Cob.tpdo1, .tpdo2, .tpdo3, .tpdo4][i]?.map fun cob =>
        ⟨⟨calculateCobId cob node, cobSizes cob⟩,
          (rs.reverse.find? fun r => decide (r.tpdo.val = i)).bind fun r =>
            timerOf (if r.creator.isSome then r.period else 0) r.now⟩ := by
  induction rs using List.reverseRecOn with
  | nil =>
      rw [Run.run_nil, TpdoService.init, List.getElem?_map, Option.map_map]
      match i with
      | 0 | 1 | 2 | 3 => rfl
      | i + 4 => rfl
  | append_singleton rs r ih =>
      rw [Run.run_append, List.reverse_append, Run.run_cons, Run.run_nil]
      generalize Run.run TpdoService.registerTpdo (TpdoService.init node) rs = messages at ih ⊢
      rw [TpdoService.registerTpdo]
      by_cases same : r.tpdo.val = i
      · subst same
        rw [List.getElem?_modify_eq, List.reverse_singleton, List.singleton_append,
          List.find?_cons_of_pos (by simp)]
        cases cob : [Cob.tpdo1, .tpdo2, .tpdo3, .tpdo4][r.tpdo.val]? with
        | none =>
            rw [cob, Option.map_none, Option.map_eq_none_iff] at ih
            rw [ih]
            rfl
        | some cob' =>
            rw [cob, Option.map_some, Option.map_eq_some_iff] at ih
            obtain ⟨m, here, made⟩ := ih
            have header : m.header = _ := congrArg Announcement.header made
            simp [here, TpdoService.Message.announcement, header]
      · rw [List.getElem?_modify_ne _ _ same, ih, List.reverse_singleton, List.singleton_append,
          List.find?_cons_of_neg (by simpa using same)]

theorem nodeMessages_announcement (rs : List (Node.TxRegistration (Machine E))) (i : Nat) :
    (Run.run Node.registerTxMessage [] rs)[i]?.map Node.TxMessage.announcement =
      rs[i]?.map fun r => ⟨r.header, timerOf r.period r.now⟩ := by
  have same : (Run.run Node.registerTxMessage [] rs).map Node.TxMessage.announcement =
      rs.map fun r => ⟨r.header, timerOf r.period r.now⟩ := by
    induction rs using List.reverseRecOn with
    | nil => rfl
    | append_singleton rs r ih =>
        rw [Run.run_append, List.map_append, ← ih]
        exact List.map_append
  rw [← List.getElem?_map, same, List.getElem?_map]

theorem device_announcement (setup : Setup α φ E) (source : Source) :
    setup.device.announcement source = setup.announcement source := by
  cases source with
  | tpdo i => exact registered_announcement setup.nodeId setup.tpdos i
  | node k i =>
      unfold Device.announcement announcement device
      by_cases inside : k < setup.server.nodes.length
      · simp [inside, nodeMessages_announcement]
      · simp [inside]
  | _ => rfl

/-- Only a message with a positive period is on. -/
theorem timer_pos {setup : Setup α φ E} {source : Source} {period start : Int}
    (on : (setup.announcement source).bind Announcement.timer = some (period, start)) :
    0 < period := by
  have positive : ∀ {period' start' : Int}, timerOf period' start' = some (period, start) →
      0 < period := by
    intro period' start' isOn
    obtain ⟨positive, same⟩ := F4.timerOf_some isOn
    rw [(Prod.mk.inj same).1]
    exact positive
  obtain ⟨message, here, timer⟩ := Option.bind_eq_some_iff.mp on
  cases source with
  | heartbeat | sync =>
      cases here
      exact positive timer
  | sdo =>
      cases here
      exact absurd timer nofun
  | tpdo i =>
      obtain ⟨cob, _, rfl⟩ := Option.map_eq_some_iff.mp here
      obtain ⟨r, _, isOn⟩ := Option.bind_eq_some_iff.mp timer
      exact positive isOn
  | node k i =>
      simp only [announcement, Option.ite_none_right_eq_some] at here
      obtain ⟨r, _, rfl⟩ := Option.map_eq_some_iff.mp here.2
      exact positive timer

variable [DecidableEq α] (app : Application φ E) (port : Port 16 E)

theorem header_run (setup : Setup α φ E) (schedule : List (DeviceEvent α)) (source : Source) :
    ((setup.run app port schedule).announcement source).map Announcement.header =
      (setup.announcement source).map Announcement.header := by
  rw [← device_announcement]
  exact Run.invariant
    (fun d : Device α φ E => (d.announcement source).map Announcement.header =
      (setup.device.announcement source).map Announcement.header)
    rfl (fun d e same => (d.header_step app e source).trans same) schedule

theorem bus_run (setup : Setup α φ E) (schedule : List (DeviceEvent α)) :
    (setup.run app port schedule).bus =
      Run.trace (Device.step app port) (Device.emits port) setup.device schedule :=
  Run.grows_run Device.bus Device.bus_step setup.device schedule

/-- Each frame on the bus was put by a step of the main loop. -/
theorem put_run (setup : Setup α φ E) (schedule : List (DeviceEvent α)) {put : Put}
    (member : put ∈ (setup.run app port schedule).bus) :
    ∃ before after, schedule = before ++ .main :: after ∧
      put ∈ (setup.run app port before).emitted port := by
  rw [setup.bus_run] at member
  obtain ⟨before, e, after, rfl, emitted⟩ := Run.mem_trace member
  cases e with
  | main => exact ⟨before, after, rfl, emitted⟩
  | _ => exact absurd emitted List.not_mem_nil

theorem put_header (setup : Setup α φ E) (schedule : List (DeviceEvent α)) {put : Put}
    (member : put ∈ (setup.run app port schedule).bus) :
    (setup.announcement put.source).map Announcement.header =
      some ⟨put.frame.id, put.frame.len⟩ := by
  obtain ⟨before, after, _, emitted⟩ := setup.put_run app port schedule member
  rw [← setup.header_run app port before]
  exact Device.emitted_header app emitted

theorem commanded_run (setup : Setup α φ E) (schedule : List (DeviceEvent α)) :
    (setup.run app port schedule).nmtState = commanded schedule := by
  unfold Setup.run Run.run commanded
  induction schedule using List.reverseRecOn with
  | nil => rfl
  | append_singleton es e ih =>
      rw [List.foldl_append, List.foldl_append, ← ih]
      generalize es.foldl (Device.step app port) setup.device = d
      cases e with
      | interrupt attr frame =>
          change (d.deliver attr frame).nmtState = d.nmtState
          have step := d.interrupt_step attr frame
          generalize d.deliver attr frame = t at step ⊢
          cases step with
          | _ => rfl
      | main =>
          change (d.work app port).nmtState = d.nmtState
          have step := d.main_step app port
          generalize d.work app port = t at step ⊢
          generalize d.emitted port = puts at step
          cases step with
          | _ => rfl
      | _ => rfl

/-- The nodes of the device are those of the server, enabled as the calls left them. -/
theorem nodes_run (setup : Setup α φ E) (schedule : List (DeviceEvent α)) :
    let d := setup.run app port schedule
    d.attrMap ≠ [] ∧ d.nodes.length = setup.server.nodes.length ∧
      ∀ k < setup.server.nodes.length, d.listens (.node k) = switchedOn k schedule := by
  unfold Setup.run switchedOn
  induction schedule using List.reverseRecOn with
  | nil =>
      refine ⟨setup.device_map_ne_nil, List.length_mapIdx, fun k inside => ?_⟩
      exact setup.node_listens (List.getElem?_eq_getElem inside)
  | append_singleton es e ih =>
      obtain ⟨built, length, enabled⟩ := ih
      rw [Run.run_append]
      generalize Run.run (Device.step app port) setup.device es = d at built length enabled
      obtain ⟨map, kept⟩ := Device.map_kept app port built e
      refine ⟨?_, kept.trans length, fun k inside => ?_⟩
      · rw [Run.run_cons, Run.run_nil, map]
        exact built
      · rw [List.foldl_append, ← enabled k inside]
        exact Device.node_listens_step app port (by omega) e

/-- Each frame on the bus has the header its message was configured with, a heartbeat
    tells the state that was commanded last before the step that put it, and a node's
    frame was put while the last call had left the node enabled. -/
theorem frames_announced (setup : Setup α φ E) (schedule : List (DeviceEvent α)) :
    ∀ put ∈ (setup.run app port schedule).bus,
      (setup.announcement put.source).map Announcement.header =
          some ⟨put.frame.id, put.frame.len⟩ ∧
        ∃ before after, schedule = before ++ .main :: after ∧
          put ∈ (setup.run app port before).emitted port ∧
          put.time = (setup.run app port before).now ∧
          put.pass = (setup.run app port before).passes ∧
          (put.source = .heartbeat →
            put.frame.payload = (commanded before).toUnderlying.setWidth 64) ∧
          ∀ k i, put.source = .node k i → switchedOn k before = true := by
  intro put member
  obtain ⟨before, after, split, emitted⟩ := setup.put_run app port schedule member
  obtain ⟨turns, time, pass, heartbeat⟩ := Device.emitted_polled app emitted
  refine ⟨setup.put_header app port schedule member, before, after, split, emitted, time, pass,
    ?_, ?_⟩
  · rw [← setup.commanded_run app port before]
    exact heartbeat
  · intro k i source
    simp only [Device.polled, source, Device.active, Option.ite_none_right_eq_some, and_true]
      at turns
    obtain ⟨_, length, enabled⟩ := setup.nodes_run app port before
    have inside : k < setup.server.nodes.length := by
      rw [← length]
      by_contra outside
      have absent := List.getElem?_eq_none (not_lt.mp outside)
      simp [Device.listens, absent] at turns
    rw [← enabled k inside]
    exact turns.2.2

theorem frames_announced_asked :
    ∃ put ∈ (sample.run .idle emptyPort (askingRun 40)).bus,
      (sample.announcement put.source).map Announcement.header =
          some ⟨put.frame.id, put.frame.len⟩ ∧
        ∃ before after, askingRun 40 = before ++ .main :: after ∧
          put ∈ (sample.run .idle emptyPort before).emitted emptyPort ∧
          put.time = (sample.run .idle emptyPort before).now ∧
          put.pass = (sample.run .idle emptyPort before).passes ∧
          (put.source = .heartbeat →
            put.frame.payload = (commanded before).toUnderlying.setWidth 64) ∧
          ∀ k i, put.source = .node k i → switchedOn k before = true := by
  have answered : (sample.run .idle emptyPort (askingRun 40)).bus ≠ [] := by decide +kernel
  refine ⟨_, List.head_mem answered, ?_⟩
  exact frames_announced .idle emptyPort sample (askingRun 40) _ (List.head_mem answered)

/-- The times at which the main loop polls a message. -/
def polls (setup : Setup α φ E) (source : Source) (schedule : List (DeviceEvent α)) : List Int :=
  trace (Device.step app port) (fun d e => (d.polled source e).toList) setup.device schedule

/-- Each periodic message is on the bus at times that depend on its period, the time it
    was registered and the polls of its phase alone, at its own rate. The polls of a
    node's messages are those that find the node enabled. -/
theorem rates_announced (setup : Setup α φ E) {source : Source} (periodic : source ≠ .sdo)
    (schedule : List (DeviceEvent α)) :
    match (setup.announcement source).bind Announcement.timer with
    | none => timesOf source (setup.run app port schedule).bus = []
    | some (period, start) =>
        KeepsRate period start (firings period start) ∧
        timesOf source (setup.run app port schedule).bus =
          firings period start (setup.polls app port source schedule) := by
  have sent := (Device.timer_in app port periodic).sent_eq setup.device schedule
  rw [setup.device_announcement] at sent
  have times : timesOf source (setup.run app port schedule).bus =
      trace (Device.step app port) (Device.sent port source) setup.device schedule := by
    rw [setup.bus_run]
    exact filterMap_trace _ _ _
  rw [times, sent]
  cases on : (setup.announcement source).bind Announcement.timer with
  | none => rfl
  | some setting =>
      obtain ⟨period, start⟩ := setting
      exact ⟨firings_keepsRate (timer_pos on) start, rfl⟩

theorem rates_announced_heartbeat :
    KeepsRate 10 0 (firings (10 : Int) 0) ∧
      timesOf .heartbeat (sample.run .idle emptyPort (askingRun 40)).bus =
        firings 10 0 (sample.polls .idle emptyPort .heartbeat (askingRun 40)) := by
  have periodic : Source.heartbeat ≠ .sdo := nofun
  exact rates_announced .idle emptyPort sample periodic (askingRun 40)

end Setup

end Ucanopen.H7
