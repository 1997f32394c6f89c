import Ucanopen.F4.DeviceBus

/-! # How often a device puts its messages

Inside the running device each periodic message is a timer that one phase of the main
loop polls. What other services do, how long they take and what the bus brings moves
the polls, and nothing else of what decides when the message is sent.
-/

namespace Ucanopen.F4

open Run Periodic

variable {α φ E σ μ β : Type} {app : Application φ E} {port : Port 8 E}

/-- The phase that polls a message. -/
def Source.phase : Source → Phase
  | .heartbeat => .heartbeat
  | .sync => .sync
  | .tpdo _ => .tpdo
  | .sdo => .sdoSend
  | .node k _ => .nodeSend k

namespace Device

/-- The period of a message and the time it runs from, or that it is off. -/
def timer (d : Device α φ E) : Source → Option (Int × Int)
  | .heartbeat => timerOf d.heartbeatService.period d.heartbeatService.timepoint
  | .sync => timerOf d.syncService.period d.syncService.timepoint
  | .tpdo i => d.tpdoService[i]?.bind TpdoService.Message.timer
  | .sdo => none
  | .node k i =>
      (d.nodes.map NodeUnit.txMessages)[k]?.bind fun messages =>
        messages[i]?.bind fun m => timerOf m.period m.timepoint

/-- The time at which an event polls a message. -/
def polled (source : Source) (d : Device α φ E) : DeviceEvent α → Option Int
  | .main => if d.sdo.core.fault = none ∧ d.phase = source.phase then some d.now else none
  | _ => none

/-! ## One step -/

/-- What an event puts of a message. -/
def sent (port : Port 8 E) (source : Source) (d : Device α φ E) (e : DeviceEvent α) : List Int :=
  timesOf source (d.emits port e)

/-- A step of the main loop puts messages of its phase. -/
theorem emitted_phase (app : Application φ E) {d : Device α φ E} {put : Put}
    (member : put ∈ d.emitted port) :
    d.sdo.core.fault = none ∧ d.phase = put.source.phase := by
  have step := d.main_step app port
  generalize d.work app port = t at step
  generalize d.emitted port = puts at step member
  cases step with
  | heartbeat alive at_phase | sync alive at_phase | tpdo alive at_phase
  | nodeSend alive at_phase =>
      obtain ⟨i, f, _, rfl⟩ := mem_puts.mp member
      exact ⟨alive, at_phase⟩
  | sdoSend alive at_phase =>
      obtain ⟨f, _, rfl⟩ := List.mem_map.mp member
      exact ⟨alive, at_phase⟩
  | _ => exact absurd member List.not_mem_nil

/-- Out of its phase a message is left alone. -/
theorem timer_still [DecidableEq α] (app : Application φ E) {source : Source} {d : Device α φ E}
    {e : DeviceEvent α} (still : d.polled source e = none) :
    (d.step app port e).timer source = d.timer source ∧ d.sent port source e = [] := by
  cases e with
  | interrupt attr frame =>
      refine ⟨?_, rfl⟩
      change (d.onFrameReceived attr frame).timer source = _
      have step := d.interrupt_step attr frame
      generalize d.onFrameReceived attr frame = t at step ⊢
      cases step with
      | node k =>
          cases source with
          | node j i =>
              simp only [timer]
              rw [map_modify_same]
              exact fun _ => rfl
          | _ => rfl
      | _ => cases source <;> rfl
  | main =>
      have away : d.sdo.core.fault = none → d.phase ≠ source.phase := by
        intro alive here
        simp [polled, alive, here] at still
      constructor
      · change (d.work app port).timer source = _
        have step := d.main_step app port
        generalize d.work app port = t at step ⊢
        generalize d.emitted port = puts at step
        cases step with
        | heartbeat alive at_phase =>
            cases source with
            | heartbeat => exact absurd at_phase (away alive)
            | _ => rfl
        | sync alive at_phase =>
            cases source with
            | sync => exact absurd at_phase (away alive)
            | _ => rfl
        | tpdo alive at_phase =>
            cases source with
            | tpdo i => exact absurd at_phase (away alive)
            | _ => rfl
        | @nodeSend k node alive at_phase here =>
            cases source with
            | node j i =>
                have other : k ≠ j := by
                  rintro rfl
                  exact away alive at_phase
                simp [timer, List.getElem?_set_ne other]
            | _ => rfl
        | @nodeHandle k node alive at_phase here =>
            cases source with
            | node j i =>
                have kept := map_set_same (f := NodeUnit.txMessages)
                  (b := { node with rx := node.rx.main }) here rfl
                simp only [timer, kept]
            | _ => rfl
        | _ => cases source <;> rfl
      · apply List.filterMap_eq_nil_iff.mpr
        intro put member
        obtain ⟨alive, at_phase⟩ := emitted_phase app member
        apply if_neg
        rintro rfl
        exact away alive at_phase
  | advance time =>
      refine ⟨?_, rfl⟩
      cases source with
      | node j i => simp [timer, step, advance, Function.comp_def]
      | _ => rfl
  | start => exact ⟨by cases source <;> rfl, rfl⟩
  | stop => exact ⟨by cases source <;> rfl, rfl⟩

theorem polled_some {source : Source} {d : Device α φ E} {e : DeviceEvent α} {now : Int}
    (turn : d.polled source e = some now) :
    e = .main ∧ d.sdo.core.fault = none ∧ d.phase = source.phase ∧ now = d.now := by
  cases e with
  | main =>
      simp only [polled, Option.ite_none_right_eq_some, Option.some.injEq] at turn
      exact ⟨rfl, turn.1.1, turn.1.2, turn.2.symm⟩
  | _ => exact absurd turn nofun

/-- In its phase it is polled. -/
theorem timer_polled [DecidableEq α] (app : Application φ E) {source : Source}
    (periodic : source ≠ .sdo) {d : Device α φ E} {e : DeviceEvent α} {now : Int}
    (turn : d.polled source e = some now) :
    Polled now (d.timer source) ((d.step app port e).timer source) (d.sent port source e) := by
  obtain ⟨rfl, alive, at_phase, rfl⟩ := polled_some turn
  change Polled d.now _ ((d.work app port).timer source) (timesOf source (d.emitted port))
  cases source with
  | heartbeat =>
      simp only [work, emitted, alive, at_phase, Source.phase, timesOf_single]
      exact HeartbeatService.timed.polled d.heartbeatService (d.nmtState, d.now)
  | sync =>
      simp only [work, emitted, alive, at_phase, Source.phase, timesOf_single]
      exact SyncService.timed.polled d.syncService d.now
  | tpdo i =>
      simp only [work, emitted, alive, at_phase, Source.phase]
      exact sendAll_polled d.passes d.machine (fun _ _ => Source.tpdo.inj) TpdoService.timed d.tpdoService i
  | sdo => exact absurd rfl periodic
  | node k i =>
      simp only [work, emitted, alive, at_phase, Source.phase]
      cases here : d.nodes[k]? with
      | none =>
          simp only [timer, List.getElem?_map, here]
          exact .off
      | some node =>
          have inside := (List.getElem?_eq_some_iff.mp here).1
          simp only [timer, List.getElem?_map, here, List.getElem?_set_self inside]
          exact sendAll_polled d.passes d.machine (fun _ _ same => (Source.node.inj same).2) Node.timed
            node.txMessages i

/-- In the running device a periodic message is a timer. -/
theorem timer_in [DecidableEq α] (app : Application φ E) (port : Port 8 E) {source : Source}
    (periodic : source ≠ .sdo) :
    TimerIn (Device.step (α := α) app port) (fun d => d.timer source) (polled source)
      (sent port source) where
  still := timer_still app
  polled := timer_polled app periodic

end Device

/-! ## Whole runs -/

namespace Setup

/-- The period of a message and the time it runs from, as configured, or that it is off.
    Of two registrations of a TPDO the later counts. -/
def timer (setup : Setup α φ E) : Source → Option (Int × Int)
  | .heartbeat => timerOf setup.heartbeatPeriod setup.heartbeatNow
  | .sync => timerOf setup.syncPeriod setup.syncNow
  | .tpdo i =>
      (setup.tpdos.reverse.find? fun r => decide (r.tpdo.val = i)).bind fun r =>
        if r.creator.isSome then timerOf r.period r.now else none
  | .sdo => none
  | .node k i =>
      if k < setup.server.nodes.length then
        (setup.txMessages k)[i]?.bind fun r => timerOf r.period r.now
      else none

/-- Registering puts one message's timer and leaves the others. -/
theorem register_timer {messages : List (TpdoService.Message (Machine E))}
    (four : messages.length = 4) (r : TpdoService.Registration (Machine E)) (i : Nat) :
    (TpdoService.register r messages)[i]?.bind TpdoService.Message.timer =
      if r.tpdo.val = i then if r.creator.isSome then timerOf r.period r.now else none
      else messages[i]?.bind TpdoService.Message.timer := by
  by_cases same : r.tpdo.val = i
  · subst same
    have inside : r.tpdo.val < messages.length := by omega
    rw [if_pos rfl, TpdoService.register_at r (List.getElem?_eq_getElem inside)]
    rfl
  · rw [if_neg same]
    unfold TpdoService.register TpdoService.registerTpdo
    rw [List.getElem?_modify_ne _ _ same]

theorem registered_timer (node : NodeId) (rs : List (TpdoService.Registration (Machine E)))
    (i : Nat) :
    let messages := rs.foldl (fun messages r => TpdoService.register r messages)
      (TpdoService.init node)
    messages.length = 4 ∧
      messages[i]?.bind TpdoService.Message.timer =
        (rs.reverse.find? fun r => decide (r.tpdo.val = i)).bind fun r =>
          if r.creator.isSome then timerOf r.period r.now else none := by
  induction rs using List.reverseRecOn with
  | nil =>
      refine ⟨rfl, ?_⟩
      rw [List.foldl_nil]
      cases here : (TpdoService.init (E := Machine E) node)[i]? with
      | none => rfl
      | some m =>
          obtain ⟨cob, _, rfl⟩ := List.mem_map.mp (List.mem_of_getElem? here)
          rfl
  | append_singleton rs r ih =>
      rw [List.foldl_append, List.reverse_append]
      refine ⟨(List.length_modify ..).trans ih.1, ?_⟩
      change (TpdoService.register r _)[i]?.bind _ = _
      rw [register_timer ih.1, ih.2]
      by_cases same : r.tpdo.val = i
      · simp [same]
      · simp [same]

theorem nodeMessages_timer (setup : Setup α φ E) (k i : Nat) :
    (setup.nodeMessages k)[i]?.bind (fun m => timerOf m.period m.timepoint) =
      (setup.txMessages k)[i]?.bind fun r => timerOf r.period r.now := by
  have same : (setup.nodeMessages k).map (fun m => timerOf m.period m.timepoint) =
      (setup.txMessages k).map fun r => timerOf r.period r.now := by
    unfold nodeMessages Run.run
    induction setup.txMessages k using List.reverseRecOn with
    | nil => rfl
    | append_singleton rs r ih =>
        rw [List.foldl_append, List.map_append, ← ih]
        simp [Node.register, Node.registerTxMessage]
  have here := congrArg (fun timers => timers[i]?.bind id) same
  simpa [Option.bind_map] using here

theorem device_timer (setup : Setup α φ E) (source : Source) :
    setup.device.timer source = setup.timer source := by
  cases source with
  | tpdo i => exact (registered_timer setup.nodeId setup.tpdos i).2
  | node k i =>
      unfold Device.timer timer device
      by_cases inside : k < setup.server.nodes.length
      · simp [inside, nodeMessages_timer]
      · simp [inside]
  | _ => rfl

/-- Only a message with a positive period is on. -/
theorem timer_pos {setup : Setup α φ E} {source : Source} {period start : Int}
    (on : setup.timer source = some (period, start)) : 0 < period := by
  have positive : ∀ {period' start' : Int}, timerOf period' start' = some (period, start) →
      0 < period := by
    intro period' start' isOn
    obtain ⟨positive, same⟩ := timerOf_some isOn
    rw [(Prod.mk.inj same).1]
    exact positive
  cases source with
  | heartbeat => exact positive on
  | sync => exact positive on
  | tpdo i =>
      obtain ⟨r, _, isOn⟩ := Option.bind_eq_some_iff.mp on
      split at isOn
      · exact positive isOn
      · exact absurd isOn nofun
  | sdo => exact absurd on nofun
  | node k i =>
      simp only [timer] at on
      split at on
      · obtain ⟨r, _, isOn⟩ := Option.bind_eq_some_iff.mp on
        exact positive isOn
      · exact absurd on nofun

variable [DecidableEq α]

/-- The times at which the main loop polls a message. -/
def polls (setup : Setup α φ E) (app : Application φ E) (port : Port 8 E) (source : Source)
    (schedule : List (DeviceEvent α)) : List Int :=
  trace (Device.step app port) (fun d e => (d.polled source e).toList) setup.device schedule

/-- Whatever a device does, each periodic message is on the bus at times that depend on
    its own period, the time it was registered and the polls of its phase alone, and so
    it keeps its rate. A message that is off is never on the bus. -/
theorem messages_keep_rate (setup : Setup α φ E) (app : Application φ E) (port : Port 8 E)
    {source : Source} (periodic : source ≠ .sdo) (schedule : List (DeviceEvent α)) :
    match setup.timer source with
    | none => timesOf source (setup.run app port schedule).bus = []
    | some (period, start) =>
        KeepsRate period start (firings period start) ∧
        timesOf source (setup.run app port schedule).bus =
          firings period start (setup.polls app port source schedule) := by
  have sent := (Device.timer_in app port periodic).sent_eq setup.device schedule
  rw [setup.device_timer] at sent
  have times : timesOf source (setup.run app port schedule).bus =
      trace (Device.step app port) (Device.sent port source) setup.device schedule := by
    rw [setup.bus_run]
    exact filterMap_trace _ _ _
  rw [times, sent]
  cases on : setup.timer source with
  | none => rfl
  | some setting =>
      obtain ⟨period, start⟩ := setting
      exact ⟨firings_keepsRate (timer_pos on) start, rfl⟩

theorem messages_keep_rate_heartbeat :
    KeepsRate 10 0 (firings (10 : Int) 0) ∧
      timesOf .heartbeat (sample.run .idle (F4.port F4.sample) (readingRun 40)).bus =
        firings 10 0 (sample.polls .idle (F4.port F4.sample) .heartbeat (readingRun 40)) := by
  have periodic : Source.heartbeat ≠ .sdo := nofun
  exact messages_keep_rate sample .idle (F4.port F4.sample) periodic (readingRun 40)

end Setup

end Ucanopen.F4
