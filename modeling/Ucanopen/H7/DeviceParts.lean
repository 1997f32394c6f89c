import Ucanopen.H7.Device

/-! # The receivers inside the device of the H7 port

A receiver sees the frames that are routed to it and its own turns in the main loop; a
node sees frames only while it is enabled. What it sees of an attribute is what the bus
brings, so all that holds of a reception alone holds in the device.
-/

namespace Ucanopen.H7

open Reception
open F4 (FrameReceiver)

variable {n : Nat} {α φ E : Type} [DecidableEq α] (app : Application φ E) (port : Port 16 E)

namespace Device

/-! ## Reception -/

/-- Only nodes can be disabled. -/
def listens (d : Device α φ E) : FrameReceiver → Bool
  | .node k => d.nodes[k]?.any (·.enabled)
  | _ => true

/-- What an event means to a receiver whose turn in the main loop is a certain phase. -/
def sees (owner : FrameReceiver) (turn : Phase) (d : Device α φ E) :
    DeviceEvent α → List (Reception.Event α)
  | .interrupt attr frame =>
      if d.receiver attr = some owner ∧ d.listens owner then [.recv attr frame] else []
  | .main => if d.sdo.core.fault = none ∧ d.phase = turn then [.main] else []
  | .advance time => [.advance time]
  | _ => []

theorem rpdo_follows (d : Device α φ E) (e : DeviceEvent α) :
    (d.step app port e).rpdo = Run.run (Reception.State.step recvOverwrite) d.rpdo
      (d.sees .rpdoService .rpdoHandle e) := by
  cases e with
  | interrupt attr frame =>
      change (d.deliver attr frame).rpdo = _
      have step := d.interrupt_step attr frame
      generalize d.deliver attr frame = t at step ⊢
      cases step with
      | rpdo owner => simp [sees, listens, owner, Reception.State.step, RpdoService.recvFrame]
      | node k owner => simp [sees, owner]
      | _ owner => simp [sees, owner]
  | main =>
      change (d.work app port).rpdo = _
      have step := d.main_step app port
      generalize d.work app port = t at step ⊢
      generalize d.emitted port = puts at step
      cases step with
      | stopped fault => simp [sees, fault]
      | _ alive at_phase => simp [sees, alive, at_phase, Reception.State.step]
  | _ => rfl

/-- A node of the device, as far as it receives. -/
abbrev NodeRx (α φ : Type) := Σ n, Reception.State n α φ

def NodeRx.step (node : Option (NodeRx α φ)) (e : Reception.Event α) : Option (NodeRx α φ) :=
  node.map fun node => ⟨node.1, node.2.step recvOverwrite e⟩

def nodeRx (k : Nat) (d : Device α φ E) : Option (NodeRx α φ) :=
  d.nodes[k]?.map fun node => ⟨node.count, node.rx⟩

/-- A disabled node is left as it is. -/
theorem recv_enabled (rx : Reception.State n α φ) (enabled : Bool) (attr : α) (frame : CanFrame) :
    rx.recv (Node.recvFrame enabled) attr frame =
      if enabled then rx.recv recvOverwrite attr frame else rx := by
  cases enabled with
  | true => rfl
  | false => rfl

theorem node_follows (k : Nat) (d : Device α φ E) (e : DeviceEvent α) :
    (d.step app port e).nodeRx k = Run.run NodeRx.step (d.nodeRx k)
      (d.sees (.node k) (.nodeHandle k) e) := by
  cases e with
  | interrupt attr frame =>
      change (d.deliver attr frame).nodeRx k = _
      have step := d.interrupt_step attr frame
      generalize d.deliver attr frame = t at step ⊢
      cases step with
      | node j owner =>
          by_cases same : j = k
          · subst same
            cases here : d.nodes[j]? with
            | none => simp [nodeRx, sees, listens, here]
            | some node =>
                cases enabled : node.enabled <;>
                  simp [nodeRx, sees, listens, owner, here, enabled, recv_enabled, NodeRx.step,
                    Reception.State.step]
          · simp [nodeRx, sees, owner, same]
      | _ owner => simp [nodeRx, sees, owner]
  | main =>
      change (d.work app port).nodeRx k = _
      have step := d.main_step app port
      generalize d.work app port = t at step ⊢
      generalize d.emitted port = puts at step
      cases step with
      | stopped fault => simp [sees, fault]
      | @nodeSend j node alive at_phase here =>
          by_cases same : j = k
          · subst same
            obtain ⟨inside, rfl⟩ := List.getElem?_eq_some_iff.mp here
            simp [sees, nodeRx, at_phase, inside]
          · simp [sees, nodeRx, at_phase, same]
      | @handled j alive at_phase last =>
          by_cases same : j = k
          · subst same
            simp [sees, nodeRx, alive, at_phase, last, NodeRx.step]
          · simp [sees, nodeRx, at_phase, same]
      | @nodeHandle j node alive at_phase here =>
          by_cases same : j = k
          · subst same
            obtain ⟨inside, rfl⟩ := List.getElem?_eq_some_iff.mp here
            simp [sees, nodeRx, alive, at_phase, inside, NodeRx.step, Reception.State.step]
          · simp [sees, nodeRx, at_phase, same]
      | _ alive at_phase => simp [sees, nodeRx, alive, at_phase]
  | advance time =>
      cases here : d.nodes[k]? <;>
        simp [step, advance, sees, nodeRx, here, NodeRx.step, Reception.State.step]
  | enable j | disable j =>
      simp only [step, setEnabled, nodeRx, List.getElem?_modify, sees, Run.run_nil]
      cases d.nodes[k]? with
      | none => rfl
      | some node =>
          by_cases same : j = k
          · simp [same]
          · simp [same]
  | start => rfl
  | stop => rfl

/-! ## Routing -/

/-- The entries are built once, and nodes are not added any more. -/
theorem map_kept {d : Device α φ E} (built : d.attrMap ≠ []) (e : DeviceEvent α) :
    (d.step app port e).attrMap = d.attrMap ∧
      (d.step app port e).nodes.length = d.nodes.length := by
  cases e with
  | interrupt attr frame =>
      change (d.deliver attr frame).attrMap = _ ∧ (d.deliver attr frame).nodes.length = _
      have step := d.interrupt_step attr frame
      generalize d.deliver attr frame = t at step ⊢
      cases step with
      | node k => exact ⟨rfl, List.length_modify ..⟩
      | _ => exact ⟨rfl, rfl⟩
  | main =>
      change (d.work app port).attrMap = _ ∧ (d.work app port).nodes.length = _
      have step := d.main_step app port
      generalize d.work app port = t at step ⊢
      generalize d.emitted port = puts at step
      cases step with
      | nodeSend | nodeHandle => exact ⟨rfl, List.length_set ..⟩
      | _ => exact ⟨rfl, rfl⟩
  | advance time => exact ⟨rfl, List.length_map ..⟩
  | start => exact ⟨if_neg (by simpa [server] using built), rfl⟩
  | stop => exact ⟨rfl, rfl⟩
  | enable k | disable k => exact ⟨rfl, List.length_modify ..⟩

theorem receiver_congr {d t : Device α φ E} (same : t.attrMap = d.attrMap)
    (attr : α) : t.receiver attr = d.receiver attr := by
  unfold receiver
  rw [same]

/-- Whether a receiver listens after an event: a node is enabled and disabled by calls. -/
def toggled (owner : FrameReceiver) (on : Bool) : DeviceEvent α → Bool
  | .enable k => on || decide (owner = .node k)
  | .disable k => on && !decide (owner = .node k)
  | _ => on

theorem node_listens_step {d : Device α φ E} {k : Nat} (inside : k < d.nodes.length)
    (e : DeviceEvent α) :
    (d.step app port e).listens (.node k) = toggled (.node k) (d.listens (.node k)) e := by
  obtain ⟨node, here⟩ : ∃ node, d.nodes[k]? = some node := ⟨_, List.getElem?_eq_getElem inside⟩
  cases e with
  | interrupt attr frame =>
      change (d.deliver attr frame).listens (.node k) = d.listens (.node k)
      have step := d.interrupt_step attr frame
      generalize d.deliver attr frame = t at step ⊢
      cases step with
      | node j =>
          by_cases same : j = k
          · simp [listens, here, same]
          · simp [listens, same]
      | _ => rfl
  | main =>
      change (d.work app port).listens (.node k) = d.listens (.node k)
      have step := d.main_step app port
      generalize d.work app port = t at step ⊢
      generalize d.emitted port = puts at step
      cases step with
      | @nodeSend j node' _ _ there | @nodeHandle j node' _ _ there =>
          by_cases same : j = k
          · subst same
            obtain ⟨inside, rfl⟩ := List.getElem?_eq_some_iff.mp there
            simp [listens, inside]
          · simp [listens, List.getElem?_set_ne same]
      | _ => rfl
  | advance time => simp [listens, step, advance, here, toggled]
  | enable j | disable j =>
      by_cases same : j = k
      · simp [listens, step, setEnabled, here, same, toggled]
      · simp [listens, step, setEnabled, same, Ne.symm same, toggled]
  | start => rfl
  | stop => rfl

end Device

/-! ## The configured server -/

/-- Whatever was registered was registered in the past. -/
def TimesPast (now : Int) (s : F4.Server α φ) : Prop :=
  (∀ i, (s.rpdoService i).handler.isSome = true → (s.rpdoService i).timepoint ≤ now) ∧
    ∀ node ∈ s.nodes, ∀ i, (node.2 i).timepoint ≤ now

omit [DecidableEq α] in
theorem TimesPast.step {now : Int} {s : F4.Server α φ} (past : TimesPast now s)
    {c : F4.Server.Call α φ} (before : ∀ time, registeredAt c = some time → time ≤ now) :
    TimesPast now (s.step c) := by
  obtain ⟨rpdos, nodes⟩ := past
  cases c with
  | registerRpdo rpdo attr timeout handler time =>
      refine ⟨fun i wants => ?_, nodes⟩
      by_cases same : i = rpdo
      · subst same
        simpa [F4.Server.step, F4.RpdoService.registerRpdo] using before time rfl
      · simp only [F4.Server.step, F4.RpdoService.registerRpdo, Function.update_of_ne same] at wants ⊢
        exact rpdos i wants
  | addNode =>
      refine ⟨rpdos, fun node member => ?_⟩
      obtain old | new := List.mem_append.mp member
      · exact nodes node old
      · rw [List.mem_singleton.mp new]
        exact fun i => i.elim0
  | registerRxMessage k attr timeout handler time =>
      refine ⟨rpdos, fun node member => ?_⟩
      obtain ⟨l, inside⟩ := List.getElem?_of_mem member
      simp only [F4.Server.step, List.getElem?_modify, Option.map_eq_map,
        Option.map_eq_some_iff] at inside
      obtain ⟨old, inside, made⟩ := inside
      have earlier := nodes old (List.mem_of_getElem? inside)
      by_cases here : k = l
      · rw [if_pos here] at made
        subst made
        intro i
        induction i using Fin.lastCases with
        | last => simpa [F4.Node.registerRxMessage] using before time rfl
        | cast i => simpa [F4.Node.registerRxMessage] using earlier i
      · rw [if_neg here] at made
        subst made
        exact earlier
  | start => exact ⟨rpdos, nodes⟩
  | stop => exact ⟨rpdos, nodes⟩

namespace Setup

/-- The configuration of the other port that routes and receives alike. -/
def asF4 (setup : Setup α φ E) : F4.Setup α φ E where
  attr := setup.attr
  frame := setup.frame
  rsdoRxattr := setup.sdoAttr
  nodeId := ⟨0⟩
  calls := setup.calls
  first := setup.first
  fresh := setup.fresh
  heartbeatPeriod := 0
  heartbeatNow := setup.now
  syncPeriod := 0
  syncNow := setup.now
  tpdos := []
  txMessages := fun _ => []
  machine := setup.machine
  now := setup.now

omit [DecidableEq α] in
theorem server_asF4 (setup : Setup α φ E) : setup.server.asF4 = setup.asF4.server := by
  unfold server F4.Setup.server
  rw [← Server.step, Server.asF4_step, Server.asF4_run]
  rfl

omit [DecidableEq α] in
theorem rpdos_asF4 (setup : Setup α φ E) :
    setup.server.rpdoService = setup.asF4.server.rpdoService :=
  congrArg F4.Server.rpdoService setup.server_asF4

omit [DecidableEq α] in
theorem nodes_asF4 (setup : Setup α φ E) : setup.server.nodes = setup.asF4.server.nodes :=
  congrArg F4.Server.nodes setup.server_asF4

omit [DecidableEq α] in
theorem map_asF4 (setup : Setup α φ E) : setup.server.attrMap = setup.asF4.server.rxattrMap :=
  congrArg F4.Server.rxattrMap setup.server_asF4

omit [DecidableEq α] in
theorem past_run (setup : Setup α φ E) : TimesPast setup.now setup.asF4.server := by
  have start : TimesPast setup.now
      (F4.Server.init (φ := φ) setup.attr setup.frame setup.sdoAttr ⟨0⟩) := by
    refine ⟨fun i wants => absurd wants nofun, fun node member => ?_⟩
    exact absurd member List.not_mem_nil
  have all : ∀ (calls : List (F4.Server.Call α φ)) (s : F4.Server α φ), TimesPast setup.now s →
      (∀ c ∈ calls, ∀ time, registeredAt c = some time → time ≤ setup.now) →
        TimesPast setup.now (Run.run F4.Server.step s calls) := by
    intro calls
    induction calls with
    | nil => exact fun s past _ => past
    | cons c calls ih =>
        intro s past before
        exact ih _ (past.step (before c (.head _))) fun c' member => before c' (.tail _ member)
  exact all setup.calls _ start setup.past

theorem device_receiver (setup : Setup α φ E) (attr : α) :
    setup.device.receiver attr = setup.asF4.server.receiver attr := by
  unfold Device.receiver F4.Server.receiver
  rw [← map_asF4]
  rfl

omit [DecidableEq α] in
theorem device_map_ne_nil (setup : Setup α φ E) : setup.device.attrMap ≠ [] := by
  have built := setup.asF4.device_map_ne_nil
  change setup.server.attrMap ≠ []
  rw [map_asF4]
  exact built

/-- The RPDO service of the device, as it runs alone. -/
theorem rpdo_run (setup : Setup α φ E) (schedule : List (DeviceEvent α)) :
    (setup.run app port schedule).rpdo =
      Run.run (Reception.State.step recvOverwrite) (.init setup.server.rpdoService setup.now)
        (Run.trace (Device.step app port) (Device.sees .rpdoService .rpdoHandle) setup.device
          schedule) :=
  Run.part_run Device.rpdo (Device.rpdo_follows app port) setup.device schedule

theorem nodeRx_run {n : Nat} (s : Reception.State n α φ) (events : List (Reception.Event α)) :
    Run.run Device.NodeRx.step (some ⟨n, s⟩) events =
      some ⟨n, Run.run (Reception.State.step recvOverwrite) s events⟩ := by
  induction events generalizing s with
  | nil => rfl
  | cons e es ih => exact ih (s.step recvOverwrite e)

/-- A node of the device as it runs alone, on what it sees. -/
def nodeAlone (setup : Setup α φ E) (k : Nat) {n : Nat} (table : Table n α φ)
    (schedule : List (DeviceEvent α)) : Reception.State n α φ :=
  Run.run (Reception.State.step recvOverwrite) (.init table setup.now)
    (Run.trace (Device.step app port) (Device.sees (.node k) (.nodeHandle k)) setup.device schedule)

theorem node_run (setup : Setup α φ E) {k n : Nat} {table : Table n α φ}
    (here : setup.server.nodes[k]? = some ⟨n, table⟩) (schedule : List (DeviceEvent α)) :
    (setup.run app port schedule).nodeRx k =
      some ⟨n, setup.nodeAlone app port k table schedule⟩ := by
  have followed := Run.part_run (Device.nodeRx k) (Device.node_follows app port k) setup.device
    schedule
  have start : setup.device.nodeRx k = some ⟨n, .init table setup.now⟩ := by
    simp [Device.nodeRx, device, here]
  rw [start, nodeRx_run] at followed
  exact followed

omit [DecidableEq α] in
theorem node_listens (setup : Setup α φ E) {k n : Nat} {table : Table n α φ}
    (here : setup.server.nodes[k]? = some ⟨n, table⟩) :
    setup.device.listens (.node k) = true := by
  simp [Device.listens, device, here]

end Setup

end Ucanopen.H7
