import Ucanopen.F4.Device

/-! # The services inside the device

Each service of a running device sees the frames that are routed to it and its own
turns in the main loop, and nothing else of what goes on. So whatever holds of every
run of a service alone holds of it in the device.
-/

namespace Ucanopen.F4

variable {n : Nat} {α φ E : Type} [DecidableEq α] (app : Application φ E) (port : Port 8 E)

namespace Device

/-! ## Reception -/

/-- What an event means to a receiver whose turn in the main loop is a certain phase. -/
def sees (owner : FrameReceiver) (turn : Phase) (d : Device α φ E) :
    DeviceEvent α → List (Reception.Event α)
  | .interrupt attr frame => if d.server.receiver attr = some owner then [.recv attr frame] else []
  | .main => if d.sdo.core.fault = none ∧ d.phase = turn then [.main] else []
  | .advance time => [.advance time]
  | _ => []

theorem rpdo_follows (d : Device α φ E) (e : DeviceEvent α) :
    (d.step app port e).rpdo = Run.run (Reception.State.step RpdoService.recv) d.rpdo
      (d.sees .rpdoService .rpdoHandle e) := by
  cases e with
  | interrupt attr frame =>
      change (d.onFrameReceived attr frame).rpdo = _
      have step := d.interrupt_step attr frame
      generalize d.onFrameReceived attr frame = t at step ⊢
      cases step with
      | _ => simp [sees, Reception.State.step, *]
  | main =>
      change (d.work app port).rpdo = _
      have step := d.main_step app port
      generalize d.work app port = t at step ⊢
      generalize d.emitted port = puts at step
      cases step with
      | stopped fault => simp [sees, fault]
      | _ alive at_phase => simp [sees, alive, at_phase, Reception.State.step]
  | advance time => rfl
  | start => rfl
  | stop => rfl

/-- A node of the device, as far as it receives. -/
abbrev NodeRx (α φ : Type) := Σ n, Reception.State n α φ

def NodeRx.step (node : Option (NodeRx α φ)) (e : Reception.Event α) : Option (NodeRx α φ) :=
  node.map fun node => ⟨node.1, node.2.step Node.recv e⟩

def nodeRx (k : Nat) (d : Device α φ E) : Option (NodeRx α φ) :=
  d.nodes[k]?.map fun node => ⟨node.count, node.rx⟩

theorem node_follows (k : Nat) (d : Device α φ E) (e : DeviceEvent α) :
    (d.step app port e).nodeRx k = Run.run NodeRx.step (d.nodeRx k)
      (d.sees (.node k) (.nodeHandle k) e) := by
  cases e with
  | interrupt attr frame =>
      change (d.onFrameReceived attr frame).nodeRx k = _
      have step := d.interrupt_step attr frame
      generalize d.onFrameReceived attr frame = t at step ⊢
      cases step with
      | node j owner =>
          by_cases same : j = k
          · subst same
            cases here : d.nodes[j]? <;>
              simp [nodeRx, sees, owner, NodeRx.step, Reception.State.step, here]
          · simp [nodeRx, sees, owner, same]
      | _ owner => simp [nodeRx, sees, owner]
  | main =>
      change (d.work app port).nodeRx k = _
      have step := d.main_step app port
      generalize d.work app port = t at step ⊢
      generalize d.emitted port = puts at step
      cases step with
      | stopped fault => simp [sees, fault]
      | @nodeSend j node alive at_phase here =>
          by_cases same : j = k
          · subst same
            obtain ⟨inside, rfl⟩ := List.getElem?_eq_some_iff.mp here
            simp [sees, nodeRx, at_phase, inside]
          · simp [sees, nodeRx, at_phase, same]
      | @noNode j alive at_phase last =>
          by_cases same : j = k
          · subst same
            simp [sees, nodeRx, alive, at_phase, last, NodeRx.step]
          · simp [sees, nodeRx, at_phase, same]
      | @nodeHandle j node alive at_phase here =>
          by_cases same : j = k
          · subst same
            obtain ⟨inside, rfl⟩ := List.getElem?_eq_some_iff.mp here
            simp [sees, nodeRx, alive, at_phase, inside, NodeRx.step, Reception.State.step]
          · simp [sees, nodeRx, at_phase, same]
      | _ alive at_phase => simp [sees, nodeRx, alive, at_phase]
  | advance time =>
      cases here : d.nodes[k]? <;>
        simp [step, advance, sees, nodeRx, here, NodeRx.step, Reception.State.step]
  | start => rfl
  | stop => rfl

/-! ## Routing -/

/-- The frames that the bus brings with an attribute. -/
def wire (attr : α) (schedule : List (DeviceEvent α)) : List CanFrame :=
  schedule.filterMap fun
    | .interrupt a frame => if a = attr then some frame else none
    | _ => none

/-- The entries are built once, so each attribute keeps its receiver. -/
theorem map_kept {d : Device α φ E} (built : d.rxattrMap ≠ []) (e : DeviceEvent α) :
    (d.step app port e).rxattrMap = d.rxattrMap := by
  cases e with
  | interrupt attr frame =>
      change (d.onFrameReceived attr frame).rxattrMap = _
      have step := d.interrupt_step attr frame
      generalize d.onFrameReceived attr frame = t at step ⊢
      cases step with
      | _ => rfl
  | main =>
      change (d.work app port).rxattrMap = _
      have step := d.main_step app port
      generalize d.work app port = t at step ⊢
      generalize d.emitted port = puts at step
      cases step with
      | _ => rfl
  | advance time => rfl
  | start => exact if_neg (by simpa [server] using built)
  | stop => rfl

theorem receiver_congr {d t : Device α φ E} (same : t.rxattrMap = d.rxattrMap) (attr : α) :
    t.server.receiver attr = d.server.receiver attr := by
  unfold Server.receiver server
  rw [same]

end Device

/-! ## The configured server -/

namespace Server

/-- Every node is as its registrations left it, and its messages have attributes of
    their own. -/
def NodesReady (s : Server α φ) : Prop :=
  ∀ node ∈ s.nodes, Node.Registered node.2 ∧ ∀ i j, (node.2 i).attr = (node.2 j).attr → i = j

omit [DecidableEq α] in
theorem registerRxMessage_apart {t : Reception.Table n α φ} {attr : α} {timeout now : Int}
    {handler : Option φ} (apart : ∀ i j, (t i).attr = (t j).attr → i = j)
    (isNew : ∀ i, (t i).attr ≠ attr) (i j : Fin (n + 1))
    (same : (Node.registerRxMessage t attr timeout handler now i).attr =
      (Node.registerRxMessage t attr timeout handler now j).attr) : i = j := by
  induction i using Fin.lastCases with
  | last =>
      induction j using Fin.lastCases with
      | last => rfl
      | cast j =>
          simp only [Node.registerRxMessage, Fin.snoc_last, Fin.snoc_castSucc] at same
          exact absurd same.symm (isNew j)
  | cast i =>
      induction j using Fin.lastCases with
      | last =>
          simp only [Node.registerRxMessage, Fin.snoc_last, Fin.snoc_castSucc] at same
          exact absurd same (isNew i)
      | cast j =>
          simp only [Node.registerRxMessage, Fin.snoc_castSucc] at same
          exact congrArg Fin.castSucc (apart i j same)

omit [DecidableEq α] in
theorem NodesReady.step {s : Server α φ} {returned : List α} (ready : NodesReady s)
    (owned : Owned s returned) (c : Call α φ) (fresh : (returned ++ c.attr?.toList).Nodup) :
    NodesReady (s.step c) := by
  cases c with
  | addNode =>
      intro node member
      obtain old | new := List.mem_append.mp member
      · exact ready node old
      · obtain rfl := List.mem_singleton.mp new
        exact ⟨.init, fun i => i.elim0⟩
  | registerRxMessage k attr timeout handler now =>
      have isNew : attr ∉ returned := fun old =>
        (List.nodup_append.mp fresh).2.2 attr old attr (by simp [Call.attr?]) rfl
      intro node member
      obtain ⟨l, inside⟩ := List.getElem?_of_mem member
      simp only [Server.step, List.getElem?_modify, Option.map_eq_map,
        Option.map_eq_some_iff] at inside
      obtain ⟨before, inside, made⟩ := inside
      obtain ⟨registered, apart⟩ := ready before (List.mem_of_getElem? inside)
      by_cases here : k = l
      · subst here
        rw [if_pos rfl] at made
        subst made
        refine ⟨.register attr timeout handler now registered, ?_⟩
        apply registerRxMessage_apart apart
        intro i same
        exact isNew (owned.mem attr (.node k) ⟨before, inside, i, same⟩)
      · rw [if_neg here] at made
        subst made
        exact ⟨registered, apart⟩
  | _ => exact ready

omit [DecidableEq α] in
theorem NodesReady.run {s : Server α φ} {returned : List α} (ready : NodesReady s)
    (owned : Owned s returned) {calls : List (Call α φ)}
    (fresh : (returned ++ attrs calls).Nodup) : NodesReady (Run.run Server.step s calls) := by
  induction calls generalizing s returned with
  | nil => exact ready
  | cons c calls ih =>
      rw [attrs_cons, ← List.append_assoc] at fresh
      have first := List.Nodup.of_append_left fresh
      exact ih (ready.step owned c first) (owned.step c first) fresh

end Server

namespace Setup

omit [DecidableEq α] in
theorem owned (setup : Setup α φ E) :
    Server.Owned setup.server (setup.rsdoRxattr :: Server.attrs setup.calls) := by
  have before := (Server.Owned.init setup.attr setup.frame setup.rsdoRxattr setup.nodeId).run
    setup.calls setup.fresh
  constructor
  · intro attr owner holds
    exact before.mem attr owner (Server.holds_start.mp holds)
  · intro attr owner owner' holds holds'
    exact before.unique attr owner owner' (Server.holds_start.mp holds)
      (Server.holds_start.mp holds')

omit [DecidableEq α] in
theorem built (setup : Setup α φ E) : setup.server.rxattrMap = setup.server.routes := by
  have empty := Server.map_before_start
    (s := .init setup.attr setup.frame setup.rsdoRxattr setup.nodeId) rfl setup.first
  exact if_pos (by simp [empty])

omit [DecidableEq α] in
/-- No call changes the attribute of the SDO service. -/
theorem server_sdo (setup : Setup α φ E) :
    setup.server.sdoService.rsdoRxattr = setup.rsdoRxattr := by
  have kept : ∀ (calls : List (Server.Call α φ)) (s : Server α φ),
      (Run.run Server.step s calls).sdoService = s.sdoService := by
    intro calls
    induction calls with
    | nil => exact fun s => rfl
    | cons c calls ih =>
        intro s
        rw [Run.run_cons, ih]
        cases c <;> rfl
  change (Run.run Server.step _ setup.calls).sdoService.rsdoRxattr = _
  rw [kept]
  rfl

/-- Whatever is held at the start is routed to its owner. -/
theorem receiver_eq (setup : Setup α φ E) {attr : α} {owner : FrameReceiver}
    (holds : setup.server.Holds attr owner) : setup.server.receiver attr = some owner :=
  Server.receiver_eq_some setup.built holds fun _ holds' =>
    setup.owned.unique _ _ _ holds' holds

omit [DecidableEq α] in
theorem nodesReady (setup : Setup α φ E) : setup.server.NodesReady := by
  have owned := Server.Owned.init (φ := φ) setup.attr setup.frame setup.rsdoRxattr setup.nodeId
  have none : Server.NodesReady
      (.init (φ := φ) setup.attr setup.frame setup.rsdoRxattr setup.nodeId) := by
    intro node member
    exact absurd member List.not_mem_nil
  exact none.run owned setup.fresh

omit [DecidableEq α] in
theorem rpdo_idle (setup : Setup α φ E) (i : Fin 4) :
    (setup.server.rpdoService i).unhandled = false :=
  (Server.registered_run (.init setup.attr setup.frame) setup.calls).idle i

omit [DecidableEq α] in
theorem rpdo_apart (setup : Setup α φ E) : Server.Apart setup.server.rpdoService :=
  Server.apart_run (.init setup.attr setup.frame setup.rsdoRxattr setup.nodeId)
    (fun _ _ wants => absurd wants nofun) setup.fresh

/-- The device at the entry of the main loop routes as the server does. -/
theorem device_receiver (setup : Setup α φ E) (attr : α) :
    setup.device.server.receiver attr = setup.server.receiver attr := rfl

omit [DecidableEq α] in
theorem device_map_ne_nil (setup : Setup α φ E) : setup.device.rxattrMap ≠ [] := by
  have routes := setup.server.routes_ne_nil
  rw [← setup.built] at routes
  exact routes

/-- The RPDO service of the device, as it runs alone. -/
theorem rpdo_run (setup : Setup α φ E) (schedule : List (DeviceEvent α)) :
    (setup.run app port schedule).rpdo =
      Run.run (Reception.State.step RpdoService.recv) (.init setup.server.rpdoService setup.now)
        (Run.trace (Device.step app port) (Device.sees .rpdoService .rpdoHandle) setup.device
          schedule) :=
  Run.part_run Device.rpdo (Device.rpdo_follows app port) setup.device schedule

theorem nodeRx_run {n : Nat} (s : Reception.State n α φ) (events : List (Reception.Event α)) :
    Run.run Device.NodeRx.step (some ⟨n, s⟩) events =
      some ⟨n, Run.run (Reception.State.step Node.recv) s events⟩ := by
  induction events generalizing s with
  | nil => rfl
  | cons e es ih => exact ih (s.step Node.recv e)

/-- A node of the device, as it runs alone. -/
theorem node_run (setup : Setup α φ E) {k n : Nat} {table : Reception.Table n α φ}
    (here : setup.server.nodes[k]? = some ⟨n, table⟩) (schedule : List (DeviceEvent α)) :
    (setup.run app port schedule).nodeRx k =
      some ⟨n, Run.run (Reception.State.step Node.recv) (.init table setup.now)
        (Run.trace (Device.step app port) (Device.sees (.node k) (.nodeHandle k)) setup.device
          schedule)⟩ := by
  have followed := Run.part_run (Device.nodeRx k) (Device.node_follows app port k) setup.device schedule
  have start : setup.device.nodeRx k = some ⟨n, .init table setup.now⟩ := by
    simp [Device.nodeRx, device, here]
  rw [start, nodeRx_run] at followed
  exact followed

end Setup

end Ucanopen.F4
