import Ucanopen.H7.DeviceParts

/-! # Frames in the device of the H7 port

Every frame the bus brings for a message is stored, but for those that a node misses
while it is disabled. What is lost, what a handler reads of it, when supervision gives
an alarm and what the error counter counts follow from the schedule of the bus alone.
-/

namespace Ucanopen.H7

open Reception
open F4 (FrameReceiver)

variable {n : Nat} {α φ E : Type} [DecidableEq α] (app : Application φ E) (port : Port 16 E)

/-! ## What arrives -/

namespace Setup

/-- The message of an RPDO that has a handler, and whose attribute no other slot has. -/
def Unclaimed (setup : Setup α φ E) (j : Fin 4) : Prop :=
  (setup.server.rpdoService j).handler.isSome = true ∧
    ∀ i, (setup.server.rpdoService i).handler = none →
      (setup.server.rpdoService i).attr ≠ (setup.server.rpdoService j).attr

omit [DecidableEq α] in
theorem Unclaimed.alone {setup : Setup α φ E} {j : Fin 4} (unclaimed : setup.Unclaimed j)
    (i : Fin 4) (same : (setup.server.rpdoService i).attr = (setup.server.rpdoService j).attr) :
    i = j := by
  cases handler : (setup.server.rpdoService i).handler with
  | none => exact absurd same (unclaimed.2 i handler)
  | some f =>
      have apart := setup.asF4.rpdo_apart
      rw [← rpdos_asF4] at apart
      exact apart i j (by simp [handler]) unclaimed.1 same

omit [DecidableEq α] in
theorem node_ready (setup : Setup α φ E) {k n : Nat} {table : Table n α φ}
    (here : setup.server.nodes[k]? = some ⟨n, table⟩) :
    (∀ i, (table i).unhandled = false) ∧ (∀ i j, (table i).attr = (table j).attr → i = j) ∧
      ∀ i, (table i).timepoint ≤ setup.now := by
  rw [nodes_asF4] at here
  have member := List.mem_of_getElem? here
  obtain ⟨registered, apart⟩ := setup.asF4.nodesReady _ member
  exact ⟨registered.idle, apart, setup.past_run.2 _ member⟩

omit [DecidableEq α] in
theorem rpdo_idle (setup : Setup α φ E) (i : Fin 4) :
    (setup.server.rpdoService i).unhandled = false := by
  rw [rpdos_asF4]
  exact setup.asF4.rpdo_idle i

end Setup

/-! ## Undisturbed handlers -/

namespace Device

/-- No frame for RPDO `j` arrives while its handler runs. -/
def RpdoUndisturbed (j : Fin 4) (d : Device α φ E) : DeviceEvent α → Prop
  | .interrupt attr _ =>
      d.receiver attr = some .rpdoService → slotOf d.rpdo.table attr = some j →
        ¬ Running j d.rpdo.point
  | _ => True

/-- No frame for message `j` of node `k` arrives while its handler runs. -/
def NodeUndisturbed (k j : Nat) (d : Device α φ E) : DeviceEvent α → Prop
  | .interrupt attr _ =>
      d.receiver attr = some (.node k) → ∀ node, d.nodeRx k = some node → ∀ i : Fin node.1,
        i.val = j → slotOf node.2.table attr = some i → ¬ Running i node.2.point
  | _ => True

theorem rpdo_undisturbed {j : Fin 4} {d : Device α φ E} {e : DeviceEvent α}
    (undisturbed : RpdoUndisturbed j d e) :
    Run.StepsMeet (Reception.State.step recvOverwrite) (Newest.Undisturbed j) d.rpdo
      (d.sees .rpdoService .rpdoHandle e) := by
  cases e with
  | interrupt attr frame =>
      by_cases mine : d.receiver attr = some .rpdoService
      · simp only [sees, mine, listens, and_self, if_true]
        exact ⟨undisturbed mine, trivial⟩
      · simp [sees, mine, Run.StepsMeet]
  | main =>
      by_cases turn : d.sdo.core.fault = none ∧ d.phase = .rpdoHandle
      · simp only [sees, if_pos turn]
        exact ⟨trivial, trivial⟩
      · simp [sees, turn, Run.StepsMeet]
  | advance time => exact ⟨trivial, trivial⟩
  | _ => trivial

instance (j : Fin 4) (d : Device α φ E) : (e : DeviceEvent α) → Decidable (RpdoUndisturbed j d e)
  | .interrupt attr _ =>
      inferInstanceAs (Decidable (d.receiver attr = some .rpdoService →
        slotOf d.rpdo.table attr = some j → ¬ Running j d.rpdo.point))
  | .main | .advance _ | .start | .stop | .enable _ | .disable _ => .isTrue trivial

/-- The condition on a node that is there. -/
theorem nodeUndisturbed_iff {k j : Nat} {d : Device α φ E} {attr : α} {frame : CanFrame} :
    NodeUndisturbed k j d (.interrupt attr frame) ↔
      (d.receiver attr = some (.node k) → ∀ node ∈ d.nodeRx k, ∀ i : Fin node.1,
        i.val = j → slotOf node.2.table attr = some i → ¬ Running i node.2.point) := Iff.rfl

instance (k j : Nat) (d : Device α φ E) : (e : DeviceEvent α) → Decidable (NodeUndisturbed k j d e)
  | .interrupt _ _ => decidable_of_iff _ nodeUndisturbed_iff.symm
  | .main | .advance _ | .start | .stop | .enable _ | .disable _ => .isTrue trivial

/-- A condition on what a node sees, when the node is as given. -/
def NodeMeets (j : Fin n) (node : Option (NodeRx α φ)) (e : Reception.Event α) : Prop :=
  ∀ rx : Reception.State n α φ, node = some ⟨n, rx⟩ → Newest.Undisturbed j rx e

theorem node_undisturbed {k : Nat} {j : Fin n} {d : Device α φ E} {e : DeviceEvent α}
    (undisturbed : NodeUndisturbed k j.val d e) :
    Run.StepsMeet NodeRx.step (NodeMeets j) (d.nodeRx k) (d.sees (.node k) (.nodeHandle k) e) := by
  cases e with
  | interrupt attr frame =>
      by_cases mine : d.receiver attr = some (.node k) ∧ d.listens (.node k)
      · simp only [sees, if_pos mine]
        exact ⟨fun rx here => undisturbed mine.1 _ here j rfl, trivial⟩
      · simp [sees, mine, Run.StepsMeet]
  | main =>
      by_cases turn : d.sdo.core.fault = none ∧ d.phase = .nodeHandle k
      · simp only [sees, if_pos turn]
        exact ⟨fun _ _ => trivial, trivial⟩
      · simp [sees, turn, Run.StepsMeet]
  | advance time => exact ⟨fun _ _ => trivial, trivial⟩
  | _ => trivial

theorem meets_alone {j : Fin n} {rx : Reception.State n α φ} {events : List (Reception.Event α)}
    (meet : Run.StepsMeet NodeRx.step (NodeMeets j) (some ⟨n, rx⟩) events) :
    Run.StepsMeet (Reception.State.step recvOverwrite) (Newest.Undisturbed j) rx events := by
  induction events generalizing rx with
  | nil => trivial
  | cons e es ih => exact ⟨meet.1 rx rfl, ih meet.2⟩

end Device

namespace Setup

theorem rpdo_meets (setup : Setup α φ E) (j : Fin 4) (schedule : List (DeviceEvent α))
    (undisturbed : Run.StepsMeet (Device.step app port) (Device.RpdoUndisturbed j) setup.device
      schedule) :
    Run.StepsMeet (Reception.State.step recvOverwrite) (Newest.Undisturbed j)
      (.init setup.server.rpdoService setup.now)
      (Run.trace (Device.step app port) (Device.sees .rpdoService .rpdoHandle) setup.device
        schedule) :=
  Run.part_meets Device.rpdo (Device.rpdo_follows app port)
    (fun _ _ allowed => Device.rpdo_undisturbed allowed) undisturbed

/-- As long as no frame for a message arrives while its handler runs, the handler is
    called on the newest frame in the next pass, and reads each frame it is called on
    whole, in order and at most once. -/
theorem newest_reaches_handler (setup : Setup α φ E) (schedule : List (DeviceEvent α)) :
    let d := setup.run app port schedule
    (∀ j, (setup.server.rpdoService j).handler.isSome = true →
      Run.StepsMeet (Device.step app port) (Device.RpdoUndisturbed j) setup.device schedule →
        NewestHandled d.rpdo j ∧
          (d.rpdo.completed j).Sublist ((d.rpdo.stored j).map bytesOf)) ∧
    ∀ k n (table : Table n α φ), setup.server.nodes[k]? = some ⟨n, table⟩ →
      ∃ rx : Reception.State n α φ, d.nodeRx k = some ⟨n, rx⟩ ∧
        ∀ j, (table j).handler.isSome = true →
          Run.StepsMeet (Device.step app port) (Device.NodeUndisturbed k j) setup.device
              schedule →
            NewestHandled rx j ∧ (rx.completed j).Sublist ((rx.stored j).map bytesOf) := by
  intro d
  constructor
  · intro j wants undisturbed
    have meets := setup.rpdo_meets app port j schedule undisturbed
    change NewestHandled (setup.run app port schedule).rpdo j ∧
      ((setup.run app port schedule).rpdo.completed j).Sublist
        (((setup.run app port schedule).rpdo.stored j).map bytesOf)
    rw [rpdo_run]
    exact ⟨(Newest.run wants setup.now _ meets).newestHandled,
      (Whole.run setup.rpdo_idle setup.now _ j meets).handled⟩
  · intro k n table here
    refine ⟨_, setup.node_run app port here schedule, fun j wants undisturbed => ?_⟩
    have meets := Run.part_meets (Device.nodeRx k) (Device.node_follows app port k)
      (fun _ _ allowed => Device.node_undisturbed allowed) undisturbed
    rw [show setup.device.nodeRx k = some ⟨n, .init table setup.now⟩ by
      simp [Device.nodeRx, device, here]] at meets
    have meets := Device.meets_alone meets
    exact ⟨(Newest.run wants setup.now _ meets).newestHandled,
      (Whole.run (setup.node_ready here).1 setup.now _ j meets).handled⟩

theorem newest_reaches_handler_listening :
    let d := listening.run .idle emptyPort (listeningRun 60)
    (NewestHandled d.rpdo 0 ∧
      (d.rpdo.completed 0).Sublist ((d.rpdo.stored 0).map bytesOf)) ∧
    ∃ rx : Reception.State 1 Nat Unit, d.nodeRx 0 = some ⟨1, rx⟩ ∧
      NewestHandled rx 0 ∧ (rx.completed 0).Sublist ((rx.stored 0).map bytesOf) := by
  obtain ⟨rpdo, nodes⟩ := newest_reaches_handler .idle emptyPort listening (listeningRun 60)
  obtain ⟨rx, there, node⟩ := nodes 0 1 listeningNode listening_node
  exact ⟨rpdo 0 (by decide) (by decide +kernel), rx, there, node 0 (by decide) (by decide +kernel)⟩

/-- There the handler of the RPDO has read its frame. -/
example : (listening.run .idle emptyPort (listeningRun 60)).rpdo.completed 0 = [bytesOf 1] := by
  decide +kernel

end Setup

/-! ## Supervision -/

namespace Device

/-- All parts of the device read one clock. -/
structure OneClock (d : Device α φ E) : Prop where
  rpdo : d.rpdo.now = d.now
  nodes : ∀ k node, d.nodeRx k = some node → node.2.now = d.now

/-- A reception that sees an event of the device sees its time pass. -/
theorem sees_now (rx : Reception.State n α φ) (owner : FrameReceiver) (turn : Phase)
    (d : Device α φ E) (e : DeviceEvent α) :
    (Run.run (Reception.State.step recvOverwrite) rx (d.sees owner turn e)).now - rx.now =
      (d.step app port e).now - d.now := by
  cases e with
  | interrupt attr frame =>
      have still : (d.step app port (.interrupt attr frame)).now = d.now := by
        change (d.deliver attr frame).now = d.now
        have step := d.interrupt_step attr frame
        generalize d.deliver attr frame = t at step
        cases step with
        | _ => rfl
      rw [still]
      by_cases mine : d.receiver attr = some owner ∧ d.listens owner
      · simp [sees, mine, Reception.State.step, recv_now (slot_recv_step rx attr frame)]
      · simp [sees, mine]
  | main =>
      have still : (d.step app port .main).now = d.now := by
        change (d.work app port).now = d.now
        have step := d.main_step app port
        generalize d.work app port = t at step
        generalize d.emitted port = puts at step
        cases step with
        | _ => rfl
      rw [still]
      by_cases mine : d.sdo.core.fault = none ∧ d.phase = turn
      · simp [sees, mine, Reception.State.step, main_now rx.main_step]
      · simp [sees, mine]
  | advance time => simp [sees, Reception.State.step, step, advance]
  | _ => simp [sees, step, start, stop, setEnabled]

theorem NodeRx.run_none (events : List (Reception.Event α)) :
    Run.run NodeRx.step (none : Option (NodeRx α φ)) events = none := by
  induction events with
  | nil => rfl
  | cons e es ih => exact ih

theorem OneClock.step {d : Device α φ E} (clock : OneClock d) (e : DeviceEvent α) :
    OneClock (d.step app port e) := by
  constructor
  · have passed := sees_now app port d.rpdo .rpdoService .rpdoHandle d e
    have same := clock.rpdo
    rw [← rpdo_follows app port] at passed
    omega
  · intro k node there
    rw [node_follows app port] at there
    cases here : d.nodeRx k with
    | none =>
        rw [here, NodeRx.run_none] at there
        exact absurd there nofun
    | some before =>
        obtain ⟨n, rx⟩ := before
        have passed := sees_now app port rx (.node k) (.nodeHandle k) d e
        have same := clock.nodes k _ here
        rw [here, Setup.nodeRx_run] at there
        obtain rfl := Option.some.inj there
        change rx.now = d.now at same
        change (Run.run _ rx _).now = _
        omega

end Device

namespace Setup

end Setup

end Ucanopen.H7
