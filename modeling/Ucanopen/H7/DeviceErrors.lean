import Ucanopen.H7.DeviceFrames

/-! # The error counter of the H7 port

`Server::on_frame_received` counts each frame whose receiver did not take it. In a
configured device there are two reasons only: the SDO service still has a request, or
the frame is for a node that is disabled.
-/

namespace Ucanopen.H7

open Reception
open F4 (FrameReceiver)

variable {n : Nat} {α φ E : Type} [DecidableEq α] (app : Application φ E) (port : Port 16 E)

/-! ## The SDO service -/

namespace State

theorem recv_attr (s : State α E) (attr : α) (frame : CanFrame) :
    (s.onFrameReceived attr frame).sdo.rsdo.attr = s.sdo.rsdo.attr := by
  have step := s.recv_step attr frame
  generalize s.onFrameReceived attr frame = t at step
  cases step with
  | _ => rfl

/-- A frame with the service's attribute is taken or refused, depending on the slot. -/
theorem recv_arrivals (s : State α E) {attr : α} (mine : attr = s.sdo.rsdo.attr)
    (frame : CanFrame) :
    (s.onFrameReceived attr frame).sdo.rsdo.attr = s.sdo.rsdo.attr ∧
      (s.onFrameReceived attr frame).accepted =
        s.accepted ++ (if s.sdo.rsdo.isUnhandled then [] else [frame.payload]) ∧
      (s.onFrameReceived attr frame).rejected =
        s.rejected ++ (if s.sdo.rsdo.isUnhandled then [frame.payload] else []) := by
  have routed : attr ∈ s.sdo.getRxAttr := List.mem_singleton.mpr mine
  unfold onFrameReceived
  rw [if_pos routed]
  cases occupied : s.sdo.rsdo.isUnhandled with
  | true => simp [SdoService.recvFrame, mine, occupied]
  | false => simp [SdoService.recvFrame, mine, occupied]

/-- What the service rejects is what it returns an error for. -/
theorem recv_rejected (s : State α E) {attr : α} (mine : s.sdo.rsdo.attr = attr)
    (frame : CanFrame) :
    ((s.sdo.recvFrame attr frame).1 = .success ∧
        (s.onFrameReceived attr frame).rejected = s.rejected) ∨
      ((s.sdo.recvFrame attr frame).1 = .overrun ∧
        (s.onFrameReceived attr frame).rejected = s.rejected ++ [frame.payload]) := by
  subst mine
  have routed : s.sdo.rsdo.attr ∈ s.sdo.getRxAttr := List.mem_singleton.mpr rfl
  unfold onFrameReceived
  rw [if_pos routed]
  cases occupied : s.sdo.rsdo.isUnhandled with
  | true => exact .inr (by simp [SdoService.recvFrame, occupied])
  | false => exact .inl (by simp [SdoService.recvFrame, occupied])

omit [DecidableEq α] in
theorem main_arrivals (s : State α E) :
    (s.main port).sdo.rsdo.attr = s.sdo.rsdo.attr ∧ (s.main port).accepted = s.accepted ∧
      (s.main port).rejected = s.rejected := by
  cases fault : s.core.fault with
  | some f =>
      unfold main
      rw [fault]
      exact ⟨rfl, rfl, rfl⟩
  | none =>
      have step := s.main_step port fault
      generalize s.main port = t at step
      cases step with
      | _ => exact ⟨rfl, rfl, rfl⟩

end State

namespace Device

omit [DecidableEq α] in
/-- The main loop neither takes nor refuses requests, and counts no errors. -/
theorem work_arrivals (d : Device α φ E) :
    (d.work app port).sdo.sdo.rsdo.attr = d.sdo.sdo.rsdo.attr ∧
      (d.work app port).sdo.accepted = d.sdo.accepted ∧
      (d.work app port).sdo.rejected = d.sdo.rejected ∧
      (d.work app port).errcount = d.errcount := by
  have step := d.main_step app port
  generalize d.work app port = t at step ⊢
  generalize d.emitted port = puts at step
  cases step with
  | sdoSend | sdoHandle =>
      obtain ⟨attr, accepted, rejected⟩ := d.sdo.main_arrivals port
      exact ⟨attr, accepted, rejected, rfl⟩
  | onRun =>
      obtain ⟨attr, accepted, rejected⟩ := (d.sdo.apply app.onRun).main_arrivals port
      exact ⟨attr, accepted, rejected, rfl⟩
  | _ => exact ⟨rfl, rfl, rfl, rfl⟩

/-- What the bus brings for the service, and whether its slot is free then. -/
def offered (attr : α) (d : Device α φ E) : DeviceEvent α → List (CanPayload × Bool)
  | .interrupt a frame => if a = attr then [(frame.payload, !d.sdo.sdo.rsdo.isUnhandled)] else []
  | _ => []

/-- The service takes what finds the slot free and refuses the rest. -/
structure Arrived (attr : α) (arrivals : List (CanPayload × Bool)) (d : Device α φ E) : Prop where
  built : d.attrMap ≠ []
  routed : d.receiver attr = some .sdoService
  mine : d.sdo.sdo.rsdo.attr = attr
  accepted : d.sdo.accepted = (arrivals.filter (·.2)).map (·.1)
  rejected : d.sdo.rejected = (arrivals.filter (!·.2)).map (·.1)

theorem Arrived.step {attr : α} {arrivals : List (CanPayload × Bool)} {d : Device α φ E}
    (inv : Arrived attr arrivals d) (e : DeviceEvent α) :
    Arrived attr (arrivals ++ offered attr d e) (d.step app port e) := by
  obtain ⟨map, _⟩ := map_kept app port inv.built e
  have built : (d.step app port e).attrMap ≠ [] := by rw [map]; exact inv.built
  have routed := (receiver_congr map attr).trans inv.routed
  cases e with
  | interrupt a frame =>
      have service : (d.step app port (.interrupt a frame)).sdo = (d.deliver a frame).sdo := rfl
      by_cases same : a = attr
      · have taken : (d.deliver a frame).sdo = d.sdo.onFrameReceived a frame := by
          unfold Device.deliver
          rw [same, inv.routed]
        have offered : d.offered attr (.interrupt a frame) =
            [(frame.payload, !d.sdo.sdo.rsdo.isUnhandled)] := if_pos same
        obtain ⟨mine, accepted, rejected⟩ := d.sdo.recv_arrivals (same.trans inv.mine.symm) frame
        rw [← taken, ← service] at mine accepted rejected
        refine ⟨built, routed, mine.trans inv.mine, ?_, ?_⟩
        · rw [accepted, inv.accepted, offered]
          cases d.sdo.sdo.rsdo.isUnhandled <;> simp
        · rw [rejected, inv.rejected, offered]
          cases d.sdo.sdo.rsdo.isUnhandled <;> simp
      · have left : (d.deliver a frame).sdo = d.sdo := by
          have foreign : a ∉ d.sdo.sdo.getRxAttr := by
            rw [SdoService.getRxAttr, inv.mine, List.mem_singleton]
            exact same
          have step := d.interrupt_step a frame
          generalize d.deliver a frame = t at step
          cases step with
          | sdo => exact if_neg foreign
          | _ => rfl
        have nothing : d.offered attr (.interrupt a frame) = [] := if_neg same
        rw [nothing, List.append_nil]
        exact ⟨built, routed, by rw [service, left, inv.mine], by rw [service, left, inv.accepted],
          by rw [service, left, inv.rejected]⟩
  | main =>
      obtain ⟨mine, accepted, rejected, _⟩ := d.work_arrivals app port
      have silent : d.offered attr .main = [] := rfl
      rw [silent, List.append_nil]
      exact ⟨built, routed, mine.trans inv.mine, accepted.trans inv.accepted,
        rejected.trans inv.rejected⟩
  | _ =>
      simp only [offered, List.append_nil]
      exact ⟨built, routed, inv.mine, inv.accepted, inv.rejected⟩

/-! ## Routing -/

/-- The receiver has the attribute. -/
def Holds (d : Device α φ E) (attr : α) : FrameReceiver → Prop
  | .rpdoService => ∃ i, (d.rpdo.table i).attr = attr
  | .sdoService => d.sdo.sdo.rsdo.attr = attr
  | .node k => ∃ node, d.nodeRx k = some node ∧ ∃ i, (node.2.table i).attr = attr

/-- Whoever has an attribute keeps it. -/
theorem holds_step {d : Device α φ E} {attr : α} {owner : FrameReceiver}
    (holds : d.Holds attr owner) (e : DeviceEvent α) : (d.step app port e).Holds attr owner := by
  cases owner with
  | rpdoService =>
      obtain ⟨i, same⟩ := holds
      refine ⟨i, ?_⟩
      rw [rpdo_follows app port, attr_run]
      exact same
  | node k =>
      obtain ⟨⟨n, rx⟩, here, i, same⟩ := holds
      refine ⟨⟨n, Run.run (Reception.State.step recvOverwrite) rx
        (d.sees (.node k) (.nodeHandle k) e)⟩, ?_, i, (attr_run ..).trans same⟩
      rw [node_follows app port, here, Setup.nodeRx_run]
  | sdoService =>
      cases e with
      | interrupt a frame =>
          change (d.deliver a frame).sdo.sdo.rsdo.attr = attr
          have step := d.interrupt_step a frame
          generalize d.deliver a frame = t at step ⊢
          cases step with
          | sdo => exact (d.sdo.recv_attr a frame).trans holds
          | _ => exact holds
      | main => exact (d.work_arrivals app port).1.trans holds
      | _ => exact holds

/-- A slot with the attribute takes the frame. -/
theorem recvOverwrite_success {t : Table n α φ} {attr : α} (has : ∃ i, (t i).attr = attr)
    (frame : CanFrame) (now : Int) :
    frameRecvStatus (recvOverwrite t attr frame now).1 = .success := by
  obtain ⟨i, same⟩ := has
  unfold recvOverwrite
  cases found : slotOf t attr with
  | none =>
      have absent := List.find?_eq_none.mp found i (List.mem_finRange i)
      exact absurd (decide_eq_true same) absent
  | some i => rfl

/-! ## The counter -/

/-- Frames for a node that is disabled. -/
def deaf (d : Device α φ E) : DeviceEvent α → List CanFrame
  | .interrupt attr frame =>
      match d.receiver attr with
      | some owner => if d.listens owner then [] else [frame]
      | none => []
  | _ => []

/-- Every entry leads to a receiver that has the attribute, and the counter has counted
    the requests that found the slot occupied and the frames for disabled nodes. -/
structure Counted (missed : List CanFrame) (d : Device α φ E) : Prop where
  built : d.attrMap ≠ []
  held : ∀ attr owner, d.receiver attr = some owner → d.Holds attr owner
  count : d.errcount = BitVec.ofNat 64 (d.sdo.rejected.length + missed.length)

/-- What the interrupt counts. -/
theorem interrupt_counts {d : Device α φ E} {missed : List CanFrame} (counted : Counted missed d)
    (attr : α) (frame : CanFrame) :
    (d.onFrameReceived attr frame).errcount =
      BitVec.ofNat 64 ((d.onFrameReceived attr frame).sdo.rejected.length +
        (missed ++ d.deaf (.interrupt attr frame)).length) := by
  have step := d.interrupt_step attr frame
  unfold onFrameReceived
  dsimp only
  generalize d.deliver attr frame = t at step ⊢
  unfold status deaf
  have one : ∀ k : Nat, BitVec.ofNat 64 k + 1 = BitVec.ofNat 64 (k + 1) :=
    fun k => (BitVec.ofNat_add ..).symm
  cases step with
  | nowhere owner => simpa [owner] using counted.count
  | rpdo owner =>
      have taken := recvOverwrite_success (counted.held _ _ owner) frame d.rpdo.now
      simpa [owner, listens, RpdoService.recvFrame, taken] using counted.count
  | sdo owner =>
      obtain ⟨status, kept⟩ | ⟨status, kept⟩ :=
        d.sdo.recv_rejected (counted.held _ _ owner) frame
      · simpa [owner, listens, status, kept] using counted.count
      · simp only [owner, listens, status, kept, counted.count, one, if_true, List.append_nil,
          List.length_append, List.length_singleton]
        congr 1
        omega
  | node k owner =>
      obtain ⟨⟨n, rx⟩, here, has⟩ := counted.held _ _ owner
      obtain ⟨node, there, same⟩ := Option.map_eq_some_iff.mp here
      cases same
      cases enabled : node.enabled with
      | true =>
          have taken := recvOverwrite_success has frame node.rx.now
          simpa [owner, listens, there, enabled, Node.recvFrame, taken] using counted.count
      | false =>
          simp only [owner, listens, there, enabled, Node.recvFrame, frameRecvStatus,
            counted.count, one, Option.map_some, Option.any_some, Bool.not_false, if_true,
            Bool.false_eq_true, if_false, List.length_append, List.length_singleton]
          congr 1

theorem Counted.step {d : Device α φ E} {missed : List CanFrame} (counted : Counted missed d)
    (e : DeviceEvent α) : Counted (missed ++ d.deaf e) (d.step app port e) := by
  obtain ⟨map, _⟩ := map_kept app port counted.built e
  refine ⟨by rw [map]; exact counted.built, fun attr owner routed => ?_, ?_⟩
  · rw [receiver_congr map] at routed
    exact holds_step app port (counted.held attr owner routed) e
  · cases e with
    | interrupt attr frame => exact interrupt_counts counted attr frame
    | main =>
        have none : d.deaf .main = [] := rfl
        rw [none, List.append_nil]
        change (d.work app port).errcount =
          BitVec.ofNat 64 ((d.work app port).sdo.rejected.length + missed.length)
        obtain ⟨_, _, rejected, errcount⟩ := d.work_arrivals app port
        rw [rejected, errcount]
        exact counted.count
    | advance | start | stop | enable | disable =>
        simp only [deaf, List.append_nil]
        exact counted.count

end Device

namespace Setup

theorem device_sdo_routed (setup : Setup α φ E) :
    setup.device.receiver setup.sdoAttr = some .sdoService := by
  rw [device_receiver]
  exact setup.asF4.receiver_eq setup.asF4.server_sdo

theorem arrived_run (setup : Setup α φ E) (schedule : List (DeviceEvent α)) :
    (setup.run app port schedule).Arrived setup.sdoAttr
      (Run.trace (Device.step app port) (Device.offered setup.sdoAttr) setup.device schedule) := by
  have start : setup.device.Arrived setup.sdoAttr [] :=
    ⟨setup.device_map_ne_nil, setup.device_sdo_routed, rfl, rfl, rfl⟩
  exact Run.traced_invariant (Device.Arrived setup.sdoAttr) start
    (fun _ _ e inv => inv.step app port e) schedule

end Setup

end Ucanopen.H7
