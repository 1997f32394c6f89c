import Ucanopen.F4.DeviceAnswers
import Ucanopen.F4.SdoLosses

/-! # How many requests a client may have outstanding

A client that counts its requests and the responses on the bus can keep a window: it
sends a request only while fewer than `w` are unanswered. Both queues of the SDO service
hold sixteen entries, so with a window of sixteen nothing is lost, whatever else the
device does; with a larger one something can be.
-/

namespace Ucanopen.F4

open Run

variable {α φ E : Type} {port : Port 8 E}

namespace State

/-- Requests that arrived, and have no response on the bus. -/
def Within (w : Nat) (s : State α E) : Prop := s.arrivals.length < s.putFrames.length + w

theorem Interleaved.outstanding {m : Machine E} {work : List (Work E)} {s : State α E}
    (inv : Interleaved port m work s) :
    s.sdo.rsdoQueue.items.length + s.sdo.tsdoQueue.items.length + s.putFrames.length ≤
      s.arrivals.length := by
  have order := congrArg List.length inv.order
  have delivered := congrArg List.length inv.delivered
  have answered : ((s.served.filter (!·.queueFull)).filterMap (·.response)).length ≤
      s.served.length := (List.length_filterMap_le ..).trans (List.length_filter_le ..)
  have accepted : s.accepted.length ≤ s.arrivals.length := by
    rw [State.accepted, List.length_map]
    exact List.length_filter_le ..
  simp only [State.delivered, State.popped, List.length_append, List.length_map] at order delivered
  omega

/-- Nothing was lost, and the window was kept. -/
structure Lossless (w : Nat) (s : State α E) : Prop where
  window : s.arrivals.length ≤ s.putFrames.length + w
  rejected : s.rejected = []
  kept : ∀ r ∈ s.served, r.queueFull = false

namespace Lossless

variable {w : Nat} {m : Machine E} {work : List (Work E)} {s : State α E}

theorem recv [DecidableEq α] (inv : Lossless w s) (small : w ≤ 16)
    (served : Interleaved port m work s) {attr : α} (frame : CanFrame)
    (allowed : attr = s.sdo.rsdoRxattr → s.Within w) : Lossless w (s.recv attr frame) := by
  by_cases same : attr = s.sdo.rsdoRxattr
  · have within := allowed same
    have outstanding := served.outstanding
    unfold Within at within
    have step := s.recv_step attr frame
    generalize s.recv attr frame = t at step
    cases step with
    | mismatch => exact inv
    | overrun full =>
        rw [BoundedQueue.full_iff] at full
        omega
    | pushed room =>
        refine ⟨?_, ?_, inv.kept⟩
        · simp only [List.length_append, List.length_singleton]
          omega
        · simpa [State.rejected] using inv.rejected
  · have mismatch : s.recv attr frame = s := by
      unfold State.recv SdoService.recv
      rw [if_pos same]
    rwa [mismatch]

theorem main (inv : Lossless w s) (small : w ≤ 16) (served : Interleaved port m work s) :
    Lossless w (s.main port) := by
  have step := s.main_step port
  generalize s.main port = t at step
  cases step with
  | send payload =>
      refine ⟨?_, inv.rejected, inv.kept⟩
      have window := inv.window
      simp only [sendIteration, List.length_append, List.length_singleton]
      omega
  | handle request at_stage front =>
      refine ⟨inv.window, inv.rejected, ?_⟩
      -- The request leaves its queue, so the other one has room for the response.
      have room : s.sdo.tsdoQueue.full = false := by
        apply Bool.eq_false_iff.mpr
        intro full
        rw [BoundedQueue.full_iff] at full
        have waiting := congrArg List.length (s.sdo.rsdoQueue.items_of_front front)
        have window := inv.window
        have outstanding := served.outstanding
        rw [List.length_cons] at waiting
        omega
      intro r member
      obtain old | new := List.mem_append.mp member
      · exact inv.kept r old
      · rw [List.mem_singleton.mp new]
        exact room
  | _ => exact ⟨inv.window, inv.rejected, inv.kept⟩

/-- None of the requests served found the queue of responses full. -/
theorem none_full (inv : Lossless w s) {records : List Served} (among : records ⊆ s.served) :
    records.filter (!·.queueFull) = records := by
  apply List.filter_eq_self.mpr
  intro r member
  rw [inv.kept r (among member)]
  rfl

theorem noSilentLoss (inv : Lossless w s) (served : Interleaved port m work s) :
    s.NoSilentLoss := by
  have delivered := served.delivered
  rw [inv.none_full (List.Subset.refl _)] at delivered
  exact delivered

end Lossless

end State

namespace Device

/-- A client with window `w` brings a request only within it. An abort frame, which gets
    no response, keeps its place in the window. -/
def Windowed [DecidableEq α] (w : Nat) (d : Device α φ E) : DeviceEvent α → Prop
  | .interrupt attr _ => attr = d.sdo.sdo.rsdoRxattr → d.sdo.Within w
  | _ => True

/-- What an event does to the SDO service. -/
inductive SdoStep [DecidableEq α] (port : Port 8 E) (d : Device α φ E) (e : DeviceEvent α) :
    State α E → Prop
  | none : SdoStep port d e d.sdo
  | recv (attr : α) (frame : CanFrame) (is : e = .interrupt attr frame) :
      SdoStep port d e (d.sdo.recv attr frame)
  | main : SdoStep port d e (d.sdo.main port)
  | apply (f : Machine E → Machine E) : SdoStep port d e (d.sdo.apply f)

theorem sdo_step [DecidableEq α] (app : Application φ E) (port : Port 8 E) (d : Device α φ E)
    (e : DeviceEvent α) : SdoStep port d e (d.step app port e).sdo := by
  cases e with
  | interrupt attr frame =>
      change SdoStep port d _ (d.onFrameReceived attr frame).sdo
      have step := d.interrupt_step attr frame
      generalize d.onFrameReceived attr frame = t at step ⊢
      cases step with
      | sdo => exact .recv attr frame rfl
      | _ => exact .none
  | main =>
      change SdoStep port d _ (d.work app port).sdo
      have step := d.main_step app port
      generalize d.work app port = t at step ⊢
      generalize d.emitted port = puts at step
      cases step with
      | sdoSend | sdoHandle | passed => exact .main
      | tpdo => exact .apply fun m => (TpdoService.send d.tpdoService d.now m).2.2
      | @nodeSend k node => exact .apply fun m => (Node.send node.txMessages d.now m).2.2
      | rpdoHandle | inspect | nodeHandle | nodeInspect => exact .apply _
      | _ => exact .none
  | _ => exact .none

theorem interleaved_step [DecidableEq α] {app : Application φ E} {d : Device α φ E}
    {m : Machine E} (served : ∃ work, State.Interleaved port m work d.sdo) (e : DeviceEvent α) :
    ∃ work, State.Interleaved port m work (d.step app port e).sdo := by
  rw [sdo_follows app port d e]
  exact Run.invariant (fun s => ∃ work, State.Interleaved port m work s) served
    (fun s e ⟨work, inv⟩ => ⟨_, inv.step e⟩) _

theorem lossless_step [DecidableEq α] {app : Application φ E} {w : Nat} (small : w ≤ 16)
    {d : Device α φ E} {m : Machine E} {work : List (Work E)} {e : DeviceEvent α}
    (served : State.Interleaved port m work d.sdo) (inv : d.sdo.Lossless w)
    (allowed : d.Windowed w e) : (d.step app port e).sdo.Lossless w := by
  have step := d.sdo_step app port e
  generalize (d.step app port e).sdo = t at step
  cases step with
  | none => exact inv
  | recv attr frame is =>
      subst is
      exact inv.recv small served frame allowed
  | main => exact inv.main small served
  | apply f => exact ⟨inv.window, inv.rejected, inv.kept⟩

end Device

namespace Setup

variable [DecidableEq α]

theorem lossless_run (setup : Setup α φ E) (app : Application φ E) (port : Port 8 E) {w : Nat}
    (small : w ≤ 16) {schedule : List (DeviceEvent α)}
    (windowed : StepsMeet (Device.step app port) (Device.Windowed w) setup.device schedule) :
    (setup.run app port schedule).sdo.Lossless w ∧
      ∃ work, State.Interleaved port setup.machine work (setup.run app port schedule).sdo := by
  have start : setup.device.sdo.Lossless w ∧
      ∃ work, State.Interleaved port setup.machine work setup.device.sdo :=
    ⟨⟨Nat.zero_le _, rfl, nofun⟩, [], .init port setup.rsdoRxattr setup.nodeId setup.machine⟩
  refine Run.invariant_of_steps (fun d : Device α φ E =>
    d.sdo.Lossless w ∧ ∃ work, State.Interleaved port setup.machine work d.sdo)
    start ?_ schedule windowed
  rintro d e allowed ⟨inv, work, served⟩
  exact ⟨Device.lossless_step small served inv allowed, Device.interleaved_step ⟨work, served⟩ e⟩

/-- After requests that all arrived before the main loop ran. -/
structure Flooded (attr : α) (count : Nat) (d : Device α φ E) : Prop where
  routed : d.server.receiver d.sdo.sdo.rsdoRxattr = some .sdoService
  rxattr : d.sdo.sdo.rsdoRxattr = attr
  arrivals : d.sdo.arrivals.length = count
  silent : d.sdo.putFrames = []
  idle : d.sdo.served = []

theorem Flooded.next {app : Application φ E} {attr : α} {count : Nat} {d : Device α φ E}
    (flooded : Flooded attr count d) (frame : CanFrame) :
    Flooded attr (count + 1) (d.step app port (.interrupt attr frame)) := by
  obtain ⟨arrivals, rxattr⟩ :=
    Device.arrivals_step app port flooded.routed (.interrupt attr frame)
  have brought : d.step app port (.interrupt attr frame) =
      { d with sdo := d.sdo.recv attr frame } := by
    have routed := flooded.routed
    rw [flooded.rxattr] at routed
    change d.onFrameReceived attr frame = _
    unfold Device.onFrameReceived
    rw [routed]
  have length := congrArg List.length arrivals
  rw [List.length_map, List.length_append, List.length_map, flooded.arrivals,
    flooded.rxattr] at length
  rw [brought] at length rxattr ⊢
  refine ⟨?_, rxattr.trans flooded.rxattr, ?_, ?_, ?_⟩
  · rw [rxattr]
    exact flooded.routed
  · simpa [Device.wire] using length
  · exact (d.sdo.recv_kept attr frame).2.1.trans flooded.silent
  · have step := d.sdo.recv_step attr frame
    change (d.sdo.recv attr frame).served = []
    generalize d.sdo.recv attr frame = t at step
    cases step with
    | _ => exact flooded.idle

theorem flood (app : Application φ E) (port : Port 8 E) {attr : α} (w more : Nat) {count : Nat} {d : Device α φ E}
    (flooded : Flooded attr count d) (within : count + more ≤ w) :
    StepsMeet (Device.step app port) (Device.Windowed w) d
        (List.replicate more (.interrupt attr ⟨0, 8, 0⟩)) ∧
      Flooded attr (count + more)
        (Run.run (Device.step app port) d (List.replicate more (.interrupt attr ⟨0, 8, 0⟩))) := by
  induction more generalizing count d with
  | zero => exact ⟨trivial, flooded⟩
  | succ more ih =>
      obtain ⟨meets, last⟩ := ih (flooded.next ⟨0, 8, 0⟩) (by omega)
      refine ⟨⟨fun _ => ?_, meets⟩, ?_⟩
      · unfold State.Within
        rw [flooded.arrivals, flooded.silent, List.length_nil]
        omega
      · rw [show count + (more + 1) = count + 1 + more by omega]
        exact last

/-- Sixteen is the largest window with which no client can lose a request or a response,
    whatever the rest of the device does. -/
theorem window_lossless_iff (setup : Setup α φ E) (app : Application φ E) (port : Port 8 E)
    (w : Nat) :
    (∀ schedule, StepsMeet (Device.step app port) (Device.Windowed w) setup.device schedule →
      (setup.run app port schedule).sdo.rejected = [] ∧
        (setup.run app port schedule).sdo.NoSilentLoss) ↔ w ≤ 16 := by
  constructor
  · intro lossless
    by_contra large
    -- Seventeen requests in a row do not fit the queue.
    have start : Flooded setup.rsdoRxattr 0 setup.device := by
      have routed := setup.sdo_routed
      exact ⟨routed, rfl, rfl, rfl, rfl⟩
    obtain ⟨meets, flooded⟩ := flood app port w 17 start (by omega)
    have kept := (lossless _ meets).1
    have order := congrArg List.length (setup.interleaved_run app port
      (List.replicate 17 (.interrupt setup.rsdoRxattr ⟨0, 8, 0⟩))).order
    change Flooded _ _ (setup.run app port _) at flooded
    generalize setup.run app port _ = d at kept order flooded
    have bounded := d.sdo.sdo.rsdoQueue.bounded
    have all : d.sdo.arrivals.length = d.sdo.accepted.length + d.sdo.rejected.length := by
      simp only [State.accepted, State.rejected, List.length_map]
      exact List.length_eq_length_filter_add _
    rw [List.length_append, State.popped, flooded.idle, List.map_nil, List.length_nil] at order
    rw [kept, flooded.arrivals, List.length_nil] at all
    omega
  · intro small schedule windowed
    obtain ⟨inv, work, served⟩ := setup.lossless_run app port small windowed
    exact ⟨inv.rejected, inv.noSilentLoss served⟩

end Setup

end Ucanopen.F4
