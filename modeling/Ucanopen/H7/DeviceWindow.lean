import Ucanopen.H7.DeviceAnswers
import Ucanopen.H7.DeviceClient
import Ucanopen.H7.SdoWindow
import Ucanopen.Sdo.Session

/-! # A client that waits for its response

The SDO service of the running device has one slot. A client that sends a request only when
every earlier one has its response finds the slot free, whatever the device has to do
besides; it hears one response for each request that expects one, in the order of its
requests and within three passes of the main loop.
-/

namespace Ucanopen.H7

open Run

variable {α φ E : Type}

namespace Device

/-- A client that waits brings a request only when none is without a response. An abort
    frame gets none, so no response tells the client that the slot is free again. -/
def Waits [DecidableEq α] (d : Device α φ E) : DeviceEvent α → Prop
  | .interrupt attr _ => attr = d.sdo.sdo.rsdo.attr →
      d.sdo.accepted.length + d.sdo.rejected.length ≤ d.sdo.putFrames.length
  | _ => True

instance [DecidableEq α] (d : Device α φ E) : (e : DeviceEvent α) → Decidable (d.Waits e)
  | .interrupt attr _ =>
      inferInstanceAs (Decidable (attr = d.sdo.sdo.rsdo.attr →
        d.sdo.accepted.length + d.sdo.rejected.length ≤ d.sdo.putFrames.length))
  | .main | .advance _ | .start | .stop | .enable _ | .disable _ => .isTrue trivial

/-- Then no request is refused. -/
theorem rejected_step [DecidableEq α] {app : Application φ E} {port : Port 16 E} {m : Machine E}
    {counts : List Nat} {d : Device α φ E} {e : DeviceEvent α}
    (running : Running port m counts d) (kept : d.sdo.rejected = []) (waits : d.Waits e) :
    (d.step app port e).sdo.rejected = [] := by
  obtain ⟨work, served⟩ := running.explained
  cases e with
  | interrupt attr frame =>
      change (d.deliver attr frame).sdo.rejected = []
      have step := d.interrupt_step attr frame
      generalize d.deliver attr frame = t at step ⊢
      cases step with
      | sdo =>
          apply State.recv_kept kept
          intro same
          have answered := waits same
          rw [kept] at answered
          exact State.slot_free served.order served.sent answered
      | _ => exact kept
  | main =>
      change (d.work app port).sdo.rejected = []
      rw [(d.work_arrivals app port).2.2.1]
      exact kept
  | _ => exact kept

/-- The requests that the bus brings with an attribute. -/
def brought [DecidableEq α] (attr : α) (schedule : List (DeviceEvent α)) : List CanPayload :=
  schedule.flatMap fun
    | .interrupt a frame => if a = attr then [frame.payload] else []
    | _ => []

theorem offered_brought [DecidableEq α] (app : Application φ E) (port : Port 16 E) (attr : α)
    (d : Device α φ E) (schedule : List (DeviceEvent α)) :
    (trace (Device.step app port) (offered attr) d schedule).map (·.1) = brought attr schedule := by
  induction schedule generalizing d with
  | nil => rfl
  | cons e es ih =>
      have here : (d.offered attr e).map (·.1) = brought attr [e] := by
        cases e with
        | interrupt a frame =>
            by_cases same : a = attr
            · simp [offered, brought, same]
            · simp [offered, brought, same]
        | _ => rfl
      have split : brought attr (e :: es) = brought attr [e] ++ brought attr es := by
        simp [brought]
      rw [trace, List.map_append, ih, here, split]

end Device

theorem port_keyed (binaryFind : List (ODEntry 16 E) → ODObjectKey 16 → Option (ODEntry 16 E))
    (spec : BinaryFindSpec binaryFind) (d : ObjectDictionary 16 E) :
    (port binaryFind spec d).Keyed := fun _ _ _ => ⟨rfl, rfl⟩

namespace State

variable {port : Port 16 E} {m : Machine E} {work : List (Work E)} {s : State α E}

/-- What the service has finished, it has answered as it should. -/
theorem Interleaved.exchanged (served : Interleaved port m work s) (keyed : port.Keyed)
    (alive : s.core.fault = none) : ∀ exchange ∈ s.handled, Exchanged exchange := by
  intro exchange member
  rw [served.core] at alive
  have exchanged := Work.exchanges_exchanged keyed work alive
  rw [served.answers] at exchanged
  exact exchanged exchange (List.mem_append_left _ member)

/-- What is on the bus belongs to the first of the requests. -/
theorem Interleaved.echo (served : Interleaved port m work s) (keyed : port.Keyed)
    (alive : s.core.fault = none) :
    List.Forall₂ Echoes ((s.accepted.filter expectsResponse).take s.putFrames.length)
      (s.putFrames.map (·.2)) := by
  have echo := responses_echo s.handled (served.exchanged keyed alive)
  change List.Forall₂ Echoes (s.requests.filter expectsResponse) s.responses at echo
  rw [← served.sent] at echo
  have heard := heard_echo (s.point.inProgress ++ s.waiting) echo
  rwa [← List.append_assoc, served.order, List.length_map] at heard

end State

namespace Setup

variable [DecidableEq α]

/-- The requests that expect a response, as the bus brings them. -/
def asked (setup : Setup α φ E) (schedule : List (DeviceEvent α)) : List CanPayload :=
  (Device.brought setup.sdoAttr schedule).filter expectsResponse

variable (app : Application φ E) (port : Port 16 E)

theorem rejected_run (setup : Setup α φ E) {schedule : List (DeviceEvent α)}
    (waits : StepsMeet (Device.step app port) Device.Waits setup.device schedule) :
    (setup.run app port schedule).sdo.rejected = [] := by
  have start : setup.device.sdo.rejected = [] ∧
      Device.Running port setup.machine setup.counts setup.device :=
    ⟨rfl, setup.running_run app port []⟩
  have kept := Run.invariant_of_steps (fun d : Device α φ E => d.sdo.rejected = [] ∧
    Device.Running port setup.machine setup.counts d) start
    (fun d e allowed inv => ⟨Device.rejected_step inv.2 inv.1 allowed, inv.2.step e⟩) schedule waits
  exact kept.1

theorem asked_accepted (setup : Setup α φ E) {schedule : List (DeviceEvent α)}
    (kept : (setup.run app port schedule).sdo.rejected = []) :
    (setup.run app port schedule).sdo.accepted.filter expectsResponse = setup.asked schedule := by
  have arrived := setup.arrived_run app port schedule
  have all := Server.taken_of_none_refused (arrived.rejected.symm.trans kept)
  rw [arrived.accepted, all, Device.offered_brought, asked]

/-- A client that waits for its responses gets them one by one: what it hears belongs to
    its requests in order, and what it asked is answered once the main loop has had the
    steps of three passes. -/
theorem waiting_answered (setup : Setup α φ E) (keyed : port.Keyed)
    (placed : F4.Placed setup.nodeId.id) (keeps : setup.KeepsTsdo)
    (before after : List (DeviceEvent α))
    (waits : StepsMeet (Device.step app port) Device.Waits setup.device (before ++ after))
    (alive : (setup.run app port (before ++ after)).sdo.core.fault = none) :
    List.Forall₂ Echoes
        ((setup.asked (before ++ after)).take (setup.heard app port (before ++ after)).length)
        (setup.heard app port (before ++ after)) ∧
      (Device.passBound setup.counts * 3 < after.countP DeviceEvent.isMain →
        (setup.asked before).length ≤ (setup.heard app port (before ++ after)).length) := by
  have served := setup.work_run app port (before ++ after)
  rw [setup.heard_payloads app port placed keeps, List.length_map,
    ← setup.asked_accepted app port (setup.rejected_run app port waits),
    ← setup.asked_accepted app port (setup.rejected_run app port waits.left)]
  refine ⟨served.echo keyed alive, fun enough => ?_⟩
  obtain ⟨executed, put⟩ := setup.settled_within app port before after alive enough
  have answered := responses_echo
    ((setup.run app port (before ++ after)).sdo.handled.take
      (setup.run app port before).sdo.accepted.length)
    fun exchange member => served.exchanged keyed alive exchange (List.mem_of_mem_take member)
  rw [executed] at answered
  calc ((setup.run app port before).sdo.accepted.filter expectsResponse).length
      = (((setup.run app port (before ++ after)).sdo.handled.take
          (setup.run app port before).sdo.accepted.length).filterMap (·.2)).length :=
        answered.length_eq
    _ ≤ ((setup.run app port (before ++ after)).sdo.putFrames.map (·.2)).length := put.length_le
    _ = (setup.run app port (before ++ after)).sdo.putFrames.length := List.length_map _

theorem waiting_answered_asked :
    List.Forall₂ Echoes
        ((sample.asked (askingRun 0 ++ List.replicate 256 .main)).take
          (sample.heard .idle emptyPort (askingRun 0 ++ List.replicate 256 .main)).length)
        (sample.heard .idle emptyPort (askingRun 0 ++ List.replicate 256 .main)) ∧
      (sample.asked (askingRun 0)).length ≤
        (sample.heard .idle emptyPort (askingRun 0 ++ List.replicate 256 .main)).length := by
  have keeps : sample.KeepsTsdo := by
    intro k r member
    rw [List.mem_singleton.mp member]
    decide
  have answered := waiting_answered .idle emptyPort sample (port_keyed _ _ _) (by decide) keeps
    (askingRun 0) (List.replicate 256 .main) (by decide +kernel) (by decide +kernel)
  exact ⟨answered.1, answered.2 (by decide +kernel)⟩

end Setup

end Ucanopen.H7
