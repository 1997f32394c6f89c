import Ucanopen.F4.DeviceProgress

/-! # What a pass gets done

A request that the SDO service has accepted is executed before the main loop next
leaves the handling phase, and its response is on the bus when it leaves the sending
phase after that. A frame that a receiver has stored is handled by the next run of the
receiver's loop that starts after it.
-/

namespace Ucanopen.F4

open Run

variable {n : Nat} {α φ E : Type} {app : Application φ E} {port : Port 8 E}

/-! ## Records grow -/

/-- What is on record in `s` stays on record. -/
structure State.Grows (s t : State α E) : Prop where
  accepted : s.accepted <+: t.accepted
  served : s.served <+: t.served
  putFrames : s.putFrames <+: t.putFrames

namespace State.Grows

theorem refl (s : State α E) : Grows s s :=
  ⟨List.prefix_rfl, List.prefix_rfl, List.prefix_rfl⟩

theorem trans {s t u : State α E} (first : Grows s t) (second : Grows t u) : Grows s u :=
  ⟨first.accepted.trans second.accepted, first.served.trans second.served,
    first.putFrames.trans second.putFrames⟩

theorem main (port : Port 8 E) (s : State α E) : Grows s (s.main port) := by
  have step := s.main_step port
  generalize s.main port = t at step
  cases step with
  | send payload => exact ⟨List.prefix_rfl, List.prefix_rfl, List.prefix_append ..⟩
  | handle request => exact ⟨List.prefix_rfl, List.prefix_append .., List.prefix_rfl⟩
  | _ => exact ⟨List.prefix_rfl, List.prefix_rfl, List.prefix_rfl⟩

theorem recv [DecidableEq α] (s : State α E) (attr : α) (frame : CanFrame) :
    Grows s (s.recv attr frame) := by
  have step := s.recv_step attr frame
  generalize s.recv attr frame = t at step
  cases step with
  | mismatch => exact refl s
  | overrun => exact ⟨by simp [State.accepted], List.prefix_rfl, List.prefix_rfl⟩
  | pushed => exact ⟨by simp [State.accepted], List.prefix_rfl, List.prefix_rfl⟩

theorem run [DecidableEq α] (port : Port 8 E) (s : State α E) (events : List (SdoEvent α E)) :
    Grows s (Run.run (stepWith port) s events) :=
  Run.invariant (Grows s) (refl s)
    (fun t e grown => grown.trans (by
      cases e with
      | base e =>
          cases e with
          | recv attr frame => exact recv t attr frame
          | main => exact main port t
      | apply f => exact ⟨List.prefix_rfl, List.prefix_rfl, List.prefix_rfl⟩))
    events

end State.Grows

namespace Device

theorem grows_step [DecidableEq α] (app : Application φ E) (port : Port 8 E) (d : Device α φ E)
    (e : DeviceEvent α) :
    d.sdo.Grows (d.step app port e).sdo := by
  rw [sdo_follows app port d e]
  exact State.Grows.run port d.sdo _

/-- The handling phase is left with no request waiting. -/
theorem handled_all [DecidableEq α] {d : Device α φ E} (synced : Synced d)
    (alive : d.sdo.core.fault = none) (at_phase : d.phase = .sdoHandle)
    (left : (d.step app port .main).phase.place = Phase.sdoHandle.place + 1) :
    (d.step app port .main).sdo.sdo.rsdoQueue.items = [] := by
  change (d.work app port).phase.place = _ at left
  change (d.work app port).sdo.sdo.rsdoQueue.items = []
  simp only [work, alive, at_phase] at left ⊢
  simp only [Synced, at_phase] at synced
  unfold State.main at left ⊢
  rw [alive] at left ⊢
  obtain before | handling := synced
  · simp [before, Phase.place] at left
  · rw [handling] at left ⊢
    cases front : d.sdo.sdo.rsdoQueue.front? with
    | none => exact d.sdo.sdo.rsdoQueue.items_of_no_front front
    | some request =>
        have still : (d.sdo.handleIteration port request).stage = .handle := handling
        simp [front, still, Phase.place] at left

/-- The sending phase is left with no response waiting. -/
theorem sent_all {d : Device α φ E} (synced : Synced d)
    (left : d.phase.place = Phase.sdoSend.place + 1) : d.sdo.stage = .beforeHandle := by
  have at_phase : d.phase = .rpdoHandle := Phase.place_injective left
  rw [Synced, at_phase] at synced
  exact synced

theorem turns_apart (d : Device α φ E) (p q : Phase) : d.turns p ≤ d.turns q + 1 := by
  unfold turns
  split <;> split <;> omega

/-- What the device owes to the requests it had accepted before. -/
structure Settled (before t : Device α φ E) : Prop where
  served : before.turns .sdoHandle < t.turns .sdoHandle →
    before.sdo.accepted.length ≤ t.sdo.served.length
  put : before.turns .sdoHandle + 2 ≤ t.turns .sdoSend →
    ((t.sdo.served.take before.sdo.accepted.length).filter (!·.queueFull)).filterMap
        (·.response) <+: t.sdo.putFrames.map (·.payload)

theorem Settled.step [DecidableEq α] {b d : Device α φ E} {m : Machine E} {work : List (Work E)}
    (settled : Settled b d) (grown : b.sdo.Grows d.sdo) (synced : Synced d)
    (inside : d.phase.place ≤ d.last) (e : DeviceEvent α)
    (answers : State.Interleaved port m work (d.step app port e).sdo) :
    Settled b (d.step app port e) := by
  have handles : Phase.sdoHandle.place < d.last := by
    simp only [Phase.place, last]
    omega
  have sends : Phase.sdoSend.place < d.last := by
    simp only [Phase.place, last]
    omega
  have step := d.grows_step app port e
  have served : b.turns .sdoHandle < (d.step app port e).turns .sdoHandle →
      b.sdo.accepted.length ≤ (d.step app port e).sdo.served.length := by
    intro passed
    obtain ⟨rfl, alive, at_phase, left, _⟩ | ⟨_, same⟩ :=
      turns_step app port inside handles e
    · have order := answers.order
      rw [handled_all synced alive at_phase left, List.append_nil] at order
      calc b.sdo.accepted.length
          ≤ (d.step app port .main).sdo.accepted.length :=
            (grown.trans step).accepted.length_le
        _ = (d.step app port .main).sdo.served.length := by
            rw [← order]
            exact List.length_map _
    · rw [same] at passed
      exact (settled.served passed).trans step.served.length_le
  refine ⟨served, fun passed => ?_⟩
  have apart := (d.step app port e).turns_apart .sdoSend .sdoHandle
  obtain ⟨rfl, alive, at_phase, left, _⟩ | ⟨_, same⟩ :=
    turns_step app port inside sends e
  · have drained := answers.drained (sent_all (synced.step app port _) left)
    have delivered := answers.delivered
    rw [State.delivered, drained, List.append_nil] at delivered
    rw [delivered]
    exact ((List.take_prefix ..).filter _).filterMap _
  · rw [same] at passed
    have apart := d.turns_apart .sdoSend .sdoHandle
    have before := settled.served (by omega)
    obtain ⟨more, grew⟩ := step.served
    rw [← grew, List.take_append_of_le_length before]
    exact (settled.put passed).trans (step.putFrames.map _)

end Device

namespace Setup

variable [DecidableEq α]

theorem grows_run (setup : Setup α φ E) (app : Application φ E) (port : Port 8 E)
    (before after : List (DeviceEvent α)) :
    (setup.run app port before).sdo.Grows (setup.run app port (before ++ after)).sdo := by
  unfold Setup.run
  rw [run_append]
  exact Run.invariant
    (fun d : Device α φ E => (setup.run app port before).sdo.Grows d.sdo) (State.Grows.refl _)
    (fun d e grown => grown.trans (d.grows_step app port e)) after

theorem settled_run (setup : Setup α φ E) (app : Application φ E) (port : Port 8 E)
    (before after : List (DeviceEvent α)) :
    Device.Settled (setup.run app port before) (setup.run app port (before ++ after)) := by
  induction after using List.reverseRecOn with
  | nil =>
      rw [List.append_nil]
      refine ⟨fun wrong => absurd wrong (lt_irrefl _), fun wrong => ?_⟩
      have apart := (setup.run app port before).turns_apart .sdoSend .sdoHandle
      omega
  | append_singleton es e ih =>
      have next : setup.run app port (before ++ (es ++ [e])) =
          (setup.run app port (before ++ es)).step app port e := by
        rw [← List.append_assoc]
        exact run_append ..
      have answers := setup.interleaved_run app port (before ++ (es ++ [e]))
      rw [next] at answers ⊢
      exact ih.step (setup.grows_run app port before es)
        (setup.heard_run app port (before ++ es)).synced
        (setup.inside_run app port (before ++ es)).1 e answers

/-- What was accepted before has been executed, in order. -/
theorem executed_in_time (setup : Setup α φ E) (app : Application φ E) (port : Port 8 E)
    (before after : List (DeviceEvent α))
    (passed : (setup.run app port before).turns .sdoHandle + 2 ≤
      (setup.run app port (before ++ after)).turns .sdoSend) :
    ((setup.run app port (before ++ after)).sdo.served.take
        (setup.run app port before).sdo.accepted.length).map (·.request) =
      (setup.run app port before).sdo.accepted := by
  have settled := setup.settled_run app port before after
  have order := (setup.interleaved_run app port (before ++ after)).order
  have grown := setup.grows_run app port before after
  generalize setup.run app port before = d at settled grown passed ⊢
  generalize setup.run app port (before ++ after) = t at settled order grown passed ⊢
  have apart := t.turns_apart .sdoSend .sdoHandle
  have served : d.sdo.accepted.length ≤ t.sdo.popped.length := by
    rw [State.popped, List.length_map]
    exact settled.served (by omega)
  calc (t.sdo.served.take d.sdo.accepted.length).map (·.request)
      = t.sdo.popped.take d.sdo.accepted.length := List.map_take
    _ = (t.sdo.popped ++ t.sdo.sdo.rsdoQueue.items).take d.sdo.accepted.length :=
        (List.take_append_of_le_length served).symm
    _ = t.sdo.accepted.take d.sdo.accepted.length := congrArg (List.take _) order
    _ = d.sdo.accepted := (List.prefix_iff_eq_take.mp grown.accepted).symm

/-- Bounded response: when the main loop has next left the handling phase and then the
    sending phase, every request accepted before has been executed, and what it was
    answered is on the bus, but for answers that found their queue full. -/
theorem answered_in_time (setup : Setup α φ E) (app : Application φ E) (port : Port 8 E)
    (before after : List (DeviceEvent α)) :
    let d := setup.run app port before
    let t := setup.run app port (before ++ after)
    d.turns .sdoHandle + 2 ≤ t.turns .sdoSend →
      (t.sdo.served.take d.sdo.accepted.length).map (·.request) = d.sdo.accepted ∧
        ((t.sdo.served.take d.sdo.accepted.length).filter (!·.queueFull)).filterMap (·.response)
          <+: (t.bus.filter (·.source = .sdo)).map (·.frame.payload) := by
  intro d t passed
  have settled : Device.Settled d t := setup.settled_run app port before after
  have heard := (setup.heard_run app port (before ++ after)).sdo
  constructor
  · exact setup.executed_in_time app port before after passed
  · have payloads : (t.bus.filter (·.source = .sdo)).map (·.frame.payload) =
        t.sdo.putFrames.map (·.payload) := by
      rw [← heard, List.map_map]
      rfl
    rw [payloads]
    exact settled.put passed

theorem answered_in_time_sample :
    let d := sample.run .idle (F4.port F4.sample) (readingRun 0)
    let t := sample.run .idle (F4.port F4.sample) (readingRun 0 ++ List.replicate 40 .main)
    (t.sdo.served.take d.sdo.accepted.length).map (·.request) = d.sdo.accepted ∧
      ((t.sdo.served.take d.sdo.accepted.length).filter (!·.queueFull)).filterMap (·.response)
        <+: (t.bus.filter (·.source = .sdo)).map (·.frame.payload) :=
  answered_in_time sample .idle (F4.port F4.sample) (readingRun 0) (List.replicate 40 .main)
    (by decide +kernel)

end Setup

end Ucanopen.F4
