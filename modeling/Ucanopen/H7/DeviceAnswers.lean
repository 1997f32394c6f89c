import Mathlib.Data.List.Infix
import Ucanopen.H7.DeviceProgress

/-! # Every request that is taken is answered in time

The SDO service goes through one cycle a pass: it sends, takes the request that waits,
executes it and is done. Counting these stages over the passes tells how far a request
must have come, whatever arrives behind it.
-/

namespace Ucanopen.H7

open Run

variable {α φ E : Type} {app : Application φ E} {port : Port 16 E}

/-! ## The stages of a cycle -/

/-- Sending, looking for a request, working on it, and done. -/
def Point.stage : Point → Nat
  | .beforeSend | .sendTest | .sendPut | .sendClear => 0
  | .afterSend | .handleTest | .handleCopy | .handleClear _ => 1
  | .handleAbort _ | .handleExecute _ | .handleStore _ _ | .handleFlag _ => 2
  | .afterHandle => 3

namespace State

/-- What a step can mean to the requests and to the responses. -/
inductive Turn (s t : State α E) : Prop
  | within (stage : t.point.stage = s.point.stage) (handled : t.handled = s.handled)
      (puts : s.putFrames <+: t.putFrames)
  | sent (before : s.point.stage = 0) (after : t.point.stage = 1) (handled : t.handled = s.handled)
      (puts : t.putFrames.map (·.2) = t.responses)
  | empty (before : s.point.stage = 1) (after : t.point.stage = 3) (handled : t.handled = s.handled)
      (puts : t.putFrames = s.putFrames) (all : t.accepted.length = t.handled.length)
  | took (before : s.point.stage = 1) (after : t.point.stage = 2) (handled : t.handled = s.handled)
      (puts : t.putFrames = s.putFrames) (all : t.accepted.length = t.handled.length + 1)
  | finished (before : s.point.stage = 2) (after : t.point.stage = 3)
      (exchange : CanPayload × Option CanPayload) (handled : t.handled = s.handled ++ [exchange])
      (puts : t.putFrames = s.putFrames)
  | wrapped (before : s.point.stage = 3) (after : t.point.stage = 0)
      (handled : t.handled = s.handled) (puts : t.putFrames = s.putFrames)

/-- The handling ends at its test only when the slot is free. -/
theorem looked (port : Port 16 E) (s : State α E) (alive : s.core.fault = none)
    (at_point : s.point = .handleTest) (ends : (s.main port).point = .afterHandle) :
    s.sdo.rsdo.isUnhandled = false := by
  unfold main at ends
  cases occupied : s.sdo.rsdo.isUnhandled with
  | true => simp [alive, at_point, occupied] at ends
  | false => rfl

theorem main_turn {m : Machine E} {work : List (Work E)} {s : State α E}
    (inv : Interleaved port m work s) : s.Turn (s.main port) := by
  cases alive : s.core.fault with
  | some f =>
      have stopped : s.main port = s := by
        unfold main
        rw [alive]
      rw [stopped]
      exact .within rfl rfl List.prefix_rfl
  | none =>
      have looked := s.looked port alive
      have step := s.main_step port alive
      have order := congrArg List.length inv.order
      have sent := inv.sent
      have flags := inv.flags
      simp only [List.length_append, requests, List.length_map] at order
      generalize s.main port = t at step looked
      cases step with
      | goto next leads =>
          simp only [unsent, pending] at sent
          generalize at_point : s.point = point at leads order sent
          cases leads with
          | beforeSend | sendPending | afterSend | handleWaiting | handleCopy | handleRequest =>
              exact .within (by rw [at_point]; rfl) rfl List.prefix_rfl
          | sendNothing notSent =>
              refine .sent (by rw [at_point]; rfl) rfl rfl ?_
              change _ = s.responses
              simpa [notSent] using sent
          | handleNothing =>
              refine .empty (by rw [at_point]; rfl) rfl rfl rfl ?_
              have free := looked at_point rfl
              simpa [waiting, free, Point.inProgress] using order.symm
          | afterHandle => exact .wrapped (by rw [at_point]; rfl) rfl rfl rfl
      | put at_point => exact .within (by rw [at_point]; rfl) rfl (List.prefix_append ..)
      | sent at_point =>
          refine .sent (by rw [at_point]; rfl) rfl rfl ?_
          change _ = s.responses
          simpa [unsent, at_point] using sent
      | taken request at_point =>
          rw [at_point] at flags order
          refine .took (by rw [at_point]; rfl) rfl rfl rfl ?_
          simpa [flags.2, Point.inProgress] using order.symm
      | abort request at_point => exact .finished (by rw [at_point]; rfl) rfl _ rfl rfl
      | fault request core at_point => exact .within rfl rfl List.prefix_rfl
      | execute request response core at_point | store request response at_point =>
          exact .within (by rw [at_point]; rfl) rfl List.prefix_rfl
      | flag request at_point => exact .finished (by rw [at_point]; rfl) rfl _ rfl rfl

end State

/-! ## In the device -/

namespace Device

/-- The stages the service has gone through, four in each pass. -/
def clock (d : Device α φ E) : Nat := 4 * d.passes + d.sdo.point.stage

/-- Nothing but the service's own steps moves it. -/
theorem turn_still {s t : State α E} (point : t.point = s.point) (handled : t.handled = s.handled)
    (puts : t.putFrames = s.putFrames) {p q : Nat} (passes : q = p) :
    s.Turn t ∧ q = p + if s.point.stage = 3 ∧ t.point.stage = 0 then 1 else 0 := by
  constructor
  · refine .within (by rw [point]) handled ?_
    rw [puts]
  · rw [point, if_neg (by omega)]
    exact passes

theorem sending_stage {p : Point} (sending : p.sending) : p.stage = 0 := by
  cases p <;> simp_all [Point.sending, Point.stage]

theorem handling_stage {p : Point} (handling : p.handling) : p.stage ≠ 3 := by
  cases p <;> simp_all [Point.handling, Point.stage]

/-- An event moves the service by a stage or two, and the end of a pass is passed when
    it starts over. -/
theorem sdo_turn [DecidableEq α] (app : Application φ E) {m : Machine E} {counts : List Nat}
    {d : Device α φ E} (running : Running port m counts d) (e : DeviceEvent α) :
    d.sdo.Turn (d.step app port e).sdo ∧
      (d.step app port e).passes =
        d.passes + if d.sdo.point.stage = 3 ∧ (d.step app port e).sdo.point.stage = 0 then 1
          else 0 := by
  obtain ⟨work, inv⟩ := running.explained
  have synced := running.synced
  cases e with
  | interrupt attr frame =>
      have same := stays app port d (e := .interrupt attr frame) nofun
      have kept : (d.deliver attr frame).sdo.handled = d.sdo.handled ∧
          (d.deliver attr frame).sdo.putFrames = d.sdo.putFrames := by
        have step := d.interrupt_step attr frame
        generalize d.deliver attr frame = t at step ⊢
        cases step with
        | sdo =>
            have step := d.sdo.recv_step attr frame
            generalize d.sdo.onFrameReceived attr frame = t at step
            cases step with
            | _ => exact ⟨rfl, rfl⟩
        | _ => exact ⟨rfl, rfl⟩
      exact turn_still same.point kept.1 kept.2 same.passes
  | main =>
      change d.sdo.Turn (d.work app port).sdo ∧ (d.work app port).passes =
        d.passes + if d.sdo.point.stage = 3 ∧ (d.work app port).sdo.point.stage = 0 then 1 else 0
      have turn := State.main_turn inv
      have step := d.main_step app port
      generalize d.work app port = t at step ⊢
      generalize d.emitted port = puts at step
      unfold Synced at synced
      cases step with
      | sdoSend alive at_phase =>
          rw [at_phase] at synced
          exact ⟨turn, by simp [sending_stage synced]⟩
      | sdoHandle alive at_phase =>
          rw [at_phase] at synced
          exact ⟨turn, by simp [handling_stage synced]⟩
      | onRun alive at_phase =>
          rw [at_phase] at synced
          have turn := State.main_turn (inv.step (.apply app.onRun))
          have next := State.idle_next port (s := d.sdo.apply app.onRun) alive synced
          have wrapped : ((d.sdo.apply app.onRun).main port).point.stage = 0 := by rw [next]; rfl
          have done : d.sdo.point.stage = 3 := by rw [synced]; rfl
          refine ⟨?_, by rw [if_pos ⟨done, wrapped⟩]⟩
          cases turn with
          | within stage handled puts => exact .within stage handled puts
          | wrapped before after handled puts => exact .wrapped before after handled puts
          | sent before | empty before | took before | finished before =>
              exact absurd (done.symm.trans before) nofun
      | _ => apply turn_still <;> rfl
  | _ => apply turn_still <;> rfl

theorem accepted_step [DecidableEq α] (app : Application φ E) (port : Port 16 E)
    (d : Device α φ E) (e : DeviceEvent α) :
    d.sdo.accepted <+: (d.step app port e).sdo.accepted := by
  cases e with
  | interrupt attr frame =>
      change _ <+: (d.deliver attr frame).sdo.accepted
      have step := d.interrupt_step attr frame
      generalize d.deliver attr frame = t at step ⊢
      cases step with
      | sdo =>
          have step := d.sdo.recv_step attr frame
          generalize d.sdo.onFrameReceived attr frame = t at step
          cases step with
          | success => exact List.prefix_append ..
          | _ => exact List.prefix_rfl
      | _ => exact List.prefix_rfl
  | main =>
      change _ <+: (d.work app port).sdo.accepted
      rw [(d.work_arrivals app port).2.1]
  | _ => exact List.prefix_rfl

/-- Cycles in which the request that waited has been taken. -/
def takings (d : Device α φ E) : Nat := (d.clock + 2) / 4

/-- Cycles in which it has been finished. -/
def handlings (d : Device α φ E) : Nat := (d.clock + 1) / 4

/-- Cycles in which the response has been sent. -/
def sendings (d : Device α φ E) : Nat := (d.clock + 3) / 4

/-- What the device owes to the requests that were accepted before. -/
structure Settled (b t : Device α φ E) : Prop where
  taken : b.takings < t.takings → t.sdo.point.stage = 2 →
    b.sdo.accepted.length ≤ t.sdo.handled.length + 1
  handled : b.takings < t.handlings → b.sdo.accepted.length ≤ t.sdo.handled.length
  put : b.takings + 2 ≤ t.sendings →
    (t.sdo.handled.take b.sdo.accepted.length).filterMap (·.2) <+: t.sdo.putFrames.map (·.2)

theorem Settled.step [DecidableEq α] {m : Machine E} {counts : List Nat} {b d : Device α φ E}
    (settled : Settled b d) (grown : b.sdo.accepted <+: d.sdo.accepted)
    (running : Running port m counts d) (e : DeviceEvent α) :
    Settled b (d.step app port e) := by
  obtain ⟨turn, passes⟩ := sdo_turn app running e
  have grown := (grown.trans (accepted_step app port d e)).length_le
  generalize d.step app port e = t at turn passes grown
  have clock : d.clock = 4 * d.passes + d.sdo.point.stage := rfl
  have clock' : t.clock = 4 * t.passes + t.sdo.point.stage := rfl
  obtain ⟨taken, handled, put⟩ := settled
  simp only [takings, handlings, sendings] at taken handled put
  cases turn with
  | within stage same puts =>
      rw [stage, if_neg (by omega)] at passes
      have still : t.clock = d.clock := by omega
      refine ⟨?_, ?_, fun passed => ?_⟩
      · simpa only [takings, still, stage, same] using taken
      · simpa only [takings, handlings, still, same] using handled
      · simp only [takings, sendings, still] at passed
        rw [same]
        exact (put passed).trans (puts.map _)
  | sent before after same puts =>
      rw [before, if_neg (by omega)] at passes
      refine ⟨fun _ wrong => absurd (after.symm.trans wrong) nofun, ?_, fun passed => ?_⟩
      · intro passed
        simp only [takings, handlings] at passed
        rw [same]
        exact handled (by omega)
      · rw [puts]
        exact (List.take_prefix ..).filterMap _
  | empty before after same puts all =>
      rw [before, if_neg (by omega)] at passes
      refine ⟨fun _ wrong => absurd (after.symm.trans wrong) nofun, fun _ => by omega, ?_⟩
      intro passed
      simp only [takings, sendings] at passed
      rw [same, puts]
      exact put (by omega)
  | took before after same puts all =>
      rw [before, if_neg (by omega)] at passes
      refine ⟨fun _ _ => by omega, fun passed => ?_, fun passed => ?_⟩
      · simp only [takings, handlings] at passed
        rw [same]
        exact handled (by omega)
      · simp only [takings, sendings] at passed
        rw [same, puts]
        exact put (by omega)
  | finished before after exchange more puts =>
      rw [before, if_neg (by omega)] at passes
      refine ⟨fun _ wrong => absurd (after.symm.trans wrong) nofun, fun passed => ?_,
        fun passed => ?_⟩
      · simp only [takings, handlings] at passed
        have waited := taken (by omega) before
        rw [more, List.length_append]
        exact waited
      · simp only [takings, sendings] at passed
        have enough := handled (by omega)
        rw [more, puts, List.take_append_of_le_length enough]
        exact put (by omega)
  | wrapped before after same puts =>
      rw [if_pos ⟨before, after⟩] at passes
      refine ⟨fun _ wrong => absurd (after.symm.trans wrong) nofun, fun passed => ?_,
        fun passed => ?_⟩
      · simp only [takings, handlings] at passed
        rw [same]
        exact handled (by omega)
      · simp only [takings, sendings] at passed
        rw [same, puts]
        exact put (by omega)

end Device

namespace Setup

variable [DecidableEq α] (app : Application φ E) (port : Port 16 E)

theorem settled_run (setup : Setup α φ E) (before after : List (DeviceEvent α)) :
    let d := setup.run app port before
    let t := setup.run app port (before ++ after)
    d.sdo.accepted <+: t.sdo.accepted ∧ Device.Settled d t := by
  induction after using List.reverseRecOn with
  | nil =>
      rw [List.append_nil]
      refine ⟨List.prefix_rfl, fun wrong => absurd wrong (lt_irrefl _), fun wrong => ?_,
        fun wrong => ?_⟩
      · simp only [Device.takings, Device.handlings] at wrong
        omega
      · simp only [Device.takings, Device.sendings] at wrong
        omega
  | append_singleton es e ih =>
      have next : setup.run app port (before ++ (es ++ [e])) =
          (setup.run app port (before ++ es)).step app port e := by
        rw [← List.append_assoc]
        exact run_append ..
      rw [next]
      obtain ⟨grown, settled⟩ := ih
      exact ⟨grown.trans (Device.accepted_step app port _ e),
        settled.step grown (setup.running_run app port (before ++ es)) e⟩

/-- What was accepted before is executed and answered in three passes. -/
theorem settled_within (setup : Setup α φ E) (before after : List (DeviceEvent α))
    (alive : (setup.run app port (before ++ after)).sdo.core.fault = none)
    (enough : Device.passBound setup.counts * 3 < after.countP DeviceEvent.isMain) :
    let d := setup.run app port before
    let t := setup.run app port (before ++ after)
    (t.sdo.handled.take d.sdo.accepted.length).map (·.1) = d.sdo.accepted ∧
      (t.sdo.handled.take d.sdo.accepted.length).filterMap (·.2) <+:
        t.sdo.putFrames.map (·.2) := by
  intro d t
  have later : d.passes + 3 ≤ t.passes := setup.passes_later app port before after alive enough
  obtain ⟨grown, settled⟩ : d.sdo.accepted <+: t.sdo.accepted ∧ Device.Settled d t :=
    setup.settled_run app port before after
  have order := (setup.work_run app port (before ++ after)).order
  have stage : d.sdo.point.stage ≤ 3 := by
    cases d.sdo.point <;> simp [Point.stage]
  have clock : d.clock = 4 * d.passes + d.sdo.point.stage := rfl
  have clock' : t.clock = 4 * t.passes + t.sdo.point.stage := rfl
  have handled : d.sdo.accepted.length ≤ t.sdo.requests.length := by
    rw [State.requests, List.length_map]
    apply settled.handled
    simp only [Device.takings, Device.handlings]
    omega
  constructor
  · calc (t.sdo.handled.take d.sdo.accepted.length).map (·.1)
        = t.sdo.requests.take d.sdo.accepted.length := List.map_take
      _ = (t.sdo.requests ++ (t.sdo.point.inProgress ++ t.sdo.waiting)).take
            d.sdo.accepted.length := (List.take_append_of_le_length handled).symm
      _ = t.sdo.accepted.take d.sdo.accepted.length := by rw [← List.append_assoc, order]
      _ = d.sdo.accepted := (List.prefix_iff_eq_take.mp grown).symm
  · apply settled.put
    simp only [Device.takings, Device.sendings]
    omega

/-- Bounded response: once the main loop has had the steps of three passes, every request
    that was accepted before has been executed, and what it was answered is on the bus. -/
theorem answered_within (setup : Setup α φ E) (before after : List (DeviceEvent α))
    (alive : (setup.run app port (before ++ after)).sdo.core.fault = none)
    (enough : Device.passBound setup.counts * 3 < after.countP DeviceEvent.isMain) :
    let d := setup.run app port before
    let t := setup.run app port (before ++ after)
    (t.sdo.handled.take d.sdo.accepted.length).map (·.1) = d.sdo.accepted ∧
      (t.sdo.handled.take d.sdo.accepted.length).filterMap (·.2) <+:
        (t.bus.filter (·.source = .sdo)).map (·.frame.payload) := by
  intro d t
  rw [setup.payloads_heard app port]
  exact setup.settled_within app port before after alive enough

theorem answered_within_asked :
    let d := sample.run .idle emptyPort (askingRun 0)
    let t := sample.run .idle emptyPort (askingRun 0 ++ List.replicate 256 .main)
    (t.sdo.handled.take d.sdo.accepted.length).map (·.1) = d.sdo.accepted ∧
      (t.sdo.handled.take d.sdo.accepted.length).filterMap (·.2) <+:
        (t.bus.filter (·.source = .sdo)).map (·.frame.payload) :=
  answered_within .idle emptyPort sample (askingRun 0) (List.replicate 256 .main)
    (by decide +kernel) (by decide +kernel)

end Setup

end Ucanopen.H7
