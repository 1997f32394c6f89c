import Ucanopen.F4.DevicePasses
import Ucanopen.Lib.Progress
import Ucanopen.Reception.Progress

/-! # Progress of the main loop

The loops inside a pass empty queues and go over tables of fixed size, while the
interrupt fills them. Every step of the main loop brings the end of the pass nearer,
and a frame that the bus brings puts it off by a step at most. So the main loop gets
through pass after pass under any traffic it has the time for.
-/

namespace Ucanopen.F4

open Run

variable {α φ E : Type} {app : Application φ E} {port : Port 8 E}

/-! ## Steps that the loops have left -/

namespace State

/-- Steps until the loop that the service is in, or enters next, ends. -/
def left (s : State α E) : Nat :=
  match s.stage with
  | .beforeSend => s.sdo.tsdoQueue.items.length + 2
  | .send => s.sdo.tsdoQueue.items.length + 1
  | .beforeHandle => s.sdo.rsdoQueue.items.length + 2
  | .handle => s.sdo.rsdoQueue.items.length + 1
  | .afterHandle => 1

theorem left_pos (s : State α E) : 1 ≤ s.left ∧ s.left ≤ 18 := by
  have requests := s.sdo.rsdoQueue.bounded
  have responses := s.sdo.tsdoQueue.bounded
  unfold left
  split <;> omega

theorem main_left (port : Port 8 E) {s : State α E} (alive : s.core.fault = none) :
    (s.stage = .send ∧ (s.main port).stage = .beforeHandle) ∨
      (s.stage = .handle ∧ (s.main port).stage = .afterHandle) ∨ s.stage = .afterHandle ∨
      (s.main port).left + 1 ≤ s.left := by
  unfold main
  rw [alive]
  cases at_stage : s.stage with
  | beforeSend => simp [left, at_stage]
  | send =>
      cases front : s.sdo.tsdoQueue.front? with
      | none => simp
      | some payload =>
          have queue := congrArg List.length (s.sdo.tsdoQueue.items_of_front front)
          rw [List.length_cons] at queue
          simp only [left, at_stage, sendIteration, SdoService.sendIteration]
          omega
  | beforeHandle => simp [left, at_stage]
  | handle =>
      cases front : s.sdo.rsdoQueue.front? with
      | none => simp
      | some request =>
          have queue := congrArg List.length (s.sdo.rsdoQueue.items_of_front front)
          have stage : (s.handleIteration port request).stage = .handle := at_stage
          rw [List.length_cons] at queue
          simp only [left, at_stage, stage, handleIteration_rsdoQueue]
          omega
  | afterHandle => simp

/-- A request that arrives may take the handling loop a step more. -/
theorem recv_left [DecidableEq α] (s : State α E) (attr : α) (frame : CanFrame) :
    (s.recv attr frame).left ≤ s.left + 1 := by
  have step := s.recv_step attr frame
  generalize s.recv attr frame = t at step
  cases step with
  | mismatch => exact Nat.le_succ _
  | overrun => exact Nat.le_succ _
  | pushed =>
      unfold left
      cases s.stage with
      | beforeHandle | handle => simp
      | _ => exact Nat.le_succ _

end State

/-! ## Steps that the pass has left -/

/-- What the nodes from `k` on take at most, with the end of the pass. -/
def nodesLeft (counts : List Nat) (k : Nat) : Nat :=
  costFrom (counts.map fun count => 11 * count + 4) k + 1

theorem nodesLeft_cons {counts : List Nat} {k count : Nat} (here : counts[k]? = some count) :
    nodesLeft counts k = 11 * count + 4 + nodesLeft counts (k + 1) := by
  have cost : (counts.map fun count => 11 * count + 4)[k]? = some (11 * count + 4) := by
    simp [here]
  rw [nodesLeft, costFrom_next cost, nodesLeft, Nat.add_assoc]

def DeviceEvent.isMain : DeviceEvent α → Bool
  | .main => true
  | _ => false

def DeviceEvent.isInterrupt : DeviceEvent α → Bool
  | .interrupt _ _ => true
  | _ => false

namespace Device

def counts (d : Device α φ E) : List Nat := d.nodes.map NodeUnit.count

/-- Steps that the loop of node `k` has left. -/
def rxLeft (d : Device α φ E) (k : Nat) : Nat := d.nodes[k]?.elim 1 fun node => node.rx.left

/-- Steps that the pass has left at most, when nothing arrives. -/
def left (d : Device α φ E) : Nat :=
  match d.phase with
  | .heartbeat => 86 + nodesLeft d.counts 0
  | .sync => 85 + nodesLeft d.counts 0
  | .tpdo => 84 + nodesLeft d.counts 0
  | .sdoSend => d.sdo.left + 65 + nodesLeft d.counts 0
  | .rpdoHandle => d.rpdo.left + 19 + nodesLeft d.counts 0
  | .sdoHandle => d.sdo.left + 1 + nodesLeft d.counts 0
  | .inspect => 1 + nodesLeft d.counts 0
  | .nodeSend k => nodesLeft d.counts k
  | .nodeHandle k => d.rxLeft k + 1 + nodesLeft d.counts (k + 1)
  | .nodeInspect k => 1 + nodesLeft d.counts (k + 1)

theorem counts_step [DecidableEq α] (app : Application φ E) (port : Port 8 E) (d : Device α φ E)
    (e : DeviceEvent α) :
    (d.step app port e).counts = d.counts := by
  cases e with
  | interrupt attr frame =>
      change (d.onFrameReceived attr frame).counts = _
      have step := d.interrupt_step attr frame
      generalize d.onFrameReceived attr frame = t at step ⊢
      cases step with
      | node k => exact map_modify_same fun _ => rfl
      | _ => rfl
  | main =>
      change (d.work app port).counts = _
      have step := d.main_step app port
      generalize d.work app port = t at step ⊢
      generalize d.emitted port = puts at step
      cases step with
      | nodeSend _ _ here => exact map_set_same here rfl
      | nodeHandle _ _ here => exact map_set_same here rfl
      | _ => rfl
  | advance time => simp [counts, step, advance, Function.comp_def]
  | _ => rfl

/-- A step of the main loop brings the end of the pass nearer, or ends it. -/
theorem work_left [DecidableEq α] (app : Application φ E) (port : Port 8 E) {d : Device α φ E}
    (synced : Synced d) (alive : d.sdo.core.fault = none) :
    (d.work app port).passes = d.passes ∧ (d.work app port).left + 1 ≤ d.left ∨
      (d.work app port).passes = d.passes + 1 ∧ (d.work app port).phase = .heartbeat ∧
        1 ≤ d.left := by
  have counts := counts_step app port d .main
  change (d.work app port).counts = d.counts at counts
  have step := d.main_step app port
  generalize d.work app port = t at step counts ⊢
  generalize d.emitted port = puts at step
  have served := d.sdo.main_left port alive
  have sdo := d.sdo.left_pos
  have sdo' := (d.sdo.main port).left_pos
  have rpdo := d.rpdo.left_pos
  cases step with
  | stopped fault => exact absurd alive fault
  | heartbeat _ at_phase | sync _ at_phase =>
      refine .inl ⟨rfl, ?_⟩
      simp only [left, at_phase, counts]
      omega
  | tpdo _ at_phase =>
      refine .inl ⟨rfl, ?_⟩
      have same : ∀ f, (d.sdo.apply f).left = d.sdo.left := fun _ => rfl
      simp only [left, at_phase, counts, same]
      omega
  | sdoSend _ at_phase =>
      refine .inl ⟨rfl, ?_⟩
      by_cases done : (d.sdo.main port).stage = .beforeHandle
      · simp only [if_pos done] at counts ⊢
        simp only [left, at_phase, counts]
        omega
      · have lower : (d.sdo.main port).left + 1 ≤ d.sdo.left := by
          obtain ⟨_, ends⟩ | ⟨handling, _⟩ | after | lower := served
          · exact absurd ends done
          · simp [Synced, at_phase, handling] at synced
          · simp [Synced, at_phase, after] at synced
          · exact lower
        simp only [if_neg done] at counts ⊢
        simp only [left, at_phase, counts]
        omega
  | rpdoHandle _ at_phase =>
      refine .inl ⟨rfl, ?_⟩
      have same : ∀ f, (d.sdo.apply f).left = d.sdo.left := fun _ => rfl
      by_cases done : d.rpdo.main.point = .outside
      · simp only [if_pos done] at counts ⊢
        simp only [left, at_phase, counts, same]
        omega
      · have lower := d.rpdo.main_left.resolve_left done
        simp only [if_neg done] at counts ⊢
        simp only [left, at_phase, counts]
        omega
  | sdoHandle _ at_phase =>
      refine .inl ⟨rfl, ?_⟩
      by_cases done : (d.sdo.main port).stage = .afterHandle
      · simp only [if_pos done] at counts ⊢
        simp only [left, at_phase, counts]
        omega
      · have lower : (d.sdo.main port).left + 1 ≤ d.sdo.left := by
          obtain ⟨sending, _⟩ | ⟨_, ends⟩ | after | lower := served
          · simp [Synced, at_phase, sending] at synced
          · exact absurd ends done
          · simp [Synced, at_phase, after] at synced
          · exact lower
        simp only [if_neg done] at counts ⊢
        simp only [left, at_phase, counts]
        omega
  | inspect _ at_phase =>
      refine .inl ⟨rfl, ?_⟩
      simp only [left, at_phase, counts]
      omega
  | @passed k _ at_phase =>
      refine .inr ⟨rfl, rfl, ?_⟩
      simp only [left, at_phase, nodesLeft]
      omega
  | @nodeSend k node _ at_phase here =>
      refine .inl ⟨rfl, ?_⟩
      have inside := (List.getElem?_eq_some_iff.mp here).1
      have count : d.counts[k]? = some node.count := by simp [Device.counts, here]
      have rx := node.rx.left_pos
      simp only [left, rxLeft, at_phase, counts, List.getElem?_set_self inside, Option.elim_some,
        nodesLeft_cons count]
      omega
  | @noNode k _ at_phase last =>
      refine .inl ⟨rfl, ?_⟩
      simp only [left, rxLeft, at_phase, counts, last, Option.elim_none]
      omega
  | @nodeHandle k node _ at_phase here =>
      refine .inl ⟨rfl, ?_⟩
      have inside := (List.getElem?_eq_some_iff.mp here).1
      have rx := node.rx.left_pos
      by_cases done : node.rx.main.point = .outside
      · simp only [if_pos done] at counts ⊢
        simp only [left, rxLeft, at_phase, counts, here, Option.elim_some]
        omega
      · have lower := node.rx.main_left.resolve_left done
        simp only [if_neg done] at counts ⊢
        simp only [left, rxLeft, at_phase, counts, here, List.getElem?_set_self inside,
          Option.elim_some]
        omega
  | @nodeInspect k _ at_phase =>
      refine .inl ⟨rfl, ?_⟩
      simp only [left, at_phase, counts]
      omega

theorem left_le {d t : Device α φ E} {more : Nat} (phase : t.phase = d.phase)
    (counts : t.counts = d.counts) (sdo : t.sdo.left ≤ d.sdo.left + more)
    (rpdo : t.rpdo.left = d.rpdo.left) (nodes : ∀ k, t.rxLeft k = d.rxLeft k) :
    t.left ≤ d.left + more := by
  unfold left
  rw [phase, counts]
  cases d.phase with
  | sdoSend | sdoHandle =>
      dsimp only
      omega
  | rpdoHandle =>
      dsimp only
      omega
  | nodeHandle k =>
      dsimp only
      rw [nodes]
      omega
  | _ => exact Nat.le_add_right ..

/-- A frame puts the end of the pass off by a step at most, and nothing else puts it off. -/
theorem other_left [DecidableEq α] (d : Device α φ E) {e : DeviceEvent α} (other : e ≠ .main) :
    (d.step app port e).left ≤ d.left + e.isInterrupt.toNat := by
  have counts := counts_step app port d e
  have phase := (place_kept app port d other).2.1
  cases e with
  | interrupt attr frame =>
      change (d.onFrameReceived attr frame).left ≤ d.left + 1
      change (d.onFrameReceived attr frame).counts = d.counts at counts
      change (d.onFrameReceived attr frame).phase = d.phase at phase
      have step := d.interrupt_step attr frame
      generalize d.onFrameReceived attr frame = t at step counts phase ⊢
      cases step with
      | nowhere => exact Nat.le_succ _
      | rpdo =>
          exact left_le phase counts (Nat.le_succ _) (d.rpdo.recv_left ..) fun _ => rfl
      | sdo => exact left_le phase counts (d.sdo.recv_left attr frame) rfl fun _ => rfl
      | node k =>
          apply left_le phase counts (Nat.le_succ _) rfl
          intro j
          unfold rxLeft
          rw [List.getElem?_modify]
          cases d.nodes[j]? with
          | none => rfl
          | some node =>
              by_cases same : k = j
              · subst same
                simpa using node.rx.recv_left Node.recv attr frame
              · simp [same]
  | main => exact absurd rfl other
  | advance time =>
      apply left_le phase counts le_rfl rfl
      intro j
      simp only [rxLeft, step, advance, List.getElem?_map]
      cases d.nodes[j]? <;> rfl
  | _ => exact le_rfl

/-! ## Passes -/

/-- What a running device is like, apart from the services it runs. -/
structure Running (counts : List Nat) (d : Device α φ E) : Prop where
  synced : Synced d
  nodes : d.counts = counts

/-- The whole pass has the most steps left. -/
theorem left_le_pass {counts : List Nat} {d : Device α φ E} (running : Running counts d) :
    d.left ≤ 86 + nodesLeft counts 0 := by
  have rest : ∀ k, nodesLeft counts k ≤ nodesLeft counts 0 :=
    fun k => Nat.add_le_add_right (costFrom_le _ k) 1
  have sdo := d.sdo.left_pos
  have rpdo := d.rpdo.left_pos
  have nodes := running.nodes
  unfold left
  rw [nodes]
  cases d.phase with
  | nodeSend k =>
      have rest := rest k
      dsimp only
      omega
  | nodeHandle k =>
      have rest := rest k
      have node : d.rxLeft k + 1 + nodesLeft counts (k + 1) ≤ 86 + nodesLeft counts 0 := by
        unfold rxLeft
        cases here : d.nodes[k]? with
        | none =>
            have rest' := costFrom_le (counts.map fun count => 11 * count + 4) (k + 1)
            simp only [Option.elim, nodesLeft]
            omega
        | some node =>
            have count : counts[k]? = some node.count := by
              rw [← nodes, Device.counts, List.getElem?_map, here]
              rfl
            have steps := node.rx.left_pos
            rw [nodesLeft_cons count] at rest
            simp only [Option.elim]
            omega
      exact node
  | nodeInspect k =>
      have rest := rest (k + 1)
      dsimp only
      omega
  | _ =>
      dsimp only
      omega

theorem alive_before [DecidableEq α] (d : Device α φ E) (e : DeviceEvent α)
    (alive : (d.step app port e).sdo.core.fault = none) : d.sdo.core.fault = none := by
  by_cases main : e = .main
  · subst main
    cases fault : d.sdo.core.fault with
    | none => rfl
    | some f =>
        have stopped : d.work app port = d := by
          unfold work
          rw [fault]
        change (d.work app port).sdo.core.fault = none at alive
        rw [stopped, fault] at alive
        exact alive
  · rwa [(place_kept app port d main).2.2.2] at alive

/-- The passes of the main loop are rounds. -/
theorem main_rounds [DecidableEq α] (app : Application φ E) (port : Port 8 E) (counts : List Nat) :
    Rounds (Device.step (α := α) app port) (Running counts) (fun d => d.sdo.core.fault = none)
      DeviceEvent.isMain DeviceEvent.isInterrupt left passes (86 + nodesLeft counts 0) where
  kept := fun d e running => ⟨running.synced.step app port e, (counts_step app port d e).trans running.nodes⟩
  live_before := alive_before
  worked := by
    intro d e running isMain alive
    cases e with
    | main =>
        have before := alive_before d .main alive
        obtain lower | ⟨passed, phase, some⟩ := work_left app port running.synced before
        · exact .inl lower
        · refine .inr ⟨passed, ?_⟩
          change (d.work app port).left + 1 ≤ _
          have nodes := (counts_step app port d .main).trans running.nodes
          change (d.work app port).counts = counts at nodes
          have start : (d.work app port).left = 86 + nodesLeft counts 0 := by
            simp only [left, phase, nodes]
          omega
    | _ => exact absurd isMain nofun
  disturbed := by
    intro d e running isMain
    have other : e ≠ .main := by
      rintro rfl
      exact absurd isMain nofun
    exact ⟨(place_kept app port d other).1, other_left d other⟩

end Device

namespace Setup

variable [DecidableEq α]

/-- How many messages each node of the server receives. -/
def counts (setup : Setup α φ E) : List Nat := setup.server.nodes.map fun node => node.1

/-- What a pass takes, when nothing arrives. -/
def passBound (setup : Setup α φ E) : Nat :=
  87 + (setup.server.nodes.map fun node => 11 * node.1 + 4).sum

omit [DecidableEq α] in
theorem passBound_eq (setup : Setup α φ E) :
    86 + nodesLeft setup.counts 0 = setup.passBound := by
  simp only [nodesLeft, costFrom, List.drop_zero, counts, passBound, List.map_map,
    Function.comp_def]
  omega

theorem running_run (setup : Setup α φ E) (app : Application φ E) (port : Port 8 E)
    (schedule : List (DeviceEvent α)) :
    (setup.run app port schedule).Running setup.counts := by
  have start : setup.device.Running setup.counts := by
    refine ⟨rfl, ?_⟩
    apply List.ext_getElem?
    intro k
    simp only [Device.counts, device, counts, List.getElem?_map, List.getElem?_mapIdx,
      Option.map_map]
    rfl
  exact Run.invariant (Device.Running setup.counts) start
    (fun d e running => (Device.main_rounds app port setup.counts).kept d e running) schedule

/-- From any state on, enough steps complete as many passes as one likes. -/
theorem passes_later (setup : Setup α φ E) (app : Application φ E) (port : Port 8 E)
    (before after : List (DeviceEvent α))
    (alive : (setup.run app port (before ++ after)).sdo.core.fault = none) {passes : Nat}
    (enough : setup.passBound * passes + after.countP DeviceEvent.isInterrupt <
      after.countP DeviceEvent.isMain) :
    (setup.run app port before).passes + passes ≤
      (setup.run app port (before ++ after)).passes := by
  have running := setup.running_run app port before
  have left := Device.left_le_pass running
  rw [setup.passBound_eq] at left
  have frames : after.countP (fun e => !e.isMain && e.isInterrupt) =
      after.countP DeviceEvent.isInterrupt := by
    apply List.countP_congr
    intro e _
    cases e <;> simp [DeviceEvent.isMain, DeviceEvent.isInterrupt]
  unfold Setup.run at alive ⊢
  rw [run_append] at alive ⊢
  apply (Device.main_rounds app port setup.counts).complete running alive
  rw [frames, setup.passBound_eq]
  omega

/-- The main loop does not hang: as long as no undefined behaviour is reached, a number
    of passes is complete once it has had enough steps. What clients send delays it by a
    step a frame, and the steps of a pass are bounded by the configuration. -/
theorem passes_complete (setup : Setup α φ E) (app : Application φ E) (port : Port 8 E)
    (schedule : List (DeviceEvent α))
    (alive : (setup.run app port schedule).sdo.core.fault = none) (passes : Nat)
    (enough : (87 + ((setup.server.nodes.map fun node => 11 * node.1 + 4).sum)) * passes +
        schedule.countP DeviceEvent.isInterrupt < schedule.countP DeviceEvent.isMain) :
    passes ≤ (setup.run app port schedule).passes := by
  have later := setup.passes_later app port [] schedule alive enough
  exact (Nat.le_add_left ..).trans later

theorem passes_complete_sample :
    5 ≤ (sample.run .idle (F4.port F4.sample) (readingRun 512)).passes :=
  passes_complete sample .idle (F4.port F4.sample) (readingRun 512) (by decide +kernel) 5
    (by decide +kernel)

end Setup

end Ucanopen.F4
