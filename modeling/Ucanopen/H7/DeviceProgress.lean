import Ucanopen.H7.DeviceClient
import Ucanopen.Lib.Progress
import Ucanopen.Reception.Progress

/-! # Progress of the H7 main loop

With one slot for each direction and overwriting receivers, nothing that the bus brings
adds a step to a pass: it has a bound that depends on the number of nodes and of their
messages alone. A request that the SDO service has taken is executed in the handling
that starts next, and its response is on the bus in the pass after it.
-/

namespace Ucanopen.H7

open Run

variable {α φ E : Type} {app : Application φ E} {port : Port 16 E}

def DeviceEvent.isMain : DeviceEvent α → Bool
  | .main => true
  | _ => false

namespace Device

/-! ## Steps that the pass has left -/

/-- The loops of the nodes: how many messages each has, and the steps it has left. -/
def loops (d : Device α φ E) : List (Nat × Nat) :=
  d.nodes.map fun node => (node.count, node.rx.left)

/-- What the second loop over the nodes takes at most from node `k` on. -/
def nodesLeft (d : Device α φ E) (k : Nat) : Nat :=
  costFrom (d.loops.map fun loop => 11 * loop.1 + 3) k + 2

/-- What it has left in the middle of node `k`. -/
def nodeLeft (d : Device α φ E) (k : Nat) : Nat :=
  match d.loops[k]? with
  | none => 2
  | some loop => loop.2 + 1 + d.nodesLeft (k + 1)

/-- Steps that the pass has left at most. -/
def left (d : Device α φ E) : Nat :=
  match d.phase with
  | .heartbeat => d.loops.length + 62 + d.nodesLeft 0
  | .sync => d.loops.length + 61 + d.nodesLeft 0
  | .tpdo => d.loops.length + 60 + d.nodesLeft 0
  | .sdoSend => d.sdo.point.left + d.loops.length + 55 + d.nodesLeft 0
  | .nodeSend k => d.loops.length - k + 55 + d.nodesLeft 0
  | .rpdoHandle => d.rpdo.left + 8 + d.nodesLeft 0
  | .sdoHandle => d.sdo.point.left + d.nodesLeft 0
  | .nodeHandle k => d.nodeLeft k
  | .nodeOnRun k => 1 + d.nodesLeft (k + 1)
  | .onRun => 1

theorem loops_at {d : Device α φ E} {k : Nat} {node : NodeUnit α φ E}
    (here : d.nodes[k]? = some node) : d.loops[k]? = some (node.count, node.rx.left) := by
  simp [loops, here]

theorem nodeLeft_le (d : Device α φ E) (k : Nat) : d.nodeLeft k ≤ d.nodesLeft k := by
  unfold nodeLeft
  cases here : d.nodes[k]? with
  | none =>
      have absent : d.loops[k]? = none := by simp [loops, here]
      rw [absent]
      exact Nat.le_add_left ..
  | some node =>
      have cost : (d.loops.map fun loop => 11 * loop.1 + 3)[k]? = some (11 * node.count + 3) := by
        simp [loops_at here]
      have rx := node.rx.left_pos
      simp only [loops_at here, nodesLeft, costFrom_next cost]
      omega

/-- The number of messages of each node stays, so the bound for the nodes does. -/
theorem nodesLeft_congr {d t : Device α φ E}
    (counts : t.loops.map Prod.fst = d.loops.map Prod.fst) :
    t.nodesLeft = d.nodesLeft ∧ t.loops.length = d.loops.length := by
  have length := congrArg List.length counts
  rw [List.length_map, List.length_map] at length
  refine ⟨?_, length⟩
  have costs := congrArg (List.map fun count => 11 * count + 3) counts
  rw [List.map_map, List.map_map] at costs
  funext k
  unfold nodesLeft
  exact congrArg (costFrom · k + 2) costs

variable [DecidableEq α]

/-- An event that is no step of the main loop leaves the device where it is in its pass. -/
structure Stays (d t : Device α φ E) : Prop where
  passes : t.passes = d.passes
  phase : t.phase = d.phase
  point : t.sdo.point = d.sdo.point
  fault : t.sdo.core.fault = d.sdo.core.fault
  rpdo : t.rpdo.left = d.rpdo.left
  loops : t.loops = d.loops

theorem stays (app : Application φ E) (port : Port 16 E) (d : Device α φ E)
    {e : DeviceEvent α} (other : e ≠ .main) : Stays d (d.step app port e) := by
  cases e with
  | interrupt attr frame =>
      have step := d.interrupt_step attr frame
      suffices Stays d (d.deliver attr frame) by
        exact ⟨this.passes, this.phase, this.point, this.fault, this.rpdo, this.loops⟩
      generalize d.deliver attr frame = t at step ⊢
      cases step with
      | nowhere => exact ⟨rfl, rfl, rfl, rfl, rfl, rfl⟩
      | rpdo => exact ⟨rfl, rfl, rfl, rfl, d.rpdo.recv_left .., rfl⟩
      | sdo =>
          obtain ⟨_, _, point, core⟩ := d.sdo.recv_header attr frame
          exact ⟨rfl, rfl, point, congrArg Core.fault core, rfl, rfl⟩
      | node k =>
          refine ⟨rfl, rfl, rfl, rfl, rfl, map_modify_same fun node => ?_⟩
          exact congrArg (node.count, ·) (node.rx.recv_left ..)
  | main => exact absurd rfl other
  | advance time => exact ⟨rfl, rfl, rfl, rfl, rfl, List.map_map⟩
  | enable k | disable k =>
      exact ⟨rfl, rfl, rfl, rfl, rfl, map_modify_same fun _ => rfl⟩
  | start | stop => exact ⟨rfl, rfl, rfl, rfl, rfl, rfl⟩

omit [DecidableEq α] in
theorem Stays.left {d t : Device α φ E} (same : Stays d t) : t.left = d.left := by
  unfold Device.left nodeLeft nodesLeft
  rw [same.phase, same.point, same.rpdo, same.loops]

omit [DecidableEq α] in
theorem work_counts (app : Application φ E) (port : Port 16 E) (d : Device α φ E) :
    (d.work app port).loops.map Prod.fst = d.loops.map Prod.fst := by
  have counts : ∀ t : Device α φ E, t.loops.map Prod.fst = t.nodes.map NodeUnit.count :=
    fun _ => List.map_map
  rw [counts, counts]
  have step := d.main_step app port
  generalize d.work app port = t at step ⊢
  generalize d.emitted port = puts at step
  cases step with
  | nodeSend _ _ here | nodeHandle _ _ here => exact map_set_same here rfl
  | _ => rfl

omit [DecidableEq α] in
/-- A step of the main loop brings the end of the pass nearer, or ends it. -/
theorem work_left (app : Application φ E) (port : Port 16 E) {d : Device α φ E}
    (synced : d.Synced) (flags : d.sdo.Flags d.sdo.point) (alive : d.sdo.core.fault = none)
    (still : (d.work app port).sdo.core.fault = none) :
    (d.work app port).passes = d.passes ∧ (d.work app port).left + 1 ≤ d.left ∨
      (d.work app port).passes = d.passes + 1 ∧ (d.work app port).phase = .heartbeat ∧
        1 ≤ d.left := by
  obtain ⟨nodes, length⟩ := nodesLeft_congr (d.work_counts app port)
  have step := d.main_step app port
  generalize d.work app port = t at step nodes length still ⊢
  generalize d.emitted port = puts at step
  unfold Synced at synced
  have rpdo := d.rpdo.left_pos
  cases step with
  | stopped fault => exact absurd alive fault
  | heartbeat _ at_phase | sync _ at_phase =>
      refine .inl ⟨rfl, ?_⟩
      simp only [left, at_phase, nodes, length]
      omega
  | tpdo _ at_phase =>
      rw [at_phase] at synced
      refine .inl ⟨rfl, ?_⟩
      have point : (d.sdo.apply fun m => (TpdoService.send d.tpdoService d.now m).2.2).point =
          .beforeSend := synced
      simp only [left, at_phase, nodes, length, point, Point.left]
      omega
  | sdoSend _ at_phase =>
      rw [at_phase] at synced
      refine .inl ⟨rfl, ?_⟩
      have some : 1 ≤ d.sdo.point.left := by
        cases d.sdo.point <;> simp [Point.left]
      obtain ⟨sending, lower⟩ | done := d.sdo.sending_next port alive synced
      · have elsewhere : (d.sdo.main port).point ≠ .afterSend := by
          intro done
          rw [done] at sending
          exact sending
        simp only [if_neg elsewhere] at nodes length ⊢
        simp only [left, at_phase, nodes, length]
        omega
      · simp only [if_pos done] at nodes length ⊢
        simp only [left, at_phase, nodes, length]
        omega
  | @sent k _ at_phase =>
      refine .inl ⟨rfl, ?_⟩
      simp only [left, at_phase, nodes]
      omega
  | @nodeSend k node _ at_phase here =>
      have inside : k < d.loops.length := by
        rw [loops, List.length_map]
        exact (List.getElem?_eq_some_iff.mp here).1
      refine .inl ⟨rfl, ?_⟩
      simp only [left, at_phase, nodes, length]
      omega
  | rpdoHandle _ at_phase =>
      rw [at_phase] at synced
      refine .inl ⟨rfl, ?_⟩
      have point : (d.sdo.apply (app.handled d.rpdo)).point = .afterSend := synced
      by_cases done : d.rpdo.main.point = .outside
      · simp only [if_pos done] at nodes ⊢
        simp only [left, at_phase, nodes, point, Point.left]
        omega
      · have lower := d.rpdo.main_left.resolve_left done
        simp only [if_neg done] at nodes ⊢
        simp only [left, at_phase, nodes]
        omega
  | sdoHandle _ at_phase =>
      rw [at_phase] at synced
      refine .inl ⟨rfl, ?_⟩
      have some : 1 ≤ d.sdo.point.left := by
        cases d.sdo.point <;> simp [Point.left]
      obtain ⟨handling, lower⟩ | done := d.sdo.handling_next port alive synced
      · have elsewhere : (d.sdo.main port).point ≠ .afterHandle := by
          intro done
          rw [done] at handling
          exact handling
        have lower := lower flags still
        simp only [if_neg elsewhere] at nodes ⊢
        simp only [left, at_phase, nodes]
        omega
      · simp only [if_pos done] at nodes ⊢
        have next := nodeLeft_le { d with sdo := d.sdo.main port, phase := .nodeHandle 0 } 0
        rw [nodes] at next
        simp only [left, at_phase]
        omega
  | @handled k _ at_phase last =>
      refine .inl ⟨rfl, ?_⟩
      have absent : d.loops[k]? = none := by simp [loops, last]
      simp only [left, at_phase, nodeLeft, absent]
      omega
  | @nodeHandle k node _ at_phase here =>
      refine .inl ⟨rfl, ?_⟩
      have rx := node.rx.left_pos
      by_cases done : node.rx.main.point = .outside
      · simp only [if_pos done] at nodes ⊢
        simp only [left, at_phase, nodes, nodeLeft, loops_at here]
        omega
      · have lower := node.rx.main_left.resolve_left done
        simp only [if_neg done] at nodes ⊢
        have inside := (List.getElem?_eq_some_iff.mp here).1
        have next := loops_at (d := {
          d with
          nodes := d.nodes.set k { node with rx := node.rx.main }
          sdo := d.sdo.apply (app.handled node.rx)
          phase := .nodeHandle k }) (List.getElem?_set_self inside)
        simp only [left, at_phase, nodeLeft, nodes, loops_at here, next]
        omega
  | @nodeOnRun k _ at_phase =>
      refine .inl ⟨rfl, ?_⟩
      have next := nodeLeft_le
        { d with sdo := d.sdo.apply (app.nodeOnRun k), phase := .nodeHandle (k + 1) } (k + 1)
      rw [nodes] at next
      simp only [left, at_phase]
      omega
  | onRun _ at_phase =>
      refine .inr ⟨rfl, rfl, ?_⟩
      simp only [left, at_phase]
      omega

/-! ## Passes -/

omit [DecidableEq α] in
/-- The whole pass has the most steps left. -/
theorem left_le {d : Device α φ E} (synced : d.Synced) :
    d.left ≤ d.loops.length + 62 + d.nodesLeft 0 := by
  have rest : ∀ k, d.nodesLeft k ≤ d.nodesLeft 0 :=
    fun k => Nat.add_le_add_right (costFrom_le _ k) 2
  have rpdo := d.rpdo.left_pos
  have point : d.sdo.point.left ≤ 8 ∧ (d.sdo.point.sending → d.sdo.point.left ≤ 4) := by
    cases d.sdo.point <;> simp [Point.left, Point.sending]
  unfold left
  unfold Synced at synced
  cases at_phase : d.phase with
  | sdoSend =>
      rw [at_phase] at synced
      have point := point.2 synced
      dsimp only
      omega
  | nodeHandle k =>
      have node := d.nodeLeft_le k
      have rest := rest k
      dsimp only
      omega
  | nodeOnRun k =>
      have rest := rest (k + 1)
      dsimp only
      omega
  | _ =>
      dsimp only
      omega

/-- What a running device is like, apart from the services it runs. -/
structure Running (port : Port 16 E) (m : Machine E) (counts : List Nat) (d : Device α φ E) :
    Prop where
  synced : d.Synced
  counts : d.loops.map Prod.fst = counts
  explained : ∃ work, State.Interleaved port m work d.sdo

theorem Running.step {m : Machine E} {counts : List Nat} {d : Device α φ E}
    (running : Running port m counts d) (e : DeviceEvent α) :
    Running port m counts (d.step app port e) := by
  refine ⟨running.synced.step app port e, ?_, ?_⟩
  · by_cases main : e = .main
    · subst main
      exact (d.work_counts app port).trans running.counts
    · rw [(stays app port d main).loops]
      exact running.counts
  · rw [sdo_follows]
    exact Run.invariant (fun s => ∃ work, State.Interleaved port m work s) running.explained
      (fun _ e ⟨_, inv⟩ => ⟨_, inv.step e⟩) _

theorem alive_before (d : Device α φ E) (e : DeviceEvent α)
    (alive : (d.step app port e).sdo.core.fault = none) : d.sdo.core.fault = none := by
  by_cases main : e = .main
  · subst main
    cases fault : d.sdo.core.fault with
    | none => rfl
    | some f =>
        have stopped : d.work app port = d := by
          unfold work
          rw [fault]
        change (d.work app port).sdo.core.fault = none at alive
        rw [stopped, fault] at alive
        exact alive
  · rwa [(stays app port d main).fault] at alive

/-- The steps that a pass takes at most. -/
def passBound (counts : List Nat) : Nat := 64 + (counts.map fun count => 11 * count + 4).sum

omit [DecidableEq α] in
theorem passBound_eq {d : Device α φ E} {counts : List Nat}
    (same : d.loops.map Prod.fst = counts) :
    d.loops.length + 62 + d.nodesLeft 0 = passBound counts := by
  have sums : ∀ counts : List Nat, (counts.map fun count => 11 * count + 4).sum =
      counts.length + (counts.map fun count => 11 * count + 3).sum := by
    intro counts
    induction counts with
    | nil => rfl
    | cons count counts ih =>
        simp only [List.map_cons, List.sum_cons, List.length_cons, ih]
        omega
  subst same
  rw [passBound, sums]
  simp only [List.length_map, List.map_map, nodesLeft, costFrom, List.drop_zero, Function.comp_def]
  omega

/-- The passes of the main loop are rounds that nothing disturbs. -/
theorem main_rounds (app : Application φ E) (port : Port 16 E) (m : Machine E)
    (counts : List Nat) :
    Rounds (Device.step (α := α) app port) (Running port m counts)
      (fun d => d.sdo.core.fault = none) DeviceEvent.isMain (fun _ => false) left passes
      (passBound counts) where
  kept := fun _ e running => running.step e
  live_before := alive_before
  worked := by
    intro d e running isMain alive
    cases e with
    | main =>
        have before := alive_before d .main alive
        obtain ⟨work, inv⟩ := running.explained
        obtain lower | ⟨passed, phase, some⟩ :=
          work_left app port running.synced inv.flags before alive
        · exact .inl lower
        · refine .inr ⟨passed, ?_⟩
          change (d.work app port).left + 1 ≤ _
          have whole := passBound_eq ((d.work_counts app port).trans running.counts)
          have start : (d.work app port).left = passBound counts := by
            rw [← whole]
            simp only [left, phase]
          omega
    | _ => exact absurd isMain nofun
  disturbed := by
    intro d e running isMain
    have other : e ≠ .main := by
      rintro rfl
      exact absurd isMain nofun
    have same := stays app port d other
    exact ⟨same.passes, same.left.le⟩

end Device

namespace Setup

variable [DecidableEq α] (app : Application φ E) (port : Port 16 E)

/-- How many messages each node of the server receives. -/
def counts (setup : Setup α φ E) : List Nat := setup.server.nodes.map fun node => node.1

theorem running_run (setup : Setup α φ E) (schedule : List (DeviceEvent α)) :
    Device.Running port setup.machine setup.counts (setup.run app port schedule) := by
  have start : Device.Running port setup.machine setup.counts setup.device := by
    refine ⟨rfl, ?_, ⟨[], .init port setup.sdoAttr setup.nodeId setup.sdoFrame setup.sdoPayload
      setup.machine⟩⟩
    rw [Device.loops, List.map_map]
    apply List.ext_getElem?
    intro k
    simp only [device, counts, List.getElem?_map, List.getElem?_mapIdx, Option.map_map]
    rfl
  exact Run.invariant (Device.Running port setup.machine setup.counts) start
    (fun _ e running => running.step e) schedule

/-- From any state on, enough steps complete as many passes as one likes. -/
theorem passes_later (setup : Setup α φ E) (before after : List (DeviceEvent α))
    (alive : (setup.run app port (before ++ after)).sdo.core.fault = none) {passes : Nat}
    (enough : Device.passBound setup.counts * passes < after.countP DeviceEvent.isMain) :
    (setup.run app port before).passes + passes ≤
      (setup.run app port (before ++ after)).passes := by
  have running := setup.running_run app port before
  have left := Device.left_le running.synced
  rw [Device.passBound_eq running.counts] at left
  unfold Setup.run at alive ⊢
  rw [run_append] at alive ⊢
  apply (Device.main_rounds app port setup.machine setup.counts).complete running alive
  have quiet : after.countP (fun e => !DeviceEvent.isMain e && false) = 0 := by simp
  rw [quiet]
  change Device.left (setup.run app port before) + 0 + _ < _
  omega

/-- No traffic slows the main loop down: as long as no undefined behaviour is reached, a
    number of passes is complete once it has had the steps for them, and what a pass
    takes at most depends on the configuration alone. -/
theorem passes_bounded (setup : Setup α φ E) (schedule : List (DeviceEvent α))
    (alive : (setup.run app port schedule).sdo.core.fault = none) (passes : Nat)
    (enough : Device.passBound setup.counts * passes < schedule.countP DeviceEvent.isMain) :
    passes ≤ (setup.run app port schedule).passes := by
  have later := setup.passes_later app port [] schedule alive enough
  exact (Nat.le_add_left ..).trans later

theorem passes_bounded_asked : 3 ≤ (sample.run .idle emptyPort (askingRun 256)).passes :=
  passes_bounded .idle emptyPort sample (askingRun 256) (by decide +kernel) 3 (by decide +kernel)

end Setup

end Ucanopen.H7
