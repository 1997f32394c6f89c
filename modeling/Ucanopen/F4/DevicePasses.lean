import Ucanopen.F4.DeviceRates

/-! # Passes of the main loop

`Server::run` goes through its phases in one order, pass after pass. So every message
is polled once in each pass, frames are on the bus in the order of the phases, and a
pass puts only so many of them.
-/

namespace Ucanopen.F4

open Run

variable {α φ E : Type} {app : Application φ E} {port : Port 8 E}

/-- The place of a phase in the pass. -/
def Phase.place : Phase → Nat
  | .heartbeat => 0
  | .sync => 1
  | .tpdo => 2
  | .sdoSend => 3
  | .rpdoHandle => 4
  | .sdoHandle => 5
  | .inspect => 6
  | .nodeSend k => 7 + 3 * k
  | .nodeHandle k => 8 + 3 * k
  | .nodeInspect k => 9 + 3 * k

/-- The phases of the services that poll no message. -/
def Phase.Loops : Phase → Prop
  | .sdoSend | .rpdoHandle | .sdoHandle | .nodeHandle _ => True
  | _ => False

theorem Phase.place_injective : Function.Injective Phase.place := by
  intro p q same
  cases p <;> cases q <;> simp only [place] at same
  all_goals first | rfl | omega | exact congrArg _ (by omega)

theorem Source.eq_sdo {source : Source} (phase : source.phase = .sdoSend) : source = .sdo := by
  cases source with
  | sdo => rfl
  | _ => exact absurd phase nofun

/-- What polls periodic messages goes on after one step. -/
theorem Source.phase_steps {source : Source} (periodic : source ≠ .sdo) : ¬ source.phase.Loops := by
  cases source with
  | sdo => exact absurd rfl periodic
  | _ => exact id

namespace Device

/-- The last phase of a pass finds no node any more. -/
def last (d : Device α φ E) : Nat := 7 + 3 * d.nodes.length

/-- What a step of the main loop does to the place of the device. -/
inductive Advances (d t : Device α φ E) : Prop
  | stays (passes : t.passes = d.passes) (phase : t.phase = d.phase)
      (why : d.sdo.core.fault ≠ none ∨ d.phase.Loops)
  | next (alive : d.sdo.core.fault = none) (passes : t.passes = d.passes)
      (place : t.phase.place = d.phase.place + 1) (inside : t.phase.place ≤ d.last)
  | wraps (alive : d.sdo.core.fault = none) (passes : t.passes = d.passes + 1)
      (phase : t.phase = .heartbeat) (place : d.phase.place = d.last)

theorem work_advances (app : Application φ E) (port : Port 8 E) {d : Device α φ E}
    (inside : d.phase.place ≤ d.last) : Advances d (d.work app port) := by
  have step := d.main_step app port
  generalize d.work app port = t at step ⊢
  generalize d.emitted port = puts at step
  unfold last at inside
  cases step with
  | stopped fault => exact .stays rfl rfl (.inl fault)
  | heartbeat alive at_phase | sync alive at_phase | tpdo alive at_phase | inspect alive at_phase =>
      refine .next alive rfl ?_ ?_
      · simp [at_phase, Phase.place]
      · simp only [Phase.place, last]
        omega
  | sdoSend alive at_phase =>
      by_cases done : (d.sdo.main port).stage = .beforeHandle
      · refine .next alive rfl ?_ ?_
        · simp [at_phase, done, Phase.place]
        · simp only [done, if_true, Phase.place, last]
          omega
      · exact .stays rfl (by simp [at_phase, done]) (.inr (by simp [at_phase, Phase.Loops]))
  | rpdoHandle alive at_phase =>
      by_cases done : d.rpdo.main.point = .outside
      · refine .next alive rfl ?_ ?_
        · simp [at_phase, done, Phase.place]
        · simp only [done, if_true, Phase.place, last]
          omega
      · exact .stays rfl (by simp [at_phase, done]) (.inr (by simp [at_phase, Phase.Loops]))
  | sdoHandle alive at_phase =>
      by_cases done : (d.sdo.main port).stage = .afterHandle
      · refine .next alive rfl ?_ ?_
        · simp [at_phase, done, Phase.place]
        · simp only [done, if_true, Phase.place, last]
          omega
      · exact .stays rfl (by simp [at_phase, done]) (.inr (by simp [at_phase, Phase.Loops]))
  | @passed k alive at_phase none =>
      rw [List.getElem?_eq_none_iff] at none
      rw [at_phase, Phase.place] at inside
      refine .wraps alive rfl rfl ?_
      simp only [at_phase, Phase.place, last]
      omega
  | @nodeSend k node alive at_phase here =>
      have index := (List.getElem?_eq_some_iff.mp here).1
      refine .next alive rfl ?_ ?_
      · simp only [at_phase, Phase.place]
        omega
      · simp only [Phase.place, last]
        omega
  | @noNode k alive at_phase none =>
      rw [List.getElem?_eq_none_iff] at none
      rw [at_phase, Phase.place] at inside
      omega
  | @nodeHandle k node alive at_phase here =>
      have index := (List.getElem?_eq_some_iff.mp here).1
      by_cases done : node.rx.main.point = .outside
      · refine .next alive rfl ?_ ?_
        · simp only [at_phase, done, if_true, Phase.place]
          omega
        · simp only [done, if_true, Phase.place, last]
          omega
      · exact .stays rfl (by simp [at_phase, done]) (.inr (by simp [at_phase, Phase.Loops]))
  | @nodeInspect k alive at_phase =>
      rw [at_phase, Phase.place] at inside
      refine .next alive rfl ?_ ?_
      · simp only [at_phase, Phase.place]
        omega
      · simp only [Phase.place, last]
        omega

theorem work_nodes (app : Application φ E) (port : Port 8 E) (d : Device α φ E) :
    (d.work app port).nodes.length = d.nodes.length := by
  have step := d.main_step app port
  generalize d.work app port = t at step ⊢
  generalize d.emitted port = puts at step
  cases step with
  | nodeSend => exact List.length_set
  | nodeHandle => exact List.length_set
  | _ => rfl

/-- What is not a step of the main loop leaves the device in its place. -/
theorem place_kept [DecidableEq α] (app : Application φ E) (port : Port 8 E) (d : Device α φ E)
    {e : DeviceEvent α} (other : e ≠ .main) :
    (d.step app port e).passes = d.passes ∧ (d.step app port e).phase = d.phase ∧
      (d.step app port e).nodes.length = d.nodes.length ∧
      (d.step app port e).sdo.core = d.sdo.core := by
  cases e with
  | interrupt attr frame =>
      change (d.onFrameReceived attr frame).passes = _ ∧ (d.onFrameReceived attr frame).phase = _ ∧
        (d.onFrameReceived attr frame).nodes.length = _ ∧ (d.onFrameReceived attr frame).sdo.core = _
      have step := d.interrupt_step attr frame
      generalize d.onFrameReceived attr frame = t at step ⊢
      cases step with
      | node => exact ⟨rfl, rfl, List.length_modify .., rfl⟩
      | sdo => exact ⟨rfl, rfl, rfl, (d.sdo.recv_kept attr frame).2.2.2⟩
      | _ => exact ⟨rfl, rfl, rfl, rfl⟩
  | main => exact absurd rfl other
  | advance time => exact ⟨rfl, rfl, List.length_map .., rfl⟩
  | _ => exact ⟨rfl, rfl, rfl, rfl⟩

theorem nodes_step [DecidableEq α] (app : Application φ E) (port : Port 8 E) (d : Device α φ E)
    (e : DeviceEvent α) :
    (d.step app port e).nodes.length = d.nodes.length := by
  by_cases main : e = .main
  · subst main
    exact work_nodes app port d
  · exact (place_kept app port d main).2.2.1

theorem work_now (app : Application φ E) (port : Port 8 E) (d : Device α φ E) :
    (d.work app port).now = d.now := by
  have step := d.main_step app port
  generalize d.work app port = t at step ⊢
  generalize d.emitted port = puts at step
  cases step with
  | _ => rfl

theorem now_step [DecidableEq α] (app : Application φ E) (port : Port 8 E) (d : Device α φ E)
    (e : DeviceEvent α) :
    d.now ≤ (d.step app port e).now := by
  cases e with
  | interrupt attr frame =>
      change d.now ≤ (d.onFrameReceived attr frame).now
      have step := d.interrupt_step attr frame
      generalize d.onFrameReceived attr frame = t at step ⊢
      cases step with
      | _ => exact le_rfl
  | main => exact (work_now app port d).ge
  | advance time => exact Int.le_add_of_nonneg_right (Int.natCast_nonneg time)
  | _ => exact le_rfl

/-- The phase is one of the pass. -/
theorem inside_step [DecidableEq α] (app : Application φ E) (port : Port 8 E) {d : Device α φ E}
    (inside : d.phase.place ≤ d.last) (e : DeviceEvent α) : (d.step app port e).phase.place ≤ (d.step app port e).last := by
  have length := nodes_step app port d e
  unfold last
  rw [length]
  by_cases main : e = .main
  · subst main
    change (d.work app port).phase.place ≤ d.last
    cases work_advances app port inside with
    | stays passes phase => rwa [phase]
    | next alive passes place inside => exact inside
    | wraps alive passes phase =>
        rw [phase]
        exact Nat.zero_le _
  · rw [(place_kept app port d main).2.1]
    exact inside

/-- How often the main loop has gone through a phase. -/
def turns (p : Phase) (d : Device α φ E) : Nat :=
  d.passes + if p.place < d.phase.place then 1 else 0

/-- Only a step that leaves the phase counts. -/
theorem turns_step [DecidableEq α] (app : Application φ E) (port : Port 8 E) {p : Phase} {d : Device α φ E}
    (inside : d.phase.place ≤ d.last) (known : p.place < d.last) (e : DeviceEvent α) :
    (e = .main ∧ d.sdo.core.fault = none ∧ d.phase = p ∧
        (d.step app port e).phase.place = p.place + 1 ∧
          (d.step app port e).turns p = d.turns p + 1) ∨
      (d.sdo.core.fault = none → d.phase = p → e = .main → p.Loops ∧
        (d.step app port e).phase = p) ∧
        (d.step app port e).turns p = d.turns p := by
  by_cases main : e = .main
  · subst main
    change (_ ∧ _ ∧ _ ∧ (d.work app port).phase.place = _ ∧ (d.work app port).turns p = _) ∨
      (_ → _ → _ → _ ∧ (d.work app port).phase = p) ∧ (d.work app port).turns p = _
    unfold turns
    cases work_advances app port inside with
    | stays passes phase why =>
        right
        rw [passes, phase]
        refine ⟨fun alive here _ => ⟨?_, here⟩, rfl⟩
        obtain fault | loops := why
        · exact absurd alive fault
        · exact here ▸ loops
    | next alive passes place =>
        rw [passes, place]
        by_cases here : d.phase = p
        · rw [here]
          exact .inl ⟨rfl, alive, rfl, rfl, by simp⟩
        · right
          have elsewhere : d.phase.place ≠ p.place := fun same => here (Phase.place_injective same)
          refine ⟨fun _ there => absurd there here, ?_⟩
          split <;> split <;> omega
    | wraps alive passes phase place =>
        right
        refine ⟨fun _ here => ?_, ?_⟩
        · rw [here] at place
          omega
        · rw [passes, phase, place, if_pos known]
          simp [Phase.place]
  · right
    obtain ⟨passes, phase, _⟩ := place_kept app port d main
    refine ⟨fun _ _ isMain => absurd isMain main, ?_⟩
    unfold turns
    rw [passes, phase]

/-- A step that polls a message goes through its phase. -/
theorem turns_polled [DecidableEq α] (app : Application φ E) (port : Port 8 E) {source : Source} (periodic : source ≠ .sdo)
    {d : Device α φ E} (inside : d.phase.place ≤ d.last) (known : source.phase.place < d.last)
    (e : DeviceEvent α) :
    (d.step app port e).turns source.phase =
      d.turns source.phase + (d.polled source e).toList.length := by
  obtain ⟨rfl, alive, here, _, next⟩ | ⟨elsewhere, same⟩ :=
    turns_step app port inside known e
  · have some : d.polled source (.main : DeviceEvent α) = some d.now := if_pos ⟨alive, here⟩
    rw [next, some]
    rfl
  · rw [same]
    cases turn : d.polled source e with
    | none => rfl
    | some now =>
        obtain ⟨isMain, alive, here, _⟩ := polled_some turn
        exact absurd (elsewhere alive here isMain).1 (source.phase_steps periodic)

end Device

namespace Setup

variable [DecidableEq α]

theorem inside_run (setup : Setup α φ E) (app : Application φ E) (port : Port 8 E)
    (schedule : List (DeviceEvent α)) :
    (setup.run app port schedule).phase.place ≤ (setup.run app port schedule).last ∧
      (setup.run app port schedule).nodes.length = setup.server.nodes.length := by
  apply Run.invariant fun d : Device α φ E =>
    d.phase.place ≤ d.last ∧ d.nodes.length = setup.server.nodes.length
  · exact ⟨Nat.zero_le _, List.length_mapIdx⟩
  · intro d e ⟨inside, length⟩
    exact ⟨Device.inside_step app port inside e, (Device.nodes_step app port d e).trans length⟩

omit [DecidableEq α] in
/-- The message of a known source is polled somewhere in the pass. -/
theorem place_lt_last (setup : Setup α φ E) {source : Source}
    (known : (setup.header source).isSome) :
    source.phase.place < 7 + 3 * setup.server.nodes.length := by
  cases source with
  | node k i =>
      by_cases inside : k < setup.server.nodes.length
      · simp only [Source.phase, Phase.place]
        omega
      · simp [header, inside] at known
  | _ =>
      simp only [Source.phase, Phase.place]
      omega

/-- Each periodic message is polled once in each pass of the main loop. -/
theorem polled_once_a_pass (setup : Setup α φ E) (app : Application φ E) (port : Port 8 E)
    {source : Source} (periodic : source ≠ .sdo) (known : (setup.header source).isSome)
    (schedule : List (DeviceEvent α)) :
    (setup.polls app port source schedule).length =
        (setup.run app port schedule).turns source.phase ∧
      (setup.polls app port source schedule).Pairwise (· ≤ ·) := by
  have place := setup.place_lt_last known
  suffices all : ((setup.polls app port source schedule).length =
        (setup.run app port schedule).turns source.phase ∧
      (setup.polls app port source schedule).Pairwise (· ≤ ·)) ∧
      (∀ t ∈ setup.polls app port source schedule, t ≤ (setup.run app port schedule).now) ∧
      (setup.run app port schedule).phase.place ≤ (setup.run app port schedule).last ∧
      (setup.run app port schedule).nodes.length = setup.server.nodes.length from all.1
  apply Run.traced_invariant fun (polls : List Int) (d : Device α φ E) =>
    (polls.length = d.turns source.phase ∧ polls.Pairwise (· ≤ ·)) ∧
      (∀ t ∈ polls, t ≤ d.now) ∧ d.phase.place ≤ d.last ∧
        d.nodes.length = setup.server.nodes.length
  · refine ⟨⟨?_, .nil⟩, nofun, Nat.zero_le _, List.length_mapIdx⟩
    change 0 = 0 + if source.phase.place < 0 then 1 else 0
    rw [if_neg (Nat.not_lt_zero _)]
  · rintro polls d e ⟨⟨count, sorted⟩, past, inside, length⟩
    have known : source.phase.place < d.last := by
      unfold Device.last at place ⊢
      rw [length]
      exact place
    have later := Device.now_step app port d e
    refine ⟨⟨?_, ?_⟩, ?_, Device.inside_step app port inside e, (Device.nodes_step app port d e).trans length⟩
    · rw [List.length_append, count, Device.turns_polled app port periodic inside known e]
    · apply List.pairwise_append.mpr
      refine ⟨sorted, ?_, ?_⟩
      · cases d.polled source e with
        | none => exact .nil
        | some now => exact List.pairwise_singleton _ _
      · intro t before now turn
        rw [(Device.polled_some (Option.mem_toList.mp turn)).2.2.2]
        exact past t before
    · intro t member
      obtain before | now := List.mem_append.mp member
      · exact (past t before).trans later
      · rw [(Device.polled_some (Option.mem_toList.mp now)).2.2.2]
        exact later

theorem polled_once_a_pass_heartbeat :
    (sample.polls .idle (F4.port F4.sample) .heartbeat (readingRun 40)).length =
        (sample.run .idle (F4.port F4.sample) (readingRun 40)).turns .heartbeat ∧
      (sample.polls .idle (F4.port F4.sample) .heartbeat (readingRun 40)).Pairwise (· ≤ ·) := by
  have periodic : Source.heartbeat ≠ .sdo := nofun
  exact polled_once_a_pass sample .idle (F4.port F4.sample) periodic rfl (readingRun 40)

/-! ## The order on the bus -/

end Setup

/-- The place of a message among those that are polled together. -/
def Source.index : Source → Nat
  | .tpdo i | .node _ i => i
  | _ => 0

/-- `a` is put before `b`: in an earlier pass, or earlier in the pass. The SDO service
    may put several frames in its phase; every other message is put once in a pass. -/
structure Put.Before (a b : Put) : Prop where
  time : a.time ≤ b.time
  pass : a.pass ≤ b.pass
  place : a.pass = b.pass → a.source.phase.place ≤ b.source.phase.place
  index : a.pass = b.pass → a.source.phase = b.source.phase →
    a.source.index < b.source.index ∨ a.source = .sdo ∧ b.source = .sdo

namespace Device

theorem puts_before {now : Int} {pass : Nat} {source : Nat → Source} (frames : List (Option CanFrame))
    (phase : ∀ i j, (source i).phase = (source j).phase) (index : ∀ i, (source i).index = i) :
    (puts now pass source frames).Pairwise Put.Before := by
  have places : (frames.zipIdx.map Prod.snd).Pairwise (· < ·) := by
    rw [List.zipIdx_map_snd]
    exact List.pairwise_lt_range'
  unfold puts
  apply List.pairwise_filterMap.mpr
  apply (List.pairwise_map.mp places).imp
  intro a b first put made put' made'
  obtain ⟨f, _, rfl⟩ := Option.map_eq_some_iff.mp made
  obtain ⟨f', _, rfl⟩ := Option.map_eq_some_iff.mp made'
  refine ⟨le_rfl, le_rfl, fun _ => (congrArg Phase.place (phase ..)).le, fun _ _ => .inl ?_⟩
  rw [index, index]
  exact first

theorem puts_single {now : Int} {pass : Nat} (source : Nat → Source) (frame : Option CanFrame) :
    (puts now pass source [frame]).Pairwise Put.Before := by
  cases frame with
  | none => exact .nil
  | some f => exact List.pairwise_singleton _ _

/-- Frames of one step are put in order. -/
theorem emitted_before (app : Application φ E) (d : Device α φ E) :
    (d.emitted port).Pairwise Put.Before := by
  have step := d.main_step app port
  generalize d.work app port = t at step
  generalize d.emitted port = puts at step ⊢
  cases step with
  | heartbeat => exact puts_single _ _
  | sync => exact puts_single _ _
  | tpdo => exact puts_before _ (fun _ _ => rfl) fun _ => rfl
  | nodeSend => exact puts_before _ (fun _ _ => rfl) fun _ => rfl
  | sdoSend =>
      obtain ⟨_, puts⟩ := d.sdo.main_puts port
      generalize (d.sdo.main port).putFrames.drop d.sdo.putFrames.length = frames at puts ⊢
      cases puts with
      | nothing => exact .nil
      | response payload => exact List.pairwise_singleton _ _
  | _ => exact .nil

/-- The bus is in order, and the device is not behind it. -/
structure InOrder (d : Device α φ E) : Prop where
  sorted : d.bus.Pairwise Put.Before
  reached : ∀ put ∈ d.bus, put.time ≤ d.now ∧ put.pass ≤ d.passes ∧
    (put.pass = d.passes → put.source.phase.place ≤ d.phase.place ∧
      (put.source.phase = d.phase → put.source = .sdo))
  inside : d.phase.place ≤ d.last

theorem InOrder.step [DecidableEq α] (app : Application φ E) (port : Port 8 E) {d : Device α φ E}
    (ordered : InOrder d) (e : DeviceEvent α) : InOrder (d.step app port e) := by
  have inside := inside_step app port ordered.inside e
  have now := now_step app port d e
  by_cases main : e = .main
  · subst main
    have bus : (d.step app port .main).bus = d.bus ++ d.emitted port := rfl
    -- Where the old and the new frames stand, seen from the device before the step.
    have reached : ∀ put ∈ d.bus ++ d.emitted port,
        put.time ≤ d.now ∧ put.pass ≤ d.passes ∧
          (put.pass = d.passes → put.source.phase.place ≤ d.phase.place) := by
      intro put member
      obtain old | new := List.mem_append.mp member
      · obtain ⟨time, pass, place⟩ := ordered.reached put old
        exact ⟨time, pass, fun same => (place same).1⟩
      · obtain ⟨time, pass, _⟩ := emitted_tells app new
        obtain ⟨_, phase⟩ := emitted_phase app new
        rw [time, pass, phase]
        exact ⟨le_rfl, le_rfl, fun _ => le_rfl⟩
    refine ⟨?_, ?_, inside⟩
    · rw [bus]
      apply List.pairwise_append.mpr
      refine ⟨ordered.sorted, emitted_before app d, ?_⟩
      intro a old b new
      obtain ⟨time, pass, place⟩ := ordered.reached a old
      obtain ⟨time', pass', _⟩ := emitted_tells app new
      obtain ⟨_, phase⟩ := emitted_phase app new
      constructor
      · rwa [time']
      · rwa [pass']
      · intro same
        rw [← phase]
        exact (place (same.trans pass')).1
      · intro same together
        have first := (place (same.trans pass')).2 (together.trans phase.symm)
        refine .inr ⟨first, b.source.eq_sdo ?_⟩
        rw [← together, first]
        rfl
    · intro put member
      rw [bus] at member
      obtain ⟨time, pass, place⟩ := reached put member
      refine ⟨time.trans now, ?_⟩
      change put.pass ≤ (d.work app port).passes ∧ (put.pass = (d.work app port).passes →
        put.source.phase.place ≤ (d.work app port).phase.place ∧
          (put.source.phase = (d.work app port).phase → put.source = .sdo))
      cases work_advances app port ordered.inside with
      | stays passes phase why =>
          rw [passes, phase]
          refine ⟨pass, fun same => ⟨place same, fun here => ?_⟩⟩
          obtain old | new := List.mem_append.mp member
          · exact ((ordered.reached put old).2.2 same).2 here
          · by_contra periodic
            obtain fault | loops := why
            · exact fault (emitted_phase app new).1
            · exact put.source.phase_steps periodic (here ▸ loops)
      | next alive passes next =>
          rw [passes, next]
          refine ⟨pass, fun same => ⟨(place same).trans (Nat.le_succ _), fun here => ?_⟩⟩
          have before := place same
          rw [here, next] at before
          omega
      | wraps alive passes =>
          rw [passes]
          exact ⟨by omega, fun same => absurd same (by omega)⟩
  · obtain ⟨passes, phase, _⟩ := place_kept app port d main
    have bus : (d.step app port e).bus = d.bus := by
      rw [bus_step]
      cases e with
      | main => exact absurd rfl main
      | _ => exact List.append_nil _
    refine ⟨?_, ?_, inside⟩
    · rw [bus]
      exact ordered.sorted
    · intro put member
      rw [bus] at member
      obtain ⟨time, pass, place⟩ := ordered.reached put member
      rw [passes, phase]
      exact ⟨time.trans now, pass, place⟩

end Device

namespace Setup

variable [DecidableEq α]

theorem inOrder_run (setup : Setup α φ E) (app : Application φ E) (port : Port 8 E)
    (schedule : List (DeviceEvent α)) : (setup.run app port schedule).InOrder := by
  have start : setup.device.InOrder := ⟨.nil, nofun, Nat.zero_le _⟩
  exact Run.invariant Device.InOrder start (fun _ e ordered => ordered.step app port e) schedule

/-- Frames are on the bus in the order of time, passes and phases, and within a phase in
    the order of the messages: no message but an SDO response is put twice in a pass. -/
theorem bus_in_order (setup : Setup α φ E) (app : Application φ E) (port : Port 8 E)
    (schedule : List (DeviceEvent α)) :
    (setup.run app port schedule).bus.Pairwise Put.Before :=
  (setup.inOrder_run app port schedule).sorted

end Setup

/-! ## The load of a pass -/

/-- Out of its handling phase the service moves responses from its queue to the bus. -/
theorem State.main_sends (port : Port 8 E) {s : State α E} (quiet : s.stage ≠ .handle) :
    (s.main port).putFrames.length + (s.main port).sdo.tsdoQueue.items.length =
      s.putFrames.length + s.sdo.tsdoQueue.items.length := by
  have step := s.main_step port
  generalize s.main port = t at step
  cases step with
  | send payload at_stage front =>
      have queue := s.sdo.tsdoQueue.items_of_front front
      simp only [sendIteration, SdoService.sendIteration, List.length_append, queue,
        List.length_cons, List.length_nil]
      omega
  | handle request at_stage => exact absurd at_stage quiet
  | _ => rfl

theorem State.recv_tsdoQueue [DecidableEq α] (s : State α E) (attr : α) (frame : CanFrame) :
    (s.recv attr frame).sdo.tsdoQueue = s.sdo.tsdoQueue := by
  have step := s.recv_step attr frame
  generalize s.recv attr frame = t at step
  cases step with
  | _ => rfl

namespace Device

/-- Responses that the frames of a pass carry. -/
def responses (pass : Nat) (puts : List Put) : Nat :=
  puts.countP fun put => put.source = .sdo ∧ put.pass = pass

theorem responses_append (pass : Nat) (puts more : List Put) :
    responses pass (puts ++ more) = responses pass puts + responses pass more :=
  List.countP_append

/-- A step of an early phase puts the responses that leave the queue. -/
theorem responses_early [DecidableEq α] (app : Application φ E) (port : Port 8 E) {d : Device α φ E}
    (synced : Synced d) (early : d.phase.place ≤ Phase.sdoSend.place) :
    responses d.passes (d.emitted port) + (d.work app port).sdo.sdo.tsdoQueue.items.length =
      d.sdo.sdo.tsdoQueue.items.length := by
  have count : responses d.passes (d.emitted port) =
      ((d.emitted port).filter (·.source = .sdo)).length := by
    rw [← List.countP_eq_length_filter]
    apply List.countP_congr
    intro put member
    simp [(emitted_tells app member).2.1]
  have put := congrArg List.length (emitted_sdo app port synced)
  rw [List.length_append, List.length_map, ← count] at put
  have balance : (d.work app port).sdo.putFrames.length +
      (d.work app port).sdo.sdo.tsdoQueue.items.length =
        d.sdo.putFrames.length + d.sdo.sdo.tsdoQueue.items.length := by
    have step := d.main_step app port
    generalize d.work app port = t at step ⊢
    generalize d.emitted port = puts at step
    cases step with
    | sdoSend alive at_phase =>
        have quiet : d.sdo.stage ≠ .handle := by
          intro handling
          simp [Synced, at_phase, handling] at synced
        exact State.main_sends port quiet
    | sdoHandle alive at_phase =>
        rw [at_phase] at early
        exact absurd early (by decide)
    | passed alive at_phase =>
        rw [at_phase] at early
        simp only [Phase.place] at early
        omega
    | _ => rfl
  omega

/-- A step of a later phase puts none. -/
theorem responses_late (app : Application φ E) {d : Device α φ E}
    (late : Phase.sdoSend.place < d.phase.place) : responses d.passes (d.emitted port) = 0 := by
  apply List.countP_eq_zero.mpr
  intro put member sdo
  have source := (of_decide_eq_true sdo).1
  obtain ⟨_, phase⟩ := emitted_phase app member
  rw [phase, source] at late
  exact absurd late (lt_irrefl _)

/-- No pass has put more responses than the queue holds, nor will the current one. -/
structure Paced (d : Device α φ E) : Prop where
  ordered : InOrder d
  synced : Synced d
  passed : ∀ pass, responses pass d.bus ≤ 16
  ahead : d.phase.place ≤ Phase.sdoSend.place →
    responses d.passes d.bus + d.sdo.sdo.tsdoQueue.items.length ≤ 16

theorem Paced.step [DecidableEq α] (app : Application φ E) (port : Port 8 E) {d : Device α φ E}
    (paced : Paced d) (e : DeviceEvent α) :
    Paced (d.step app port e) := by
  have ordered := paced.ordered.step app port e
  have synced := paced.synced.step app port e
  by_cases main : e = .main
  · subst main
    have now : responses d.passes (d.bus ++ d.emitted port) ≤ 16 := by
      rw [responses_append]
      by_cases early : d.phase.place ≤ Phase.sdoSend.place
      · have balance := responses_early app port paced.synced early
        have ahead := paced.ahead early
        omega
      · rw [responses_late app (not_le.mp early)]
        exact paced.passed d.passes
    refine ⟨ordered, synced, ?_, ?_⟩
    · intro pass
      change responses pass (d.bus ++ d.emitted port) ≤ 16
      by_cases current : pass = d.passes
      · rwa [current]
      · have other : responses pass (d.emitted port) = 0 := by
          apply List.countP_eq_zero.mpr
          intro put member here
          exact current ((of_decide_eq_true here).2.symm.trans (emitted_tells app member).2.1)
        rw [responses_append, other]
        exact paced.passed pass
    · change (d.work app port).phase.place ≤ _ →
        responses (d.work app port).passes (d.bus ++ d.emitted port) +
          (d.work app port).sdo.sdo.tsdoQueue.items.length ≤ 16
      intro early
      cases work_advances app port paced.ordered.inside with
      | stays passes phase =>
          rw [phase] at early
          have balance := responses_early app port paced.synced early
          have ahead := paced.ahead early
          rw [passes, responses_append]
          omega
      | next alive passes next =>
          have before : d.phase.place ≤ Phase.sdoSend.place := by omega
          have balance := responses_early app port paced.synced before
          have ahead := paced.ahead before
          rw [passes, responses_append]
          omega
      | wraps alive passes =>
          have none : responses (d.passes + 1) (d.bus ++ d.emitted port) = 0 := by
            apply List.countP_eq_zero.mpr
            intro put member here
            have pass := (of_decide_eq_true here).2
            obtain old | new := List.mem_append.mp member
            · have reached := (paced.ordered.reached put old).2.1
              omega
            · have same := (emitted_tells app new).2.1
              omega
          rw [passes, none, Nat.zero_add]
          exact (d.work app port).sdo.sdo.tsdoQueue.bounded
  · obtain ⟨passes, phase, _⟩ := place_kept app port d main
    have same : (d.step app port e).bus = d.bus ∧
        (d.step app port e).sdo.sdo.tsdoQueue = d.sdo.sdo.tsdoQueue := by
      rw [bus_step]
      cases e with
      | interrupt attr frame =>
          refine ⟨List.append_nil _, ?_⟩
          change (d.onFrameReceived attr frame).sdo.sdo.tsdoQueue = _
          have step := d.interrupt_step attr frame
          generalize d.onFrameReceived attr frame = t at step ⊢
          cases step with
          | sdo => exact d.sdo.recv_tsdoQueue attr frame
          | _ => rfl
      | main => exact absurd rfl main
      | _ => exact ⟨List.append_nil _, rfl⟩
    refine ⟨ordered, synced, ?_, ?_⟩
    · rw [same.1]
      exact paced.passed
    · rw [same.1, same.2, passes, phase]
      exact paced.ahead

end Device

namespace Setup

/-- The periodic messages of the device. -/
def periodic (setup : Setup α φ E) : List Source :=
  .heartbeat :: .sync :: (List.range 4).map .tpdo ++
    (List.range setup.server.nodes.length).flatMap fun k =>
      (List.range (setup.txMessages k).length).map (.node k)

theorem mem_periodic {setup : Setup α φ E} {source : Source} (other : source ≠ .sdo)
    (known : (setup.header source).isSome) : source ∈ setup.periodic := by
  cases source with
  | heartbeat => exact .head _
  | sync => exact .tail _ (.head _)
  | tpdo i =>
      have inside : i < 4 := by
        have index := List.getElem?_eq_some_iff.mp (Option.some_get known).symm |>.1
        exact index
      simp [periodic, inside]
  | sdo => exact absurd rfl other
  | node k i =>
      simp only [header] at known
      split at known
      · have index := List.getElem?_eq_some_iff.mp (Option.some_get known).symm |>.1
        rw [List.length_map] at index
        simp [periodic, *]
      · simp at known

variable [DecidableEq α]

theorem paced_run (setup : Setup α φ E) (app : Application φ E) (port : Port 8 E)
    (schedule : List (DeviceEvent α)) : (setup.run app port schedule).Paced := by
  have start : setup.device.Paced :=
    ⟨⟨.nil, nofun, Nat.zero_le _⟩, rfl, fun _ => Nat.zero_le _, fun _ => Nat.zero_le _⟩
  exact Run.invariant Device.Paced start (fun _ e paced => paced.step app port e) schedule

/-- The periodic messages that a pass puts differ. -/
theorem periodic_nodup (setup : Setup α φ E) (app : Application φ E) (port : Port 8 E)
    (schedule : List (DeviceEvent α)) (pass : Nat) :
    (((setup.run app port schedule).bus.filter fun put =>
      put.pass = pass ∧ put.source ≠ .sdo).map (·.source)).Nodup := by
  apply List.pairwise_map.mpr
  apply ((setup.inOrder_run app port schedule).sorted.filter _).imp_of_mem
  intro a b member member' before same
  have first := of_decide_eq_true (List.mem_filter.mp member).2
  have second := of_decide_eq_true (List.mem_filter.mp member').2
  obtain less | sdo := before.index (first.1.trans second.1.symm) (congrArg Source.phase same)
  · rw [same] at less
    exact absurd less (lt_irrefl _)
  · exact first.2 sdo.1

/-- A pass puts each periodic message at most once, and as many SDO responses as their
    queue holds: its load is bounded by the configuration, whatever clients send. -/
theorem pass_load (setup : Setup α φ E) (app : Application φ E) (port : Port 8 E)
    (schedule : List (DeviceEvent α)) (pass : Nat) :
    ((setup.run app port schedule).bus.filter (·.pass = pass)).length ≤
      22 + ((List.range setup.server.nodes.length).map fun k => (setup.txMessages k).length).sum := by
  have responses := (setup.paced_run app port schedule).passed pass
  have few : ((setup.run app port schedule).bus.filter fun put =>
      put.pass = pass ∧ put.source ≠ .sdo).length ≤ setup.periodic.length := by
    rw [← List.length_map (f := Put.source)]
    apply (List.subperm_of_subset (setup.periodic_nodup app port schedule pass) ?_).length_le
    intro source member
    obtain ⟨put, inside, rfl⟩ := List.mem_map.mp member
    obtain ⟨onBus, this⟩ := List.mem_filter.mp inside
    apply mem_periodic (of_decide_eq_true this).2
    rw [setup.put_header app port schedule onBus]
    rfl
  have sources : setup.periodic.length =
      6 + ((List.range setup.server.nodes.length).map fun k => (setup.txMessages k).length).sum := by
    simp [periodic, List.length_flatMap]
    omega
  have split : ((setup.run app port schedule).bus.filter (·.pass = pass)).length =
      Device.responses pass (setup.run app port schedule).bus +
        ((setup.run app port schedule).bus.filter fun put =>
          put.pass = pass ∧ put.source ≠ .sdo).length := by
    unfold Device.responses
    generalize (setup.run app port schedule).bus = puts
    induction puts with
    | nil => rfl
    | cons put puts ih =>
        by_cases here : put.pass = pass
        · by_cases sdo : put.source = .sdo
          · simp [here, sdo] at ih ⊢
            omega
          · simp [here, sdo] at ih ⊢
            omega
        · simp [here] at ih ⊢
          omega
  omega

end Setup

end Ucanopen.F4
