import Ucanopen.F4.DeviceProgress
import Ucanopen.F4.Supervision

/-! # When a stored frame is handled

A run of a receiver's loop goes over all messages. What a message has stored when the
run starts is handled when it ends, and what is stored behind the run is handled by the
next one.
-/

namespace Ucanopen.F4

open Run Supervision

variable {n : Nat} {α φ E : Type}

/-! ## Runs of the loop -/

/-- Runs of the loop that have started. -/
def started (s : Reception.State n α φ) : Nat := s.log.countP (· = .passStart)

/-- Runs of the loop that have ended. -/
def ended (s : Reception.State n α φ) : Nat := s.log.countP (· = .passEnd)

/-- The frames of slot `j` that `b` had stored are handled, or a run of the loop that
    started later is about to handle them. -/
structure Caught (b s : Reception.State n α φ) (j : Fin n) : Prop where
  exactly : Exactly s j
  handler : (s.table j).handler.isSome = true
  grown : b.stored j <+: s.stored j
  runs : started s = ended s + if s.point = .outside then 0 else 1
  caught : started s ≤ started b ∨
    started s = started b + 1 ∧ s.point ≠ .outside ∧ ¬ Past j s.point ∨
      (b.stored j).length ≤ (s.completed j).length

namespace Caught

variable {b s t : Reception.State n α φ} {j : Fin n}

/-- A slot that owes nothing has handled all it stored. -/
theorem all_completed (exactly : Exactly s j) (nothing : owed s j = []) :
    (s.completed j).length = (s.stored j).length := by
  have once := congrArg List.length exactly.once
  simpa [nothing] using once

theorem log_grows (j : Fin n) {obs : List (Reception.Obs n)} (log : t.log = s.log ++ obs) :
    s.stored j <+: t.stored j ∧ s.completed j <+: t.completed j := by
  unfold Reception.State.stored Reception.State.completed
  rw [log, List.filterMap_append, List.filterMap_append]
  exact ⟨List.prefix_append .., List.prefix_append ..⟩

/-- A step within a run, or outside all. It passes the slot only if the slot owes nothing. -/
theorem frame (inv : Caught b s j) (exactly : Exactly t j)
    (handler : (t.table j).handler = (s.table j).handler) {obs : List (Reception.Obs n)}
    (log : t.log = s.log ++ obs) (within : ∀ o ∈ obs, o ≠ .passStart ∧ o ≠ .passEnd)
    (outside : t.point = .outside ↔ s.point = .outside)
    (passes : ¬ Past j s.point → Past j t.point → owed t j = []) : Caught b t j := by
  have starts : started t = started s := by
    have none : obs.countP (· = .passStart) = 0 :=
      List.countP_eq_zero.mpr fun o member => by simpa using (within o member).1
    rw [started, log, List.countP_append, none]
    rfl
  have ends : ended t = ended s := by
    have none : obs.countP (· = .passEnd) = 0 :=
      List.countP_eq_zero.mpr fun o member => by simpa using (within o member).2
    rw [ended, log, List.countP_append, none]
    rfl
  obtain ⟨stored, completed⟩ := log_grows j log
  have grown := inv.grown.trans stored
  refine ⟨exactly, by rw [handler]; exact inv.handler, grown, ?_, ?_⟩
  · rw [starts, ends, inv.runs]
    simp only [outside]
  · rw [starts]
    obtain before | ⟨next, inside, ahead⟩ | done := inv.caught
    · exact .inl before
    · by_cases past : Past j t.point
      · right; right
        rw [all_completed exactly (passes ahead past)]
        exact grown.length_le
      · exact .inr (.inl ⟨next, fun out => inside (outside.mp out), past⟩)
    · exact .inr (.inr (done.trans completed.length_le))

theorem main (inv : Caught b s j) (step : Reception.State.MainStep s t) : Caught b t j := by
  have exactly := inv.exactly.main step
  cases step with
  | start at_point =>
      have starts : started { s with point := .goto 0, log := s.log ++ [.passStart] } =
          started s + 1 := by simp [started]
      have ends : ended { s with point := .goto 0, log := s.log ++ [.passStart] } = ended s := by
        simp [ended]
      have runs := inv.runs
      rw [if_pos at_point] at runs
      have inside := goto_ne_outside (n := n) 0
      obtain ⟨stored, completed⟩ := log_grows (s := s)
        (t := { s with point := .goto 0, log := s.log ++ [.passStart] }) j rfl
      refine ⟨exactly, inv.handler, inv.grown.trans stored, ?_, ?_⟩
      · rw [starts, ends, if_neg inside, runs]
      · have ahead : ¬ Past j (.goto 0) := fun past =>
          absurd (past_goto.mp past) (Nat.not_lt_zero _)
        rw [starts]
        obtain before | ⟨_, within, _⟩ | done := inv.caught
        · by_cases last : started s = started b
          · exact .inr (.inl ⟨by rw [last], inside, ahead⟩)
          · exact .inl (by omega)
        · exact absurd at_point within
        · exact .inr (.inr (done.trans completed.length_le))
  | skip i at_point idle =>
      refine inv.frame exactly rfl (List.append_nil _).symm nofun
        (by simp [at_point, goto_ne_outside]) ?_
      intro ahead past
      rw [at_point] at ahead
      have same : i = j := Fin.ext (by
        have reached := past_goto.mp past
        have before : ¬ j < i := ahead
        omega)
      subst same
      have free : (s.table i).unhandled = false := by simpa [inv.handler] using idle
      simp [owed, free]
  | invoke i at_point =>
      refine inv.frame exactly rfl rfl (by simp) (by simp [at_point]) ?_
      intro ahead past
      rw [at_point] at ahead
      exact absurd past ahead
  | read i bytes at_point =>
      refine inv.frame exactly rfl (List.append_nil _).symm nofun (by simp [at_point]) ?_
      intro ahead past
      rw [at_point] at ahead
      exact absurd past ahead
  | complete i bytes at_point =>
      refine inv.frame exactly rfl rfl (by simp) (by simp [at_point]) ?_
      intro ahead past
      rw [at_point] at ahead
      exact absurd past ahead
  | clear i at_point =>
      refine inv.frame exactly ?_ (List.append_nil _).symm nofun
        (by simp [at_point, goto_ne_outside]) ?_
      · by_cases same : j = i
        · subst same
          simp
        · simp [same]
      · intro ahead past
        rw [at_point] at ahead
        have same : i = j := Fin.ext (by
          have reached := past_goto.mp past
          have before : ¬ j < i := ahead
          omega)
        subst same
        simp [owed]
  | finish at_point =>
      have starts : started { s with point := .outside, log := s.log ++ [.passEnd] } =
          started s := by simp [started]
      have ends : ended { s with point := .outside, log := s.log ++ [.passEnd] } =
          ended s + 1 := by simp [ended]
      have runs := inv.runs
      rw [if_neg (by simp [at_point])] at runs
      obtain ⟨stored, completed⟩ := log_grows (s := s)
        (t := { s with point := .outside, log := s.log ++ [.passEnd] }) j rfl
      refine ⟨exactly, inv.handler, inv.grown.trans stored, ?_, ?_⟩
      · rw [starts, ends, runs]
        rfl
      · rw [starts]
        obtain before | ⟨_, _, ahead⟩ | done := inv.caught
        · exact .inl before
        · rw [at_point] at ahead
          exact absurd trivial ahead
        · exact .inr (.inr (done.trans completed.length_le))

theorem step [DecidableEq α] {reports : Bool} (inv : Caught b s j) (e : Reception.Event α) :
    Caught b (s.step (recvLocked reports) e) j := by
  have exactly : Exactly (s.step (recvLocked reports) e) j := inv.exactly.step e
  cases e with
  | recv attr frame =>
      change Exactly (s.recv (recvLocked reports) attr frame) j at exactly
      change Caught b (s.recv (recvLocked reports) attr frame) j
      have step := recv_step reports s attr frame
      generalize s.recv (recvLocked reports) attr frame = t at step exactly
      cases step with
      | mismatch => exact inv
      | refused i => exact inv.frame exactly rfl rfl (by simp) Iff.rfl fun ahead past => absurd past ahead
      | stored i =>
          refine inv.frame exactly ?_ rfl (by simp) Iff.rfl fun ahead past => absurd past ahead
          by_cases same : j = i
          · subst same
            simp
          · simp [same]
  | main => exact inv.main s.main_step
  | advance time => exact ⟨exactly, inv.handler, inv.grown, inv.runs, inv.caught⟩

/-- A run that starts and ends after `b` handles what `b` had stored. -/
theorem handled (inv : Caught b s j) (passed : started b < ended s) :
    (b.stored j).map Reception.bytesOf <+: s.completed j := by
  have runs := inv.runs
  have done : (b.stored j).length ≤ (s.completed j).length := by
    obtain before | ⟨next, inside, _⟩ | done := inv.caught
    · omega
    · rw [if_neg inside] at runs
      omega
    · exact done
  apply List.prefix_of_prefix_length_le (inv.grown.map Reception.bytesOf)
  · rw [← inv.exactly.once]
    exact List.prefix_append ..
  · simpa using done

theorem init {table : Reception.Table n α φ} (idle : ∀ i, (table i).unhandled = false)
    (now : Int) (wants : (table j).handler.isSome = true) :
    Caught (.init table now) (.init table now) j :=
  ⟨Exactly.init idle now j, wants, List.prefix_rfl, rfl, .inl le_rfl⟩

/-- Everything can be looked at from here on. -/
theorem restart (inv : Caught b s j) : Caught s s j :=
  ⟨inv.exactly, inv.handler, List.prefix_rfl, inv.runs, .inl le_rfl⟩

theorem run [DecidableEq α] (reports : Bool) (inv : Caught b s j)
    (events : List (Reception.Event α)) :
    Caught b (Run.run (Reception.State.step (recvLocked reports)) s events) j :=
  Run.invariant (fun s => Caught b s j) inv (fun _ e inv => inv.step e) events

end Caught

/-! ## Turns of the main loop -/

theorem main_ended (s : Reception.State n α φ) :
    ended s.main = ended s + if s.main.point = .outside then 1 else 0 := by
  have step := s.main_step
  generalize s.main = t at step
  cases step with
  | start | skip | clear => simp [ended, goto_ne_outside]
  | _ => simp [ended]

theorem other_ended [DecidableEq α] (reports : Bool) (s : Reception.State n α φ)
    {e : Reception.Event α} (other : e ≠ .main) :
    ended (s.step (recvLocked reports) e) = ended s ∧
      (s.step (recvLocked reports) e).point = s.point := by
  cases e with
  | recv attr frame =>
      change ended (s.recv (recvLocked reports) attr frame) = _ ∧
        (s.recv (recvLocked reports) attr frame).point = _
      have step := recv_step reports s attr frame
      generalize s.recv (recvLocked reports) attr frame = t at step
      cases step with
      | _ => simp [ended]
  | main => exact absurd rfl other
  | advance time => exact ⟨rfl, rfl⟩

/-- A receiver whose loop runs in a phase has run as often as the phase was left. -/
structure InTurn (p : Phase) (d : Device α φ E) (rx : Reception.State n α φ) : Prop where
  ended : ended rx = d.turns p
  outside : d.phase ≠ p → rx.point = .outside

theorem others_ended [DecidableEq α] (reports : Bool) {s : Reception.State n α φ}
    {events : List (Reception.Event α)} (others : ∀ e ∈ events, e ≠ .main) :
    ended (Run.run (Reception.State.step (recvLocked reports)) s events) = ended s ∧
      (Run.run (Reception.State.step (recvLocked reports)) s events).point = s.point := by
  induction events generalizing s with
  | nil => exact ⟨rfl, rfl⟩
  | cons e es ih =>
      obtain ⟨same, point⟩ := other_ended reports s (others e (.head _))
      obtain ⟨later, later'⟩ := ih (s := s.step (recvLocked reports) e)
        fun e' member => others e' (.tail _ member)
      exact ⟨later.trans same, later'.trans point⟩

theorem InTurn.step [DecidableEq α] {app : Application φ E} {port : Port 8 E} {p q : Phase}
    {owner : FrameReceiver} {reports : Bool} {d : Device α φ E} {rx : Reception.State n α φ}
    (inv : InTurn p d rx) (inside : d.phase.place ≤ d.last) (known : p.place < d.last)
    (next : q.place = p.place + 1)
    (turn : d.sdo.core.fault = none → d.phase = p →
      (d.work app port).phase = if rx.main.point = .outside then q else p)
    (e : DeviceEvent α) :
    InTurn p (d.step app port e)
      (Run.run (Reception.State.step (recvLocked reports)) rx (d.sees owner p e)) := by
  have turns := Device.turns_step app port inside known e
  by_cases here : e = .main ∧ d.sdo.core.fault = none ∧ d.phase = p
  · obtain ⟨rfl, alive, at_phase⟩ := here
    have sees : d.sees owner p (.main : DeviceEvent α) = [.main] := if_pos ⟨alive, at_phase⟩
    have phase : (d.step app port .main).phase = if rx.main.point = .outside then q else p :=
      turn alive at_phase
    have differ : q ≠ p := by
      rintro rfl
      omega
    rw [sees]
    change InTurn p _ rx.main
    by_cases out : rx.main.point = .outside
    · rw [if_pos out] at phase
      obtain ⟨_, _, _, _, turned⟩ | ⟨stays, _⟩ := turns
      · refine ⟨?_, fun _ => out⟩
        rw [main_ended, if_pos out, inv.ended, turned]
      · exact absurd (phase.symm.trans (stays alive at_phase rfl).2) differ
    · rw [if_neg out] at phase
      obtain ⟨_, _, _, place, _⟩ | ⟨_, same⟩ := turns
      · rw [phase] at place
        omega
      · refine ⟨?_, fun elsewhere => absurd phase elsewhere⟩
        rw [main_ended, if_neg out, inv.ended, same, Nat.add_zero]
  · have others : ∀ x ∈ d.sees owner p e, x ≠ .main := by
      intro x member
      cases e with
      | interrupt attr frame =>
          simp only [Device.sees] at member
          split at member
          · rw [List.mem_singleton.mp member]
            simp
          · exact absurd member List.not_mem_nil
      | main =>
          simp only [Device.sees] at member
          split at member
          · exact absurd ⟨rfl, ‹_›⟩ here
          · exact absurd member List.not_mem_nil
      | advance time =>
          rw [List.mem_singleton.mp member]
          simp
      | _ => exact absurd member List.not_mem_nil
    obtain ⟨same, point⟩ := others_ended reports (s := rx) others
    obtain ⟨rfl, alive, at_phase, _⟩ | ⟨_, kept⟩ := turns
    · exact absurd ⟨rfl, alive, at_phase⟩ here
    · refine ⟨same.trans (inv.ended.trans kept.symm), fun elsewhere => point.trans ?_⟩
      apply inv.outside
      rintro rfl
      by_cases main : e = .main
      · subst main
        have stopped : d.work app port = d := by
          unfold Device.work
          cases fault : d.sdo.core.fault with
          | some f => rfl
          | none => exact absurd ⟨rfl, fault, rfl⟩ here
        have phase : (d.work app port).phase = d.phase := by rw [stopped]
        exact elsewhere phase
      · exact elsewhere (Device.place_kept app port d main).2.1

/-- The next run of the loop that starts is the one that counts. -/
theorem InTurn.started_le {p : Phase} {d : Device α φ E} {rx : Reception.State n α φ}
    {j : Fin n} (turn : InTurn p d rx) (caught : Caught rx rx j) :
    started rx ≤ d.turns p + if d.phase = p then 1 else 0 := by
  rw [caught.runs, turn.ended]
  by_cases at_phase : d.phase = p
  · rw [if_pos at_phase]
    split <;> omega
  · rw [if_pos (turn.outside at_phase), if_neg at_phase]

namespace Setup

variable [DecidableEq α] (app : Application φ E) (port : Port 8 E)

theorem rpdo_inTurn (setup : Setup α φ E) (schedule : List (DeviceEvent α)) :
    InTurn .rpdoHandle (setup.run app port schedule) (setup.run app port schedule).rpdo := by
  induction schedule using List.reverseRecOn with
  | nil => exact ⟨rfl, fun _ => rfl⟩
  | append_singleton es e ih =>
      have next : setup.run app port (es ++ [e]) = (setup.run app port es).step app port e :=
        run_append ..
      obtain ⟨inside, _⟩ := setup.inside_run app port es
      rw [next, Device.rpdo_follows]
      refine ih.step inside ?_ (q := .sdoHandle) rfl ?_ e
      · simp only [Phase.place, Device.last]
        omega
      · intro alive at_phase
        simp only [Device.work, alive, at_phase]

/-- The receiver of node `k`, as it runs alone. -/
def nodeAlone (setup : Setup α φ E) (k : Nat) (table : Reception.Table n α φ)
    (schedule : List (DeviceEvent α)) : Reception.State n α φ :=
  Run.run (Reception.State.step Node.recv) (.init table setup.now)
    (trace (Device.step app port) (Device.sees (.node k) (.nodeHandle k)) setup.device schedule)

theorem node_inTurn (setup : Setup α φ E) {k : Nat} {table : Reception.Table n α φ}
    (here : setup.server.nodes[k]? = some ⟨n, table⟩) (schedule : List (DeviceEvent α)) :
    InTurn (.nodeHandle k) (setup.run app port schedule)
      (setup.nodeAlone app port k table schedule) := by
  induction schedule using List.reverseRecOn with
  | nil => exact ⟨rfl, fun _ => rfl⟩
  | append_singleton es e ih =>
      have next : setup.run app port (es ++ [e]) = (setup.run app port es).step app port e :=
        run_append ..
      have alone : setup.nodeAlone app port k table (es ++ [e]) =
          Run.run (Reception.State.step Node.recv) (setup.nodeAlone app port k table es)
            ((setup.run app port es).sees (.node k) (.nodeHandle k) e) := by
        unfold nodeAlone
        rw [trace_append, run_append, trace, trace, List.append_nil]
        rfl
      obtain ⟨inside, length⟩ := setup.inside_run app port es
      have index := (List.getElem?_eq_some_iff.mp here).1
      rw [next, alone]
      refine ih.step inside ?_ (q := .nodeInspect k) ?_ ?_ e
      · simp only [Phase.place, Device.last, length]
        omega
      · simp only [Phase.place]
        omega
      · intro alive at_phase
        obtain ⟨node, there, same⟩ :=
          Option.map_eq_some_iff.mp (setup.node_run app port here es)
        have out : (node.rx.main.point = .outside) =
            ((setup.nodeAlone app port k table es).main.point = .outside) :=
          congrArg (fun r : Device.NodeRx α φ => r.2.main.point = .outside) same
        simp only [Device.work, alive, at_phase, there, out]

/-- Every frame that a message has stored is handled by the time the main loop has next
    gone through the receiver's phase, or once more if it is in this phase now. -/
theorem handled_in_time (setup : Setup α φ E) (before after : List (DeviceEvent α)) :
    let d := setup.run app port before
    let t := setup.run app port (before ++ after)
    (d.turns .rpdoHandle + (if d.phase = .rpdoHandle then 1 else 0) < t.turns .rpdoHandle →
      ∀ j, (setup.server.rpdoService j).handler.isSome = true →
        (d.rpdo.stored j).map Reception.bytesOf <+: t.rpdo.completed j) ∧
    ∀ k n (table : Reception.Table n α φ), setup.server.nodes[k]? = some ⟨n, table⟩ →
      d.turns (.nodeHandle k) + (if d.phase = .nodeHandle k then 1 else 0) <
          t.turns (.nodeHandle k) →
        ∃ rx rx' : Reception.State n α φ,
          d.nodeRx k = some ⟨n, rx⟩ ∧ t.nodeRx k = some ⟨n, rx'⟩ ∧
            ∀ j, (table j).handler.isSome = true →
              (rx.stored j).map Reception.bytesOf <+: rx'.completed j := by
  intro d t
  have split : t = Run.run (Device.step app port) d after := run_append ..
  constructor
  · intro passed j wants
    have turn := setup.rpdo_inTurn app port before
    have turn' := setup.rpdo_inTurn app port (before ++ after)
    have first : Caught (.init setup.server.rpdoService setup.now) d.rpdo j := by
      rw [setup.rpdo_run app port before]
      exact (Caught.init setup.rpdo_idle setup.now wants).run true _
    have later : Caught d.rpdo t.rpdo j := by
      rw [split, part_run Device.rpdo (Device.rpdo_follows app port)]
      exact first.restart.run true _
    apply later.handled
    calc started d.rpdo
        ≤ d.turns .rpdoHandle + if d.phase = .rpdoHandle then 1 else 0 :=
          turn.started_le first.restart
      _ < t.turns .rpdoHandle := passed
      _ = ended t.rpdo := turn'.ended.symm
  · intro k n table here passed
    have turn := setup.node_inTurn app port here before
    have turn' := setup.node_inTurn app port here (before ++ after)
    refine ⟨_, _, setup.node_run app port here before,
      setup.node_run app port here (before ++ after), fun j wants => ?_⟩
    have idle := (setup.nodesReady _ (List.mem_of_getElem? here)).1.idle
    have first : Caught (.init table setup.now) (setup.nodeAlone app port k table before) j :=
      (Caught.init idle setup.now wants).run false _
    have later : Caught (setup.nodeAlone app port k table before)
        (setup.nodeAlone app port k table (before ++ after)) j := by
      have more : setup.nodeAlone app port k table (before ++ after) =
          Run.run (Reception.State.step Node.recv) (setup.nodeAlone app port k table before)
            (trace (Device.step app port) (Device.sees (.node k) (.nodeHandle k)) d after) := by
        unfold nodeAlone
        rw [trace_append, run_append]
        rfl
      rw [more]
      exact first.restart.run false _
    apply later.handled
    calc started (setup.nodeAlone app port k table before)
        ≤ d.turns (.nodeHandle k) + if d.phase = .nodeHandle k then 1 else 0 :=
          turn.started_le first.restart
      _ < t.turns (.nodeHandle k) := passed
      _ = ended (setup.nodeAlone app port k table (before ++ after)) := turn'.ended.symm

theorem handled_in_time_listening :
    let d := listening.run .idle (F4.port F4.sample) listeningRun
    let t := listening.run .idle (F4.port F4.sample) (listeningRun ++ List.replicate 60 .main)
    (d.rpdo.stored 0).map Reception.bytesOf <+: t.rpdo.completed 0 ∧
      ∃ rx rx' : Reception.State 1 Nat Unit,
        d.nodeRx 0 = some ⟨1, rx⟩ ∧ t.nodeRx 0 = some ⟨1, rx'⟩ ∧
          ∀ j, (listeningNode j).handler.isSome = true →
            (rx.stored j).map Reception.bytesOf <+: rx'.completed j := by
  obtain ⟨rpdo, nodes⟩ := handled_in_time .idle (F4.port F4.sample) listening listeningRun
    (List.replicate 60 .main)
  exact ⟨rpdo (by decide +kernel) 0 (by decide),
    nodes 0 1 listeningNode listening_node (by decide +kernel)⟩

/-- There the RPDO has stored a frame. -/
example : (listening.run .idle (F4.port F4.sample) listeningRun).rpdo.stored 0 = [1] := by
  decide +kernel

end Setup

end Ucanopen.F4
