import Ucanopen.F4.Reception

/-! # Supervision of a node's messages

`Node::good` asks of every message that a frame of it was stored within its
timeout. A stored frame locks the slot until `handle` has called the handler; a
message that was registered without one is locked for good by its first frame.
-/

namespace Ucanopen.F4

open Reception

variable {n : Nat} {α φ : Type}

def Node.good (t : Table n α φ) (now : Int) : Bool :=
  (List.finRange n).all fun i => !decide (now > (t i).timepoint + (t i).timeout)

namespace Supervision

/-- What was seen of message `j` and of the passes of `handle`. -/
inductive Since where
  | never
  | arrived
  /-- A pass has started since the last arrival. -/
  | started
  /-- That pass is complete. -/
  | passed
  deriving Repr, DecidableEq

def Since.next (j : Fin n) (since : Since) : Obs n → Since
  | .stored i _ _ => if i = j then .arrived else since
  | .refused i _ _ => if i = j then .arrived else since
  | .passStart => if since = .arrived then .started else since
  | .passEnd => if since = .started then .passed else since
  | _ => since

def since (j : Fin n) (log : List (Obs n)) : Since := log.foldl (Since.next j) .never

@[simp] theorem since_append (j : Fin n) (log : List (Obs n)) (o : Obs n) :
    since j (log ++ [o]) = (since j log).next j o := by
  simp [since]

/-- When a frame of message `j` arrived. -/
@[simp] def arrivalOf (j : Fin n) : Obs n → Option Int
  | .stored i _ time => if i = j then some time else none
  | .refused i _ time => if i = j then some time else none
  | _ => none

/-- The registration of message `j`, whose time the table carries at the start, and
    the arrivals of its frames. -/
def signs (start : Table n α φ) (s : State n α φ) (j : Fin n) : List Int :=
  (start j).timepoint :: s.log.filterMap (arrivalOf j)

/-- Between two frames of a message, `handle` makes a complete pass. -/
def PassBetween [DecidableEq α] (s : State n α φ) : Event α → Prop
  | .recv attr _ => ∀ j, slotOf s.table attr = some j →
      since j s.log = .never ∨ since j s.log = .passed
  | _ => True

/-- A message without a handler gets no second frame. -/
def OnceWithoutHandler [DecidableEq α] (s : State n α φ) : Event α → Prop
  | .recv attr _ => ∀ j, slotOf s.table attr = some j → (s.table j).handler.isSome = false →
      since j s.log = .never
  | _ => True

instance [DecidableEq α] (s : State n α φ) : (e : Event α) → Decidable (PassBetween s e)
  | .recv attr _ =>
      inferInstanceAs (Decidable (∀ j, slotOf s.table attr = some j →
        since j s.log = .never ∨ since j s.log = .passed))
  | .main => .isTrue trivial
  | .advance _ => .isTrue trivial

instance [DecidableEq α] (s : State n α φ) : (e : Event α) → Decidable (OnceWithoutHandler s e)
  | .recv attr _ =>
      inferInstanceAs (Decidable (∀ j, slotOf s.table attr = some j →
        (s.table j).handler.isSome = false → since j s.log = .never))
  | .main => .isTrue trivial
  | .advance _ => .isTrue trivial

/-! ## The lock -/

/-- The loop is past slot `j`. -/
def Past (j : Fin n) : Point n → Prop
  | .outside => True
  | .test i => j < i
  | .reading i _ => j < i
  | .returned i => j < i
  | .finished => True

theorem past_goto {j : Fin n} {k : Nat} : Past j (.goto k) ↔ (j : Nat) < k := by
  unfold Point.goto
  split
  · exact Iff.rfl
  · exact ⟨fun _ => by omega, fun _ => trivial⟩

theorem goto_ne_outside (k : Nat) : Point.goto k ≠ (.outside : Point n) := by
  unfold Point.goto
  split <;> nofun

/-- Once a pass has gone over slot `j` since its last frame, it can take the next. -/
structure Unlocked (s : State n α φ) (j : Fin n) : Prop where
  never : since j s.log = .never → (s.table j).unhandled = false
  inside : since j s.log = .started → s.point ≠ .outside
  started : since j s.log = .started → Past j s.point → (s.table j).handler.isSome = true →
    (s.table j).unhandled = false
  passed : since j s.log = .passed → (s.table j).handler.isSome = true →
    (s.table j).unhandled = false

namespace Unlocked

variable {s t : State n α φ} {j : Fin n}

/-- A step inside the loop that says nothing about message `j`. -/
theorem frame (inv : Unlocked s j) (log : since j t.log = since j s.log)
    (slot : t.table j = s.table j) (inside : t.point ≠ .outside)
    (past : Past j t.point → (s.table j).handler.isSome = true → (s.table j).unhandled = true →
      Past j s.point) : Unlocked t j := by
  constructor
  · rw [log, slot]
    exact inv.never
  · exact fun _ => inside
  · rw [log, slot]
    intro started done wants
    cases pending : (s.table j).unhandled with
    | false => rfl
    | true => exact pending.symm.trans (inv.started started (past done wants pending) wants)
  · rw [log, slot]
    exact inv.passed

/-- A pass starts at the first slot. -/
theorem passStart (inv : Unlocked s j) :
    Unlocked { s with point := .goto 0, log := s.log ++ [.passStart] } j := by
  constructor
  all_goals simp only [since_append, Since.next]
  · intro never
    split at never
    · exact absurd never nofun
    · exact inv.never never
  · exact fun _ => goto_ne_outside 0
  · intro started done
    exact absurd (past_goto.mp done) (Nat.not_lt_zero _)
  · intro passed
    split at passed
    · exact absurd passed nofun
    · exact inv.passed passed

/-- A pass ends when it has gone over all slots. -/
theorem passEnd (inv : Unlocked s j) (at_point : s.point = .finished) :
    Unlocked { s with point := .outside, log := s.log ++ [.passEnd] } j := by
  have cleared : since j s.log = .started → (s.table j).handler.isSome = true →
      (s.table j).unhandled = false := by
    intro started
    apply inv.started started
    rw [at_point]
    trivial
  constructor
  all_goals simp only [since_append, Since.next]
  · intro never
    split at never
    · exact absurd never nofun
    · exact inv.never never
  · intro started
    split at started
    · exact absurd started nofun
    · contradiction
  · intro started
    split at started
    · exact absurd started nofun
    · contradiction
  · intro passed
    split at passed
    · exact cleared ‹_›
    · exact inv.passed passed

theorem main (inv : Unlocked s j) (step : State.MainStep s t) : Unlocked t j := by
  cases step with
  | start at_point => exact inv.passStart
  | skip i at_point idle =>
      apply inv.frame
      · rfl
      · rfl
      · exact goto_ne_outside _
      · intro done wants pending
        rw [at_point]
        have before : (j : Nat) < i + 1 := past_goto.mp done
        have other : j ≠ i := by
          rintro rfl
          rw [pending, wants] at idle
          exact absurd idle nofun
        have apart : (j : Nat) ≠ i := fun same => other (Fin.ext same)
        change (j : Nat) < i
        omega
  | invoke i at_point due =>
      apply inv.frame
      · simp [Since.next]
      · rfl
      · exact nofun
      · intro done _ _
        rw [at_point]
        exact done
  | read i bytes at_point more =>
      apply inv.frame
      · rfl
      · rfl
      · exact nofun
      · intro done _ _
        rw [at_point]
        exact done
  | complete i bytes at_point all =>
      apply inv.frame
      · simp [Since.next]
      · rfl
      · exact nofun
      · intro done _ _
        rw [at_point]
        exact done
  | clear i at_point =>
      by_cases same : j = i
      · subst same
        have cleared : (Reception.clear s.table j j).unhandled = false := by simp
        exact ⟨fun _ => cleared, fun _ => goto_ne_outside _, fun _ _ _ => cleared,
          fun _ _ => cleared⟩
      · apply inv.frame
        · rfl
        · exact clear_other s.table same
        · exact goto_ne_outside _
        · intro done _ _
          rw [at_point]
          have before : (j : Nat) < i + 1 := past_goto.mp done
          have apart : (j : Nat) ≠ i := fun here => same (Fin.ext here)
          change (j : Nat) < i
          omega
  | finish at_point => exact inv.passEnd at_point

/-- An arrival for message `j` starts anew. -/
theorem arrived (log : since j t.log = .arrived) : Unlocked t j := by
  constructor <;> simp [log]

/-- An arrival for another message changes nothing. -/
theorem elsewhere (inv : Unlocked s j) (log : since j t.log = since j s.log)
    (slot : t.table j = s.table j) (point : t.point = s.point) : Unlocked t j := by
  constructor
  all_goals simp only [log, slot, point]
  · exact inv.never
  · exact inv.inside
  · exact inv.started
  · exact inv.passed

theorem recv [DecidableEq α] {attr : α} {f : CanFrame} (inv : Unlocked s j)
    (step : RecvStep false s attr f t) : Unlocked t j := by
  cases step with
  | mismatch nowhere => exact inv
  | refused i found locked =>
      by_cases same : i = j
      · apply arrived
        simp [Since.next, same]
      · apply inv.elsewhere
        · simp [Since.next, same]
        · rfl
        · rfl
  | stored i found free =>
      by_cases same : i = j
      · apply arrived
        simp [Since.next, same]
      · apply inv.elsewhere
        · simp [Since.next, same]
        · exact store_other s.table (fun here => same here.symm) f s.now
        · rfl

theorem step [DecidableEq α] (inv : Unlocked s j) (e : Event α) :
    Unlocked (s.step Node.recv e) j := by
  cases e with
  | recv attr f => exact inv.recv (recv_step false s attr f)
  | main => exact inv.main s.main_step
  | advance time => exact ⟨inv.never, inv.inside, inv.started, inv.passed⟩

/-- Where the next frame may arrive, the slot is free. -/
theorem free (inv : Unlocked s j) (between : since j s.log = .never ∨ since j s.log = .passed)
    (once : (s.table j).handler.isSome = false → since j s.log = .never) :
    (s.table j).unhandled = false := by
  cases wants : (s.table j).handler.isSome with
  | false => exact inv.never (once wants)
  | true =>
      obtain never | passed := between
      · exact inv.never never
      · exact inv.passed passed wants

end Unlocked

/-! ## The time -/

/-- The time of message `j` is that of its last sign. -/
structure Watched (start : Table n α φ) (s : State n α φ) (j : Fin n) : Prop where
  timeout : (s.table j).timeout = (start j).timeout
  past : ∀ t ∈ signs start s j, t ≤ s.now
  sign : (s.table j).timepoint ∈ signs start s j
  last : ∀ t ∈ signs start s j, t ≤ (s.table j).timepoint

namespace Watched

variable {start : Table n α φ} {s t : State n α φ} {j : Fin n}

/-- A step that does not touch the times of message `j`. -/
theorem frame (inv : Watched start s j) (now : s.now ≤ t.now)
    (log : t.log.filterMap (arrivalOf j) = s.log.filterMap (arrivalOf j))
    (timeout : (t.table j).timeout = (s.table j).timeout)
    (timepoint : (t.table j).timepoint = (s.table j).timepoint) : Watched start t j := by
  have same : signs start t j = signs start s j := congrArg _ log
  constructor
  · rw [timeout]
    exact inv.timeout
  · rw [same]
    exact fun time member => (inv.past time member).trans now
  · rw [same, timepoint]
    exact inv.sign
  · rw [same, timepoint]
    exact inv.last

theorem main (inv : Watched start s j) (step : State.MainStep s t) : Watched start t j := by
  cases step with
  | clear i at_point =>
      exact inv.frame le_rfl rfl (clear_timeout ..) (clear_timepoint ..)
  | _ => exact inv.frame le_rfl (by simp) rfl rfl

theorem recv [DecidableEq α] {attr : α} {f : CanFrame} (inv : Watched start s j)
    (free : slotOf s.table attr = some j → (s.table j).unhandled = false)
    (step : RecvStep false s attr f t) : Watched start t j := by
  cases step with
  | mismatch nowhere => exact inv
  | refused i found locked =>
      have other : i ≠ j := by
        rintro rfl
        exact absurd (locked.symm.trans (free found)) nofun
      exact inv.frame le_rfl (by simp [other]) rfl rfl
  | stored i found free =>
      by_cases same : i = j
      · subst same
        have signs' : ∀ (table : Table n α φ) (log : List (Obs n)),
            log = s.log ++ [.stored i f s.now] →
            signs start { s with table := table, log := log } i = signs start s i ++ [s.now] := by
          rintro table _ rfl
          simp [signs]
        have latest : ∀ time ∈ signs start s i ++ [s.now], time ≤ s.now := by
          intro time member
          rcases List.mem_append.mp member with old | new
          · exact inv.past time old
          · rw [List.mem_singleton.mp new]
        constructor
        · simpa using inv.timeout
        · rw [signs' _ _ rfl]
          exact latest
        · rw [signs' _ _ rfl]
          simp
        · rw [signs' _ _ rfl]
          simpa using latest
      · have slot : store s.table i f s.now j = s.table j :=
          store_other s.table (fun here => same here.symm) f s.now
        exact inv.frame le_rfl (by simp [same]) (congrArg _ slot) (congrArg _ slot)

end Watched

/-! ## Runs -/

/-- What holds of a node between any two steps. -/
structure Supervised (start : Table n α φ) (s : State n α φ) : Prop where
  unlocked : ∀ j, Unlocked s j
  watched : ∀ j, Watched start s j
  refused : s.refused = []

namespace Supervised

variable {start : Table n α φ} {s : State n α φ}

theorem init {table : Table n α φ} (registered : Node.Registered table) {now : Int}
    (before : ∀ i, (table i).timepoint ≤ now) : Supervised table (.init table now) where
  unlocked := fun j => ⟨fun _ => registered.idle j, nofun, nofun, nofun⟩
  watched := fun j =>
    { timeout := rfl
      past := fun t member => by rw [List.mem_singleton.mp member]; exact before j
      sign := List.mem_singleton.mpr rfl
      last := fun t member => by rw [List.mem_singleton.mp member]; exact le_rfl }
  refused := rfl

theorem step [DecidableEq α] (inv : Supervised start s) {e : Event α}
    (allowed : PassBetween s e ∧ OnceWithoutHandler s e) :
    Supervised start (s.step Node.recv e) where
  unlocked := fun j => (inv.unlocked j).step e
  watched := by
    intro j
    cases e with
    | recv attr f =>
        apply (inv.watched j).recv _ (recv_step false s attr f)
        exact fun found => (inv.unlocked j).free (allowed.1 j found) (allowed.2 j found)
    | main => exact (inv.watched j).main s.main_step
    | advance time =>
        have later : s.now ≤ s.now + time := by omega
        exact (inv.watched j).frame later rfl rfl rfl
  refused := by
    have silent : ∀ o : Obs n, o.refusal = none →
        (s.log ++ [o]).filterMap Obs.refusal = s.refused := by
      intro o nothing
      rw [List.filterMap_append, List.filterMap_cons_none nothing]
      exact List.append_nil _
    cases e with
    | recv attr f =>
        have step := recv_step false s attr f
        change (s.recv (recvLocked false) attr f).refused = []
        generalize s.recv (recvLocked false) attr f = t at step
        cases step with
        | mismatch nowhere => exact inv.refused
        | refused i found locked =>
            have free := (inv.unlocked i).free (allowed.1 i found) (allowed.2 i found)
            exact absurd (locked.symm.trans free) nofun
        | stored i found free => exact (silent _ rfl).trans inv.refused
    | main =>
        have step := s.main_step
        change s.main.refused = []
        generalize s.main = t at step
        cases step with
        | skip i at_point idle => exact inv.refused
        | read i bytes at_point more => exact inv.refused
        | clear i at_point => exact inv.refused
        | _ => exact (silent _ rfl).trans inv.refused
    | advance time => exact inv.refused

/-- `good` asks exactly that every message gave a sign within its timeout. -/
theorem good_eq_false_iff (inv : Supervised start s) :
    Node.good s.table s.now = false ↔
      ∃ j, ¬ ∃ t ∈ signs start s j, s.now ≤ t + (start j).timeout := by
  have late : Node.good s.table s.now = false ↔
      ∃ j, s.now > (s.table j).timepoint + (s.table j).timeout := by
    simp [Node.good]
  rw [late]
  refine exists_congr fun j => ?_
  have watched := inv.watched j
  rw [watched.timeout]
  constructor
  · rintro late ⟨t, member, alive⟩
    have newest := watched.last t member
    omega
  · intro silent
    by_contra alive
    exact silent ⟨_, watched.sign, by omega⟩

end Supervised

/-- As long as no message without a handler gets a second frame, a node whose
    `handle` keeps up refuses no frame, and `good` is false exactly when some message
    gave no sign within its timeout. -/
theorem supervised_without_second_frame [DecidableEq α] {table : Table n α φ}
    (registered : Node.Registered table)
    (distinct : ∀ i j, (table i).attr = (table j).attr → i = j) (now : Int)
    (before : ∀ i, (table i).timepoint ≤ now) (schedule : List (Event α))
    (passes : Run.StepsMeet (State.step Node.recv) PassBetween (.init table now) schedule)
    (once : Run.StepsMeet (State.step Node.recv) OnceWithoutHandler (.init table now) schedule) :
    let s := Run.run (State.step Node.recv) (.init table now) schedule
    (∀ j, s.arrivals j = matching (table j).attr schedule) ∧ s.refused = [] ∧
      (Node.good s.table s.now = false ↔
        ∃ j, ¬ ∃ t ∈ signs table s j, s.now ≤ t + (table j).timeout) := by
  intro s
  have inv : Supervised table s :=
    Run.invariant_of_steps (Supervised table) (.init registered before)
      (fun s e allowed inv => inv.step allowed) schedule (passes.and once)
  refine ⟨fun j => ?_, inv.refused, inv.good_eq_false_iff⟩
  exact arrivals_run false (.init table now) (fun i same => distinct i j same) schedule

section WithoutHandler

/-- A node that only wants to know whether its one message comes. -/
def heartbeatTable (handler : Option Unit) : Table 1 Nat Unit :=
  Node.registerRxMessage Node.init 5 10 handler 0

/-- The message comes every 8 ms, against a timeout of 10 ms, with a pass in between. -/
def everyEight : List (Event Nat) :=
  [.recv 5 ⟨0x701, 1, 5⟩] ++ List.replicate 14 .main ++
    [.advance 8, .recv 5 ⟨0x701, 1, 5⟩, .advance 8]

/-- The second frame is refused, and the node is reported dead. -/
theorem without_handler_false_alarm :
    let s := Run.run (State.step Node.recv) (.init (heartbeatTable none) 0) everyEight
    Run.StepsMeet (State.step Node.recv) PassBetween (.init (heartbeatTable none) 0) everyEight ∧
      s.refused.length = 1 ∧ Node.good s.table s.now = false ∧
        ¬ ∃ j, ¬ ∃ t ∈ signs (heartbeatTable none) s j,
          s.now ≤ t + (heartbeatTable none j).timeout := by
  decide +kernel

theorem supervised_without_second_frame_heartbeat :
    let s := Run.run (State.step Node.recv) (.init (heartbeatTable (some ())) 0) everyEight
    (∀ j, s.arrivals j = matching (heartbeatTable (some ()) j).attr everyEight) ∧
      s.refused = [] ∧
      (Node.good s.table s.now = false ↔
        ∃ j, ¬ ∃ t ∈ signs (heartbeatTable (some ())) s j,
          s.now ≤ t + (heartbeatTable (some ()) j).timeout) :=
  supervised_without_second_frame (.register 5 10 (some ()) 0 .init) (by decide) 0 (by decide)
    everyEight (by decide +kernel) (by decide +kernel)

end WithoutHandler

end Supervision

end Ucanopen.F4
