import Ucanopen.Reception.Slots
import Mathlib.Data.List.Induction

/-! # RPDO and node reception of the H7 port

`recv_frame` stores every frame, also in a slot whose last frame is unhandled or
just being handled, and the loop clears the flag after the handler whatever came
in meanwhile. The newest frame is safe exactly as long as none arrives between
the call of a slot's handler and the clearing of the slot's flag.
-/

namespace Ucanopen.H7

open Bytes Reception

variable {n : Nat} {α φ : Type}

/-- The text the two `recv_frame` functions share. `stored` stands for `success`,
    `mismatch` for `attr_mismatch`. -/
def recvOverwrite [DecidableEq α] : Receiver n α φ := fun t attr frame now =>
  match slotOf t attr with
  | none => (.mismatch, t)
  | some i => (.stored i, store t i frame now)

def RpdoService.recvFrame [DecidableEq α] : Receiver 4 α φ := recvOverwrite

def Node.recvFrame [DecidableEq α] (enabled : Bool) : Receiver n α φ := fun t attr frame now =>
  if !enabled then (.mismatch, t) else recvOverwrite t attr frame now

/-- The ways a receive function that overwrites can change the state. -/
inductive RecvStep [DecidableEq α] (s : State n α φ) (attr : α) (frame : CanFrame) :
    State n α φ → Prop
  | mismatch (nowhere : slotOf s.table attr = none) : RecvStep s attr frame s
  | stored (i : Fin n) (found : slotOf s.table attr = some i) :
      RecvStep s attr frame
        { s with
          table := store s.table i frame s.now
          log := s.log ++ [.stored i frame s.now] }

theorem slot_recv_step [DecidableEq α] (s : State n α φ) (attr : α) (frame : CanFrame) :
    RecvStep s attr frame (s.recv recvOverwrite attr frame) := by
  unfold State.recv recvOverwrite
  cases found : slotOf s.table attr with
  | none => exact .mismatch found
  | some i => exact .stored i found

/-! ## Everything is taken -/

/-- A frame that slot `j` took, and when. -/
@[simp] def takenBy (j : Fin n) : Obs n → Option (Int × CanFrame)
  | .stored i frame time => if i = j then some (time, frame) else none
  | _ => none

def taken (s : State n α φ) (j : Fin n) : List (Int × CanFrame) := s.log.filterMap (takenBy j)

/-- The frames of a schedule that have the attribute, and when they arrive. -/
def matchingAt [DecidableEq α] (attr : α) : Int → List (Event α) → List (Int × CanFrame)
  | _, [] => []
  | now, .recv a frame :: es =>
      if a = attr then (now, frame) :: matchingAt attr now es else matchingAt attr now es
  | now, .main :: es => matchingAt attr now es
  | now, .advance time :: es => matchingAt attr (now + time) es

/-- The frames that the bus brings for slot `j`: all with its attribute, unless an
    earlier slot has the same one. -/
def arriving [DecidableEq α] (table : Table n α φ) (j : Fin n) (now : Int)
    (schedule : List (Event α)) : List (Int × CanFrame) :=
  if ∀ i < j, (table i).attr ≠ (table j).attr then matchingAt (table j).attr now schedule else []

theorem main_taken {s t : State n α φ} (step : State.MainStep s t) (j : Fin n) :
    taken t j = taken s j := by
  cases step with
  | _ => simp [taken]

theorem main_now {s t : State n α φ} (step : State.MainStep s t) : t.now = s.now := by
  cases step with
  | _ => rfl

theorem main_attr {s t : State n α φ} (step : State.MainStep s t) (i : Fin n) :
    (t.table i).attr = (s.table i).attr := by
  cases step with
  | clear i => exact clear_attr ..
  | _ => rfl

theorem recv_now [DecidableEq α] {s t : State n α φ} {attr : α} {frame : CanFrame}
    (step : RecvStep s attr frame t) : t.now = s.now := by
  cases step with
  | _ => rfl

/-- No event changes the attribute of a slot. -/
theorem attr_step [DecidableEq α] (s : State n α φ) (e : Event α) (i : Fin n) :
    ((s.step recvOverwrite e).table i).attr = (s.table i).attr := by
  cases e with
  | recv attr frame =>
      have step := slot_recv_step s attr frame
      change ((s.recv recvOverwrite attr frame).table i).attr = _
      generalize s.recv recvOverwrite attr frame = t at step
      cases step with
      | mismatch => rfl
      | stored => exact store_attr ..
  | main => exact main_attr s.main_step i
  | advance time => rfl

theorem attr_run [DecidableEq α] (s : State n α φ) (schedule : List (Event α)) (i : Fin n) :
    ((Run.run (State.step recvOverwrite) s schedule).table i).attr = (s.table i).attr :=
  Run.invariant (fun t : State n α φ => (t.table i).attr = (s.table i).attr) rfl
    (fun t e same => (attr_step t e i).trans same) schedule

theorem arriving_congr [DecidableEq α] {table table' : Table n α φ}
    (same : ∀ i, (table' i).attr = (table i).attr) (j : Fin n) (now : Int)
    (schedule : List (Event α)) : arriving table' j now schedule = arriving table j now schedule := by
  simp only [arriving, same]

/-- A frame arrives for the slot that its attribute leads to. -/
theorem arriving_recv [DecidableEq α] (table : Table n α φ) (j : Fin n) (now : Int) (attr : α)
    (frame : CanFrame) (es : List (Event α)) :
    arriving table j now (.recv attr frame :: es) =
      (if slotOf table attr = some j then [(now, frame)] else []) ++ arriving table j now es := by
  have found : slotOf table attr = some j ↔ _ := slotOf_eq_some_iff
  rw [arriving, arriving, matchingAt]
  by_cases first : ∀ i < j, (table i).attr ≠ (table j).attr
  · by_cases mine : attr = (table j).attr
    · rw [if_pos first, if_pos first, if_pos mine, if_pos (found.mpr ⟨mine, first⟩)]
      rfl
    · rw [if_pos first, if_pos first, if_neg mine, if_neg fun here => mine (found.mp here).1]
      rfl
  · rw [if_neg first, if_neg first, if_neg fun here => first (found.mp here).2]
    rfl

/-- Every slot takes all frames that arrive for it. -/
theorem taken_arriving [DecidableEq α] (s : State n α φ) (j : Fin n) (schedule : List (Event α)) :
    taken (Run.run (State.step recvOverwrite) s schedule) j =
      taken s j ++ arriving s.table j s.now schedule := by
  induction schedule generalizing s with
  | nil => simp [arriving, matchingAt]
  | cons e es ih =>
      rw [Run.run_cons, ih, arriving_congr (attr_step s e)]
      cases e with
      | recv attr frame =>
          rw [arriving_recv, ← List.append_assoc]
          change taken (s.recv recvOverwrite attr frame) j ++
            arriving s.table j (s.recv recvOverwrite attr frame).now es = _
          have step := slot_recv_step s attr frame
          generalize s.recv recvOverwrite attr frame = t at step ⊢
          rw [recv_now step]
          congr 1
          cases step with
          | mismatch nowhere => simp [nowhere]
          | stored i found =>
              by_cases same : i = j
              · simp [taken, found, same]
              · simp [taken, found, same]
      | main =>
          change taken s.main j ++ arriving s.table j s.main.now es = _
          rw [main_taken s.main_step, main_now s.main_step]
          rfl
      | advance time => rfl

/-- Once a pass has started and finished after the last arrival for slot `j`, the
    handler was called on that frame's payload after it arrived. -/
def NewestHandled (s : State n α φ) (j : Fin n) : Prop :=
  ∀ before after frame time, s.log = before ++ .stored j frame time :: after →
    (∀ o ∈ after, o.storedIn j = none) → [Obs.passStart, Obs.passEnd].Sublist after →
      Obs.invoked j frame.payload ∈ after

/-- The last payload stored in slot `j`, and what was observed since. -/
def sinceStored (j : Fin n) (log : List (Obs n)) : Option (CanPayload × List (Obs n)) :=
  log.foldl
    (fun since o =>
      match o.storedIn j with
      | some payload => some (payload, [])
      | none => since.map fun (payload, after) => (payload, after ++ [o]))
    none

@[simp] theorem sinceStored_stored (j : Fin n) (log : List (Obs n)) (frame : CanFrame)
    (time : Int) : sinceStored j (log ++ [.stored j frame time]) = some (frame.payload, []) := by
  simp [sinceStored]

theorem sinceStored_quiet (j : Fin n) (log after : List (Obs n))
    (quiet : ∀ o ∈ after, o.storedIn j = none) :
    sinceStored j (log ++ after) =
      (sinceStored j log).map fun (payload, since) => (payload, since ++ after) := by
  induction after using List.reverseRecOn with
  | nil => simp
  | append_singleton after o ih =>
      have last := quiet o (by simp)
      have first := ih fun o member => quiet o (List.mem_append_left _ member)
      rw [← List.append_assoc, sinceStored, List.foldl_append, List.foldl_cons, List.foldl_nil,
        last, ← sinceStored, first]
      cases sinceStored j log with
      | none => rfl
      | some since => simp

theorem sinceStored_eq {j : Fin n} {log before after : List (Obs n)} {frame : CanFrame}
    {time : Int} (split : log = before ++ .stored j frame time :: after)
    (quiet : ∀ o ∈ after, o.storedIn j = none) :
    sinceStored j log = some (frame.payload, after) := by
  rw [split, List.append_cons, sinceStored_quiet j _ after quiet, sinceStored_stored]
  rfl

/-- A pair in order that does not end with the last element lies before it. -/
theorem pair_of_concat {a b o : Obs n} {l : List (Obs n)} (other : o ≠ b)
    (pair : [a, b].Sublist (l ++ [o])) : [a, b].Sublist l := by
  obtain ⟨front, back, split, inFront, inBack⟩ := List.sublist_append_iff.mp pair
  cases back with
  | nil =>
      rw [List.append_nil] at split
      rw [split]
      exact inFront
  | cons c back =>
      have single : c :: back = [o] := inBack.eq_of_length (by
        have length := inBack.length_le
        simp only [List.length_cons, List.length_nil] at length ⊢
        omega)
      rw [single] at split
      have last := congrArg List.getLast? split
      simp at last
      exact absurd last.symm other

/-- The loop has not got past slot `j` in the current pass. -/
def Ahead (j : Fin n) : Point n → Prop
  | .test i => i ≤ j
  | .reading i _ => i < j
  | .returned i => i < j
  | _ => False

/-- The handler of slot `j` has been called, and the flag is not yet cleared. -/
def Running (j : Fin n) : Point n → Prop
  | .reading i _ => i = j
  | .returned i => i = j
  | _ => False

instance (j : Fin n) : (p : Point n) → Decidable (Running j p)
  | .outside => .isFalse nofun
  | .test _ => .isFalse nofun
  | .reading i _ => inferInstanceAs (Decidable (i = j))
  | .returned i => inferInstanceAs (Decidable (i = j))
  | .finished => .isFalse nofun

theorem ahead_goto {j : Fin n} {k : Nat} (le : k ≤ j) : Ahead j (.goto k) := by
  unfold Point.goto
  rw [dif_pos (by omega)]
  exact le

theorem not_running_goto (j : Fin n) (k : Nat) : ¬ Running j (.goto k) := by
  unfold Point.goto
  split <;> nofun

/-- How far the frame last stored in slot `j` has come. -/
structure Progress (s : State n α φ) (j : Fin n) (payload : CanPayload) (after : List (Obs n)) :
    Prop where
  slot : (s.table j).frame.payload = payload
  due : .invoked j payload ∈ after ∨
    (s.table j).unhandled = true ∧
      (.passStart ∉ after ∨
        ¬ [Obs.passStart, Obs.passEnd].Sublist after ∧ Ahead j s.point)
  running : Running j s.point → .invoked j payload ∈ after

/-- The frame last stored in slot `j` is on its way to the handler. -/
structure Newest (s : State n α φ) (j : Fin n) : Prop where
  handler : (s.table j).handler.isSome = true
  progress : ∀ payload after, sinceStored j s.log = some (payload, after) →
    Progress s j payload after

theorem Newest.newestHandled {s : State n α φ} {j : Fin n} (inv : Newest s j) :
    NewestHandled s j := by
  intro before after frame time split quiet passed
  have progress := inv.progress _ _ (sinceStored_eq split quiet)
  rcases progress.due with invoked | ⟨_, unstarted | ⟨unfinished, _⟩⟩
  · exact invoked
  · exact absurd (passed.subset (by simp)) unstarted
  · exact absurd passed unfinished

namespace Newest

variable {s t : State n α φ} {j : Fin n}

theorem init {table : Table n α φ} (handler : (table j).handler.isSome = true) (now : Int) :
    Newest (.init table now) j where
  handler := handler
  progress := nofun

/-- A step that neither stores in slot `j`, nor calls its handler, nor starts or
    ends a pass. -/
theorem quiet {obs : List (Obs n)} (inv : Newest s j) (same : t.table j = s.table j)
    (log : t.log = s.log ++ obs) (silent : ∀ o ∈ obs, o.storedIn j = none)
    (inside : ∀ o ∈ obs, o ≠ .passStart ∧ o ≠ .passEnd)
    (single : obs.length ≤ 1) (ahead : Ahead j s.point → Ahead j t.point)
    (running : Running j t.point → Running j s.point) : Newest t j := by
  refine ⟨by rw [same]; exact inv.handler, fun payload after since => ?_⟩
  rw [log, sinceStored_quiet j _ obs silent] at since
  obtain ⟨⟨payload', after'⟩, old, eq⟩ := Option.map_eq_some_iff.mp since
  obtain ⟨rfl, rfl⟩ := Prod.mk.inj eq
  have progress := inv.progress _ _ old
  refine ⟨by rw [same]; exact progress.slot, ?_, fun now => ?_⟩
  · rcases progress.due with invoked | ⟨unhandled, open'⟩
    · exact .inl (List.mem_append_left _ invoked)
    · refine .inr ⟨by rw [same]; exact unhandled, ?_⟩
      rcases open' with unstarted | ⟨unfinished, before⟩
      · apply Or.inl
        intro member
        rcases List.mem_append.mp member with old | new
        · exact unstarted old
        · exact (inside _ new).1 rfl
      · refine .inr ⟨fun pair => unfinished ?_, ahead before⟩
        match obs, inside, single with
        | [], _, _ => simpa using pair
        | [o], inside, _ => exact pair_of_concat (inside o (by simp)).2 pair
  · exact List.mem_append_left _ (progress.running (running now))

/-- The start and the end of a pass say nothing about slot `j`. -/
theorem border {o : Obs n} (inv : Newest s j) (same : t.table j = s.table j)
    (log : t.log = s.log ++ [o]) (silent : o.storedIn j = none) (elsewhere : ¬ Ahead j s.point)
    (stopped : ¬ Running j t.point)
    (started : o = .passStart ∧ Ahead j t.point ∨ o = .passEnd) : Newest t j := by
  refine ⟨by rw [same]; exact inv.handler, fun payload after since => ?_⟩
  rw [log, sinceStored_quiet j _ [o] (by simpa using silent)] at since
  obtain ⟨⟨payload', after'⟩, old, eq⟩ := Option.map_eq_some_iff.mp since
  obtain ⟨rfl, rfl⟩ := Prod.mk.inj eq
  have progress := inv.progress _ _ old
  refine ⟨by rw [same]; exact progress.slot, ?_, fun now => absurd now stopped⟩
  rcases progress.due with invoked | ⟨unhandled, unstarted | ⟨_, before⟩⟩
  · exact .inl (List.mem_append_left _ invoked)
  · refine .inr ⟨by rw [same]; exact unhandled, ?_⟩
    rcases started with ⟨rfl, ahead⟩ | rfl
    · refine .inr ⟨fun pair => unstarted ?_, ahead⟩
      exact (pair_of_concat (by simp) pair).subset (by simp)
    · exact .inl (by simpa using unstarted)
  · exact absurd before elsewhere

theorem recv [DecidableEq α] {attr : α} {frame : CanFrame} (inv : Newest s j)
    (clear : slotOf s.table attr = some j → ¬ Running j s.point)
    (step : RecvStep s attr frame t) : Newest t j := by
  cases step with
  | mismatch nowhere => exact inv
  | stored i found =>
      by_cases same : i = j
      · subst same
        refine ⟨by simpa using inv.handler, fun payload after since => ?_⟩
        rw [sinceStored_stored, Option.some.injEq, Prod.mk.injEq] at since
        obtain ⟨rfl, rfl⟩ := since
        exact ⟨by simp, .inr ⟨by simp, .inl (by simp)⟩, fun now => absurd now (clear found)⟩
      · exact inv.quiet (store_other _ (Ne.symm same) _ _) rfl (by simp [same]) (by simp)
          (Nat.le_refl 1) id id

/-! The statements that work on slot `j` itself. -/

/-- A slot is passed over when it is handled: then the call is in the log. -/
theorem skip (inv : Newest s j) (idle : ((s.table j).unhandled && (s.table j).handler.isSome) = false) :
    Newest { s with point := .goto (j + 1) } j := by
  refine ⟨inv.handler, fun payload after since => ?_⟩
  have progress := inv.progress _ _ since
  have handled : (s.table j).unhandled = false := by
    simpa [inv.handler] using idle
  refine ⟨progress.slot, ?_, fun now => absurd now (not_running_goto j _)⟩
  rcases progress.due with invoked | ⟨unhandled, _⟩
  · exact .inl invoked
  · exact absurd (handled.symm.trans unhandled) nofun

theorem invoke (inv : Newest s j) :
    Newest
      { s with
        point := .reading j []
        log := s.log ++ [.invoked j (s.table j).frame.payload] } j := by
  refine ⟨inv.handler, fun payload after since => ?_⟩
  rw [sinceStored_quiet j _ [.invoked j (s.table j).frame.payload] (by simp)] at since
  obtain ⟨⟨payload', after'⟩, old, eq⟩ := Option.map_eq_some_iff.mp since
  obtain ⟨rfl, rfl⟩ := Prod.mk.inj eq
  have slot := (inv.progress _ _ old).slot
  have invoked : Obs.invoked j payload' ∈ after' ++ [.invoked j (s.table j).frame.payload] := by
    rw [slot]
    simp
  exact ⟨slot, .inl invoked, fun _ => invoked⟩

theorem clear (inv : Newest s j) (at_point : s.point = .returned j) :
    Newest { s with table := Reception.clear s.table j, point := .goto (j + 1) } j := by
  refine ⟨by simpa using inv.handler, fun payload after since => ?_⟩
  have progress := inv.progress _ _ since
  have invoked := progress.running (by rw [at_point]; rfl)
  exact ⟨by simpa using progress.slot, .inl invoked, fun _ => invoked⟩

theorem main (inv : Newest s j) (step : State.MainStep s t) : Newest t j := by
  cases step with
  | start at_point =>
      exact inv.border rfl rfl rfl (by rw [at_point]; exact id) (not_running_goto j 0)
        (.inl ⟨rfl, ahead_goto (Nat.zero_le _)⟩)
  | finish at_point =>
      exact inv.border rfl rfl rfl (by rw [at_point]; exact id) nofun (.inr rfl)
  | skip i at_point idle =>
      by_cases same : i = j
      · subst same
        exact inv.skip idle
      · refine inv.quiet rfl (List.append_nil _).symm nofun nofun (Nat.zero_le 1) ?_
          fun now => absurd now (not_running_goto j _)
        rw [at_point]
        intro (ahead : i ≤ j)
        exact ahead_goto (by omega)
  | invoke i at_point due =>
      by_cases same : i = j
      · subst same
        exact inv.invoke
      · refine inv.quiet rfl rfl (by simp) (by simp) (Nat.le_refl 1) ?_ fun now => absurd now same
        rw [at_point]
        intro (ahead : i ≤ j)
        exact lt_of_le_of_ne ahead same
  | read i bytes at_point more =>
      refine inv.quiet rfl (List.append_nil _).symm nofun nofun (Nat.zero_le 1) ?_ ?_
      · rw [at_point]
        exact id
      · rw [at_point]
        exact id
  | complete i bytes at_point all =>
      refine inv.quiet rfl rfl (by simp) (by simp) (Nat.le_refl 1) ?_ ?_
      · rw [at_point]
        exact id
      · rw [at_point]
        exact id
  | clear i at_point =>
      by_cases same : i = j
      · subst same
        exact inv.clear at_point
      · refine inv.quiet (clear_other _ (Ne.symm same)) (List.append_nil _).symm nofun nofun
          (Nat.zero_le 1) ?_ fun now => absurd now (not_running_goto j _)
        rw [at_point]
        intro (ahead : i < j)
        exact ahead_goto (by omega)

/-- Events that bring no frame for slot `j` between the call of its handler and
    the clearing of its flag. -/
def Undisturbed [DecidableEq α] (j : Fin n) (s : State n α φ) : Event α → Prop
  | .recv attr _ => slotOf s.table attr = some j → ¬ Running j s.point
  | _ => True

instance [DecidableEq α] (j : Fin n) (s : State n α φ) :
    (e : Event α) → Decidable (Undisturbed j s e)
  | .recv attr _ => inferInstanceAs (Decidable (slotOf s.table attr = some j → ¬ Running j s.point))
  | .main => .isTrue trivial
  | .advance _ => .isTrue trivial

theorem step [DecidableEq α] {e : Event α} (inv : Newest s j) (undisturbed : Undisturbed j s e) :
    Newest (s.step recvOverwrite e) j := by
  cases e with
  | recv attr frame => exact inv.recv undisturbed (slot_recv_step s attr frame)
  | main => exact inv.main s.main_step
  | advance time =>
      refine ⟨inv.handler, fun payload after since => ?_⟩
      have progress := inv.progress _ _ since
      exact ⟨progress.slot, progress.due, progress.running⟩

theorem run [DecidableEq α] {table : Table n α φ} (handler : (table j).handler.isSome = true)
    (now : Int) (schedule : List (Event α))
    (undisturbed : Run.StepsMeet (State.step recvOverwrite) (Undisturbed j) (.init table now)
      schedule) :
    Newest (Run.run (State.step recvOverwrite) (.init table now) schedule) j :=
  Run.invariant_of_steps (fun s => Newest s j) (Newest.init handler now)
    (fun _ _ allowed inv => inv.step allowed) schedule undisturbed

end Newest

/-- Both services take every frame that arrives for a slot. As long as none arrives between
    the call of the slot's handler and the clearing of its flag, the newest is not lost. -/
theorem newest_handled [DecidableEq α] :
    (∀ (table : Table 4 α φ) (j : Fin 4), (table j).handler.isSome = true →
      ∀ (now : Int) (schedule : List (Event α)),
        let s := Run.run (State.step RpdoService.recvFrame) (.init table now) schedule
        taken s j = arriving table j now schedule ∧
          (Run.StepsMeet (State.step RpdoService.recvFrame) (Newest.Undisturbed j)
            (.init table now) schedule → NewestHandled s j)) ∧
    (∀ (n : Nat) (table : Table n α φ) (j : Fin n), (table j).handler.isSome = true →
      ∀ (now : Int) (schedule : List (Event α)),
        let s := Run.run (State.step (Node.recvFrame true)) (.init table now) schedule
        taken s j = arriving table j now schedule ∧
          (Run.StepsMeet (State.step (Node.recvFrame true)) (Newest.Undisturbed j)
            (.init table now) schedule → NewestHandled s j)) := by
  constructor
  · intro table j handler now schedule s
    refine ⟨taken_arriving (.init table now) j schedule, fun undisturbed => ?_⟩
    exact (Newest.run handler now schedule undisturbed).newestHandled
  · intro n table j handler now schedule s
    refine ⟨taken_arriving (.init table now) j schedule, fun undisturbed => ?_⟩
    exact (Newest.run handler now schedule undisturbed).newestHandled

section Disturbed

def oldFrame : CanFrame := ⟨0x201, 8, 1⟩

def newFrame : CanFrame := ⟨0x201, 8, 2⟩

/-- The first RPDO registered with the attribute 7. -/
def rpdoTable : Table 4 Nat Unit := fun i =>
  { attr := if i = rpdo1 then 7 else 0, timeout := 100, timepoint := 0, unhandled := false,
    frame := oldFrame, handler := if i = rpdo1 then some () else none }

/-- The newest frame arrives after the handler has read one byte of the old one;
    the pass ends, and another one starts and ends. -/
def disturbed : List (Event Nat) :=
  .recv 7 oldFrame :: List.replicate 3 .main ++ [.recv 7 newFrame] ++ List.replicate 19 .main

def disturbedState : State 4 Nat Unit :=
  Run.run (State.step RpdoService.recvFrame) (.init rpdoTable 0) disturbed

/-- The handler is never called on it, and the flag is clear. -/
theorem disturbed_loses_newest : ¬ NewestHandled disturbedState 0 ∧
    (disturbedState.table 0).unhandled = false := by
  refine ⟨fun handled => ?_, by decide +kernel⟩
  have invoked := handled (disturbedState.log.take 3) (disturbedState.log.drop 4) newFrame 0
    (by decide +kernel) (by decide +kernel) (by decide +kernel)
  exact absurd invoked (by decide +kernel)

/-- The same frames, the second one after the flag of the first is cleared. -/
def undisturbed : List (Event Nat) :=
  .recv 7 oldFrame :: List.replicate 13 .main ++ [.recv 7 newFrame] ++ List.replicate 19 .main

theorem newest_handled_undisturbed :
    (let s := Run.run (State.step RpdoService.recvFrame) (.init rpdoTable 0) undisturbed;
      taken s 0 = arriving rpdoTable 0 0 undisturbed ∧ NewestHandled s 0) ∧
    (let s := Run.run (State.step (Node.recvFrame true)) (.init rpdoTable 0) undisturbed;
      taken s 0 = arriving rpdoTable 0 0 undisturbed ∧ NewestHandled s 0) := by
  have rpdo := newest_handled.1 rpdoTable 0 (by decide) 0 undisturbed
  have node := newest_handled.2 4 rpdoTable 0 (by decide) 0 undisturbed
  exact ⟨⟨rpdo.1, rpdo.2 (by decide +kernel)⟩, ⟨node.1, node.2 (by decide +kernel)⟩⟩

/-- There two frames arrive. -/
example : (arriving rpdoTable 0 0 undisturbed).map (·.2) = [oldFrame, newFrame] := by decide +kernel

end Disturbed

end Ucanopen.H7
