import Ucanopen.F4.Reception

/-! # The RPDO watchdog of the F4 port

`good` compares the clock with the time of the last frame that `recv` stored.
A frame that arrives while the previous one is unhandled is not stored, and does
not count as a sign of life either.
-/

namespace Ucanopen.F4

open Bytes Reception

variable {α φ : Type}

def RpdoService.good (t : Table 4 α φ) (rpdo : Fin 4) (now : Int) : Bool :=
  if (t rpdo).timeout ≤ 0 then true
  else if now ≤ (t rpdo).timepoint + (t rpdo).timeout then true
  else false

/-- An event of the reception, or a (new) registration of a slot. -/
inductive WatchEvent (α φ : Type) where
  | base (e : Event α)
  | register (rpdo : Fin 4) (attr : α) (timeout : Int) (handler : Option φ)

namespace Watchdog

def step [DecidableEq α] (s : State 4 α φ) : WatchEvent α φ → State 4 α φ
  | .base e => s.step RpdoService.recv e
  | .register rpdo attr timeout handler =>
      { s with
        table := RpdoService.registerRpdo s.table rpdo attr timeout handler s.now
        log := s.log ++ [.registered rpdo s.now] }

/-- A run from the construction of the service. -/
def runFrom [DecidableEq α] (attr : Fin 4 → α) (frame : Fin 4 → CanFrame) (now : Int)
    (schedule : List (WatchEvent α φ)) : State 4 α φ :=
  Run.run step (.init (RpdoService.init attr frame) now) schedule

/-! ## What a schedule says of the slots -/

/-- Attributes and timeouts as registered, when each slot gave a sign of life, and the time. -/
structure History (α : Type) where
  attr : Fin 4 → α
  timeout : Fin 4 → Int
  signs : Fin 4 → List Int
  clock : Int

namespace History

def start (attr : Fin 4 → α) (now : Int) : History α where
  attr := attr
  timeout := fun _ => 0
  signs := fun _ => []
  clock := now

/-- Slot `j` gives a sign of life when it is registered, and when a frame arrives that
    has its attribute, unless an earlier slot has the same one. -/
def step [DecidableEq α] (h : History α) : WatchEvent α φ → History α
  | .base (.recv attr _) =>
      { h with
        signs := fun j =>
          if attr = h.attr j ∧ ∀ i < j, h.attr i ≠ h.attr j then h.signs j ++ [h.clock]
          else h.signs j }
  | .base .main => h
  | .base (.advance time) => { h with clock := h.clock + time }
  | .register rpdo attr timeout _ =>
      { h with
        attr := Function.update h.attr rpdo attr
        timeout := Function.update h.timeout rpdo timeout
        signs := Function.update h.signs rpdo (h.signs rpdo ++ [h.clock]) }

end History

/-- The history of a schedule from the construction of the service. -/
def history [DecidableEq α] (attr : Fin 4 → α) (now : Int) (schedule : List (WatchEvent α φ)) :
    History α := Run.run History.step (.start attr now) schedule

/-! ## What the service has seen -/

/-- When slot `j` was registered, or a frame arrived for it. -/
@[simp] def signOf (j : Fin 4) : Obs 4 → Option Int
  | .registered i time => if i = j then some time else none
  | .stored i _ time => if i = j then some time else none
  | .refused i _ time => if i = j then some time else none
  | _ => none

def signs (s : State 4 α φ) (j : Fin 4) : List Int := s.log.filterMap (signOf j)

/-- The service has seen this history, and it knows the attributes and timeouts. -/
structure Reflects (h : History α) (s : State 4 α φ) : Prop where
  attr : ∀ i, (s.table i).attr = h.attr i
  timeout : ∀ i, (s.table i).timeout = h.timeout i
  signs : ∀ i, signs s i = h.signs i
  clock : s.now = h.clock

namespace Reflects

variable {h : History α} {s t : State 4 α φ}

/-- A step of which the history knows nothing. -/
theorem frame (inv : Reflects h s) (attr : ∀ i, (t.table i).attr = (s.table i).attr)
    (timeout : ∀ i, (t.table i).timeout = (s.table i).timeout)
    (silent : ∀ i, Watchdog.signs t i = Watchdog.signs s i) (now : t.now = s.now) :
    Reflects h t where
  attr := fun i => (attr i).trans (inv.attr i)
  timeout := fun i => (timeout i).trans (inv.timeout i)
  signs := fun i => (silent i).trans (inv.signs i)
  clock := now.trans inv.clock

theorem main (inv : Reflects h s) (step : State.MainStep s t) : Reflects h t := by
  cases step with
  | clear i at_point =>
      exact inv.frame (fun _ => clear_attr ..) (fun _ => clear_timeout ..) (fun _ => rfl) rfl
  | _ => exact inv.frame (fun _ => rfl) (fun _ => rfl) (fun _ => by simp [Watchdog.signs]) rfl

/-- Stored or refused, a frame is a sign of life of the slot that its attribute leads to. -/
theorem signs_recv [DecidableEq α] {attr : α} {f : CanFrame} (step : RecvStep true s attr f t)
    (i : Fin 4) :
    Watchdog.signs t i =
      if slotOf s.table attr = some i then Watchdog.signs s i ++ [s.now]
      else Watchdog.signs s i := by
  cases step with
  | mismatch nowhere => simp [nowhere]
  | refused j found | stored j found =>
      rw [found]
      by_cases same : j = i <;> simp [Watchdog.signs, same]

theorem recv [DecidableEq α] {attr : α} {f : CanFrame} (inv : Reflects h s)
    (step : RecvStep true s attr f t) :
    Reflects (h.step (.base (.recv attr f) : WatchEvent α φ)) t where
  attr := by
    intro i
    refine Eq.trans ?_ (inv.attr i)
    cases step with
    | stored => exact store_attr ..
    | _ => rfl
  timeout := by
    intro i
    refine Eq.trans ?_ (inv.timeout i)
    cases step with
    | stored => exact store_timeout ..
    | _ => rfl
  signs := by
    intro i
    rw [signs_recv step i]
    simp only [slotOf_eq_some_iff, inv.attr, inv.signs, inv.clock]
    rfl
  clock := by
    refine Eq.trans ?_ inv.clock
    cases step with
    | _ => rfl

theorem step [DecidableEq α] (inv : Reflects h s) (e : WatchEvent α φ) :
    Reflects (h.step e) (Watchdog.step s e) := by
  cases e with
  | base e =>
      cases e with
      | recv attr f => exact inv.recv (recv_step true s attr f)
      | main => exact inv.main s.main_step
      | advance time =>
          exact ⟨inv.attr, inv.timeout, inv.signs, congrArg (· + (time : Int)) inv.clock⟩
  | register rpdo attr timeout handler =>
      constructor
      · intro i
        by_cases same : i = rpdo
        · simp [Watchdog.step, RpdoService.registerRpdo, History.step, same]
        · simp [Watchdog.step, RpdoService.registerRpdo, History.step, same, inv.attr]
      · intro i
        by_cases same : i = rpdo
        · simp [Watchdog.step, RpdoService.registerRpdo, History.step, same]
        · simp [Watchdog.step, RpdoService.registerRpdo, History.step, same, inv.timeout]
      · intro i
        have old := inv.signs i
        by_cases same : i = rpdo
        · subst same
          simpa [Watchdog.step, Watchdog.signs, History.step, inv.clock] using old
        · simpa [Watchdog.step, Watchdog.signs, History.step, same, Ne.symm same] using old
      · exact inv.clock

end Reflects

theorem reflects_run [DecidableEq α] (attr : Fin 4 → α) (frame : Fin 4 → CanFrame) (now : Int)
    (schedule : List (WatchEvent α φ)) :
    Reflects (history attr now schedule) (runFrom attr frame now schedule) := by
  have start : Reflects (.start attr now)
      (.init (RpdoService.init (φ := φ) attr frame) now : State 4 α φ) :=
    ⟨fun _ => rfl, fun _ => rfl, fun _ => rfl, rfl⟩
  unfold history runFrom
  generalize History.start attr now = h at start ⊢
  generalize State.init (RpdoService.init (φ := φ) attr frame) now = s at start ⊢
  induction schedule generalizing h s with
  | nil => exact start
  | cons e es ih => exact ih _ _ (start.step e)

/-- Events that bring no frame for a slot that is still unhandled. -/
def Handled [DecidableEq α] (j : Fin 4) (s : State 4 α φ) : WatchEvent α φ → Prop
  | .base (.recv attr _) => slotOf s.table attr = some j → (s.table j).unhandled = false
  | _ => True

instance [DecidableEq α] (j : Fin 4) (s : State 4 α φ) :
    (e : WatchEvent α φ) → Decidable (Handled j s e)
  | .base (.recv attr _) =>
      inferInstanceAs (Decidable (slotOf s.table attr = some j → (s.table j).unhandled = false))
  | .base .main => .isTrue trivial
  | .base (.advance _) => .isTrue trivial
  | .register _ _ _ _ => .isTrue trivial

/-- The supervision time of the slot is the time of the last sign. -/
structure Latest (s : State 4 α φ) (j : Fin 4) : Prop where
  past : ∀ t ∈ signs s j, t ≤ s.now
  sign : 0 < (s.table j).timeout → (s.table j).timepoint ∈ signs s j
  last : 0 < (s.table j).timeout → ∀ t ∈ signs s j, t ≤ (s.table j).timepoint

namespace Latest

variable {s t : State 4 α φ} {j : Fin 4}

theorem init (attr : Fin 4 → α) (frame : Fin 4 → CanFrame) (now : Int) (j : Fin 4) :
    Latest (.init (RpdoService.init (φ := φ) attr frame) now) j where
  past := nofun
  sign := fun positive => absurd positive (lt_irrefl 0)
  last := fun _ => nofun

/-- The slot's time is set now, and the log says so. -/
theorem refresh {table : Table 4 α φ} {obs : Obs 4} (inv : Latest s j)
    (timepoint : (table j).timepoint = s.now) (sign : signOf j obs = some s.now) :
    Latest { s with table := table, log := s.log ++ [obs] } j := by
  have signs' : signs { s with table := table, log := s.log ++ [obs] } j =
      signs s j ++ [s.now] := by
    rw [signs, List.filterMap_append, List.filterMap_cons_some sign]
    rfl
  have past : ∀ t ∈ signs s j ++ [s.now], t ≤ s.now := by
    intro t member
    rcases List.mem_append.mp member with old | new
    · exact inv.past t old
    · rw [List.mem_singleton.mp new]
  refine ⟨?_, fun _ => ?_, fun _ => ?_⟩
  · rw [signs']
    exact past
  · rw [signs', timepoint]
    simp
  · rw [signs', timepoint]
    exact past

/-- Nothing about the slot's time changes, and the log says nothing about it. -/
theorem frame {point : Point 4} {table : Table 4 α φ} {obs : List (Obs 4)} {overruns : Nat}
    (inv : Latest s j) (timeout : (table j).timeout = (s.table j).timeout)
    (timepoint : (table j).timepoint = (s.table j).timepoint)
    (silent : obs.filterMap (signOf j) = []) :
    Latest ⟨table, point, s.now, overruns, s.log ++ obs⟩ j := by
  have signs' : signs (⟨table, point, s.now, overruns, s.log ++ obs⟩ : State 4 α φ) j =
      signs s j := by
    simp only [signs, List.filterMap_append, silent, List.append_nil]
  refine ⟨?_, ?_, ?_⟩
  · rw [signs']
    exact inv.past
  · rw [signs', timepoint, timeout]
    exact inv.sign
  · rw [signs', timepoint, timeout]
    exact inv.last

theorem recv [DecidableEq α] {attr : α} {f : CanFrame} (inv : Latest s j)
    (handled : slotOf s.table attr = some j → (s.table j).unhandled = false)
    (step : RecvStep true s attr f t) : Latest t j := by
  cases step with
  | mismatch nowhere => exact inv
  | refused i found locked =>
      have other : i ≠ j := by
        rintro rfl
        exact absurd (locked.symm.trans (handled found)) nofun
      exact inv.frame rfl rfl (by simp [other])
  | stored i found free =>
      by_cases same : i = j
      · subst same
        exact inv.refresh (by simp) (by simp)
      · exact inv.frame (by simp [Ne.symm same]) (by simp [Ne.symm same]) (by simp [same])

theorem main (inv : Latest s j) (step : State.MainStep s t) : Latest t j := by
  cases step with
  | start at_point => exact inv.frame rfl rfl rfl
  | skip i at_point idle => exact ⟨inv.past, inv.sign, inv.last⟩
  | invoke i at_point due => exact inv.frame rfl rfl rfl
  | read i bytes at_point more => exact ⟨inv.past, inv.sign, inv.last⟩
  | complete i bytes at_point all => exact inv.frame rfl rfl rfl
  | clear i at_point =>
      have cleared : Latest
          ⟨Reception.clear s.table i, .goto (i + 1), s.now, s.overruns, s.log ++ []⟩ j :=
        inv.frame (clear_timeout ..) (clear_timepoint ..) rfl
      simpa only [List.append_nil] using cleared
  | finish at_point => exact inv.frame rfl rfl rfl

theorem step [DecidableEq α] {e : WatchEvent α φ} (inv : Latest s j) (handled : Handled j s e) :
    Latest (Watchdog.step s e) j := by
  cases e with
  | base e =>
      cases e with
      | recv attr f => exact inv.recv handled (recv_step true s attr f)
      | main => exact inv.main s.main_step
      | advance time =>
          have later : s.now ≤ s.now + time := by omega
          exact ⟨fun t member => (inv.past t member).trans later, inv.sign, inv.last⟩
  | register rpdo attr timeout handler =>
      by_cases same : rpdo = j
      · subst same
        exact inv.refresh (by simp [RpdoService.registerRpdo]) (by simp)
      · exact inv.frame (by simp [RpdoService.registerRpdo, Ne.symm same])
          (by simp [RpdoService.registerRpdo, Ne.symm same]) (by simp [same])

/-- With the last sign as the supervision time, `good` is the law itself. -/
theorem good_eq_false_iff (inv : Latest s j) (watched : 0 < (s.table j).timeout) :
    RpdoService.good s.table j s.now = false ↔
      ¬ ∃ t ∈ signs s j, s.now ≤ t + (s.table j).timeout := by
  have positive : ¬ (s.table j).timeout ≤ 0 := by omega
  unfold RpdoService.good
  rw [if_neg positive]
  constructor
  · rintro late ⟨t, member, alive⟩
    have before := inv.last watched t member
    rw [if_pos (by omega)] at late
    exact absurd late (by decide)
  · intro silent
    refine if_neg fun alive => silent ⟨_, inv.sign watched, alive⟩

end Latest

/-- As long as every frame for the slot finds the previous one handled, `good` is
    false exactly when nothing was heard of the slot within its timeout. -/
theorem good_iff_sign_of_life [DecidableEq α] (attr : Fin 4 → α) (frame : Fin 4 → CanFrame)
    (now : Int) (j : Fin 4) (schedule : List (WatchEvent α φ))
    (handled : Run.StepsMeet step (Handled j) (.init (RpdoService.init attr frame) now) schedule)
    (watched : 0 < (history attr now schedule).timeout j) :
    RpdoService.good (runFrom attr frame now schedule).table j
        (history attr now schedule).clock = false ↔
      ¬ ∃ t ∈ (history attr now schedule).signs j,
        (history attr now schedule).clock ≤ t + (history attr now schedule).timeout j := by
  have latest : Latest (runFrom attr frame now schedule) j :=
    Run.invariant_of_steps (fun s => Latest s j) (Latest.init attr frame now j)
      (fun s e allowed inv => inv.step allowed) schedule handled
  have reflects := reflects_run attr frame now schedule
  rw [← reflects.clock, ← reflects.timeout, ← reflects.signs]
  exact latest.good_eq_false_iff (by rwa [reflects.timeout])

section Stalled

def rpdo1Frame : CanFrame := ⟨0x201, 8, 0⟩

/-- Frames every 8 ms against a timeout of 10 ms, while the main loop is busy
    elsewhere. -/
def stalled : List (WatchEvent Nat Unit) :=
  [.register rpdo1 7 10 (some ()), .base (.recv 7 rpdo1Frame), .base (.advance 8),
    .base (.recv 7 rpdo1Frame), .base (.advance 8)]

def stalledState : State 4 Nat Unit := runFrom (fun i => i) (fun _ => rpdo1Frame) 0 stalled

def stalledHistory : History Nat := history (fun i => i) 0 stalled

/-- The second frame arrived 8 ms ago, and the watchdog raises the alarm. -/
theorem stalled_false_alarm : 0 < stalledHistory.timeout 0 ∧
    ¬ (RpdoService.good stalledState.table 0 stalledHistory.clock = false ↔
      ¬ ∃ t ∈ stalledHistory.signs 0,
        stalledHistory.clock ≤ t + stalledHistory.timeout 0) := by
  decide

/-- The same traffic with a pass of the main loop between the frames. -/
def served : List (WatchEvent Nat Unit) :=
  [.register rpdo1 7 10 (some ()), .base (.recv 7 rpdo1Frame)] ++ List.replicate 12 (.base .main) ++
    [.base (.advance 8), .base (.recv 7 rpdo1Frame), .base (.advance 8)]

def servedState : State 4 Nat Unit := runFrom (fun i => i) (fun _ => rpdo1Frame) 0 served

def servedHistory : History Nat := history (fun i => i) 0 served

theorem good_iff_sign_of_life_served :
    RpdoService.good servedState.table 0 servedHistory.clock = false ↔
      ¬ ∃ t ∈ servedHistory.signs 0, servedHistory.clock ≤ t + servedHistory.timeout 0 :=
  good_iff_sign_of_life (fun i => (i : Nat)) (fun _ => rpdo1Frame) 0 0 served (by decide +kernel)
    (by decide +kernel)

/-- There the slot is registered at 0, and hears a frame then and one 8 ms later. -/
example : servedHistory.signs 0 = [0, 0, 8] := by decide

end Stalled

end Watchdog

end Ucanopen.F4
