import Ucanopen.F4.Senders
import Ucanopen.Lib.Parts

/-! # Frames as they are put on the bus

A `send` function goes over its messages and puts a frame for each that is due. On the
bus a frame is known by the message it belongs to, and by when it was put.
-/

namespace Ucanopen.F4

open Run

variable {E σ μ β H : Type}

/-- Which message of which service a frame is. -/
inductive Source where
  | heartbeat
  | sync
  | tpdo (i : Nat)
  | sdo
  | node (k i : Nat)
  deriving Repr, DecidableEq

/-- A call of `put_frame`: when, and in which pass of `run`. -/
structure Put where
  time : Int
  pass : Nat
  source : Source
  frame : CanFrame
  deriving Repr, DecidableEq

/-- The frames that one call of a `send` function puts. -/
def puts (now : Int) (pass : Nat) (source : Nat → Source) (frames : List (Option CanFrame)) :
    List Put :=
  frames.zipIdx.filterMap fun (frame, i) => frame.map fun f => ⟨now, pass, source i, f⟩

theorem mem_puts {now : Int} {pass : Nat} {source : Nat → Source}
    {frames : List (Option CanFrame)} {put : Put} :
    put ∈ puts now pass source frames ↔
      ∃ i f, frames[i]? = some (some f) ∧ put = ⟨now, pass, source i, f⟩ := by
  unfold puts
  rw [List.mem_filterMap]
  constructor
  · rintro ⟨⟨frame, i⟩, member, made⟩
    obtain ⟨f, rfl, rfl⟩ := Option.map_eq_some_iff.mp made
    exact ⟨i, f, List.mem_zipIdx_iff_getElem?.mp member, rfl⟩
  · rintro ⟨i, f, here, rfl⟩
    exact ⟨(some f, i), List.mem_zipIdx_iff_getElem?.mpr here, rfl⟩

theorem puts_source {now : Int} {pass : Nat} {source : Nat → Source}
    {frames : List (Option CanFrame)} (other : ∀ i, source i ≠ .sdo) :
    (puts now pass source frames).filter (·.source = .sdo) = [] := by
  apply List.filter_eq_nil_iff.mpr
  intro put member
  obtain ⟨i, f, _, rfl⟩ := mem_puts.mp member
  simpa using other i

/-! ## One call of a send function -/

section SendAll

variable {sendOne : μ → E → μ × Option CanFrame × E}

theorem sendAll_headers (header : μ → H) (kept : ∀ m e, header (sendOne m e).1 = header m)
    (ms : List μ) (e : E) : (sendAll sendOne ms e).1.map header = ms.map header := by
  induction ms generalizing e with
  | nil => rfl
  | cons m ms ih => exact congrArg₂ List.cons (kept m e) (ih _)

/-- What message `i` puts is made by message `i`. -/
theorem sendAll_frame {ms : List μ} {e : E} {i : Nat} {f : CanFrame}
    (put : (sendAll sendOne ms e).2.1[i]? = some (some f)) :
    ∃ m e', ms[i]? = some m ∧ (sendOne m e').2.1 = some f := by
  induction ms generalizing i e with
  | nil => exact absurd put nofun
  | cons m ms ih =>
      cases i with
      | zero => exact ⟨m, e, rfl, Option.some.inj put⟩
      | succ i => exact ih put

variable (sendOne) in
theorem sendAll_none {ms : List μ} {i : Nat} (missing : ms[i]? = none) (e : E) :
    (sendAll sendOne ms e).1[i]? = none ∧ (sendAll sendOne ms e).2.1[i]? = none := by
  induction ms generalizing i e with
  | nil => exact ⟨rfl, rfl⟩
  | cons m ms ih =>
      cases i with
      | zero => exact absurd missing nofun
      | succ i => exact ih missing _

end SendAll

/-! ## When the frames of a message are put -/

/-- Of the frames of a call, those of message `i` are the one it puts. -/
theorem puts_of (now : Int) (pass : Nat) {source : Nat → Source}
    (apart : Function.Injective source) (frames : List (Option CanFrame)) (i : Nat) :
    (puts now pass source frames).filter (·.source = source i) =
      frames[i]?.join.toList.map fun f => ⟨now, pass, source i, f⟩ := by
  have from_ : ∀ (frames : List (Option CanFrame)) (first : Nat),
      ((frames.zipIdx first).filterMap fun (frame, i) =>
          frame.map fun f => (⟨now, pass, source i, f⟩ : Put)).filter (·.source = source i) =
        if first ≤ i then
          frames[i - first]?.join.toList.map fun f => ⟨now, pass, source i, f⟩
        else [] := by
    intro frames
    induction frames with
    | nil => simp
    | cons frame frames ih =>
        intro first
        have rest := ih (first + 1)
        rw [List.zipIdx_cons, List.filterMap_cons]
        by_cases here : i = first
        · subst here
          have none : ¬ i + 1 ≤ i := by omega
          cases frame with
          | none => simpa [none] using rest
          | some f => simpa [none] using rest
        · have elsewhere : ¬ first = i := fun same => here same.symm
          by_cases later : first < i
          · have index : i - first = i - (first + 1) + 1 := by omega
            have reached : first ≤ i := by omega
            have reached' : first + 1 ≤ i := later
            cases frame with
            | none => simpa [index, reached, reached'] using rest
            | some f => simpa [index, reached, reached', apart.eq_iff, elsewhere] using rest
          · have missed : ¬ first ≤ i := by omega
            have missed' : ¬ first + 1 ≤ i := by omega
            cases frame with
            | none => simpa [missed, missed'] using rest
            | some f => simpa [missed, missed', apart.eq_iff, elsewhere] using rest
  simpa [puts] using from_ frames 0

theorem puts_single (now : Int) (pass : Nat) (source : Source) (frame : Option CanFrame) :
    (puts now pass (fun _ => source) [frame]).filter (·.source = source) =
      frame.toList.map fun f => ⟨now, pass, source, f⟩ := by
  cases frame with
  | none => rfl
  | some f => simp [puts]

/-- The times at which frames of a message are put. -/
def timesOf (source : Source) (puts : List Put) : List Int :=
  puts.filterMap fun put => if put.source = source then some put.time else none

theorem timesOf_eq (source : Source) (puts : List Put) :
    timesOf source puts = (puts.filter (·.source = source)).map (·.time) := by
  unfold timesOf
  rw [← List.filterMap_eq_map, List.filterMap_filter]
  simp only [decide_eq_true_eq]
  rfl

theorem timesOf_puts (now : Int) (pass : Nat) {source : Nat → Source}
    (apart : Function.Injective source) (frames : List (Option CanFrame)) (i : Nat) :
    timesOf (source i) (puts now pass source frames) =
      if frames[i]?.join.isSome then [now] else [] := by
  rw [timesOf_eq, puts_of now pass apart]
  cases frames[i]?.join <;> rfl

theorem timesOf_single (now : Int) (pass : Nat) (source : Source) (frame : Option CanFrame) :
    timesOf source (puts now pass (fun _ => source) [frame]) =
      if frame.isSome then [now] else [] := by
  rw [timesOf_eq, puts_single]
  cases frame <;> rfl

theorem Timed.polled {send : σ → β → σ × Option CanFrame} {time : β → Int}
    {timer : σ → Option (Int × Int)} (timed : Timed send time timer) (s : σ) (poll : β) :
    Polled (time poll) (timer s) (timer (send s poll).1)
      (if (send s poll).2.isSome then [time poll] else []) := by
  cases on : timer s with
  | none =>
      rw [timed.off on, on]
      exact .off
  | some setting =>
      obtain ⟨period, start⟩ := setting
      by_cases early : time poll < start + period
      · rw [timed.early on early, on]
        exact .early early
      · obtain ⟨restarted, sends⟩ := timed.late on early
        rw [restarted, sends]
        exact .late early

/-- A message in a list is polled as it is alone. -/
theorem sendAll_polled {now : Int} (pass : Nat) (e : E) {source : Nat → Source}
    (apart : Function.Injective source) {sendOne : Int → μ → E → μ × Option CanFrame × E}
    {timer : μ → Option (Int × Int)} (timed : Timed (alone sendOne) Prod.fst timer)
    (ms : List μ) (i : Nat) :
    Polled now (ms[i]?.bind timer) ((sendAll (sendOne now) ms e).1[i]?.bind timer)
      (timesOf (source i) (puts now pass source (sendAll (sendOne now) ms e).2.1)) := by
  rw [timesOf_puts now pass apart]
  cases here : ms[i]? with
  | none =>
      obtain ⟨message, frame⟩ := sendAll_none (sendOne now) here e
      rw [message, frame]
      exact .off
  | some m =>
      obtain ⟨e', message, frame⟩ := sendAll_at (sendOne now) here e
      rw [message, frame]
      exact timed.polled m (now, e')

end Ucanopen.F4
