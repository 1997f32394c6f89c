import Mathlib.Data.List.Induction
import Ucanopen.F4.SdoService
import Ucanopen.Lib.Parts

/-! # The F4 SDO service refines a sequential server

Whatever the interleaving of the receive interrupt with the main loop, the
requests are executed in arrival order on one machine, and the responses leave
in that order. What the two bounded queues can lose is accounted for exactly: a
frame that finds `rsdo_queue_` full is reported, a response that finds
`tsdo_queue_` full is not.
-/

namespace Ucanopen.F4

open Bytes

variable {α E : Type}

namespace State

/-! ## What one event can do -/

/-- The ways `recv` can change the state. -/
inductive RecvStep (s : State α E) (p : CanPayload) : State α E → Prop
  | mismatch : RecvStep s p s
  | overrun (full : s.sdo.rsdoQueue.full = true) :
      RecvStep s p
        { s with overruns := s.overruns + 1, arrivals := s.arrivals ++ [⟨p, false⟩] }
  | pushed (room : s.sdo.rsdoQueue.full = false) :
      RecvStep s p
        { s with
          sdo := { s.sdo with rsdoQueue := s.sdo.rsdoQueue.push p room }
          arrivals := s.arrivals ++ [⟨p, true⟩] }

theorem recv_step [DecidableEq α] (s : State α E) (attr : α) (frame : CanFrame) :
    RecvStep s frame.payload (s.recv attr frame) := by
  simp only [recv, SdoService.recv]
  by_cases other : attr ≠ s.sdo.rsdoRxattr
  · simp only [if_pos other]
    exact .mismatch
  · simp only [if_neg other]
    by_cases full : s.sdo.rsdoQueue.full = true
    · simp only [dif_pos full]
      exact .overrun full
    · simp only [dif_neg full]
      exact .pushed (Bool.eq_false_iff.mpr full)

/-- The ways a step of the main loop can change the state. -/
inductive MainStep (port : Port 8 E) (s : State α E) : State α E → Prop
  | stopped : MainStep port s s
  | stage (next : Stage) (elsewhere : next ≠ .handle)
      (drained : next = .beforeHandle → s.sdo.tsdoQueue.items = []) :
      MainStep port s { s with stage := next }
  | activate (at_stage : s.stage = .beforeHandle) :
      MainStep port s { s with stage := .handle, activations := s.activations + 1 }
  | send (payload : CanPayload) (at_stage : s.stage = .send)
      (front : s.sdo.tsdoQueue.front? = some payload) :
      MainStep port s (s.sendIteration payload)
  | handle (request : CanPayload) (at_stage : s.stage = .handle)
      (front : s.sdo.rsdoQueue.front? = some request) :
      MainStep port s (s.handleIteration port request)

theorem main_step (port : Port 8 E) (s : State α E) : MainStep port s (s.main port) := by
  unfold main
  cases s.core.fault with
  | some f => exact .stopped
  | none =>
      cases at_stage : s.stage with
      | beforeSend => exact .stage .send (by decide) nofun
      | send =>
          cases front : s.sdo.tsdoQueue.front? with
          | none => exact .stage _ (by decide) fun _ => s.sdo.tsdoQueue.items_of_no_front front
          | some payload => exact .send payload at_stage front
      | beforeHandle => exact .activate at_stage
      | handle =>
          cases front : s.sdo.rsdoQueue.front? with
          | none => exact .stage .afterHandle (by decide) nofun
          | some request => exact .handle request at_stage front
      | afterHandle => exact .stage .beforeSend (by decide) nofun

/-! ## One round of each loop -/

@[simp] theorem sendIteration_delivered (s : State α E) {payload : CanPayload}
    (front : s.sdo.tsdoQueue.front? = some payload) :
    (s.sendIteration payload).delivered = s.delivered := by
  simp only [delivered, sendIteration, SdoService.sendIteration, List.map_append,
    s.sdo.tsdoQueue.items_of_front front]
  simp

theorem pushResponse_tsdoQueue (sdo : SdoService α) (response : CanPayload) :
    (sdo.pushResponse response).tsdoQueue.items =
      sdo.tsdoQueue.items ++ (if sdo.tsdoQueue.full then [] else [response]) := by
  unfold SdoService.pushResponse
  by_cases full : sdo.tsdoQueue.full = true <;> simp [full]

theorem pushResponse_rsdoQueue (sdo : SdoService α) (response : CanPayload) :
    (sdo.pushResponse response).rsdoQueue = sdo.rsdoQueue := by
  unfold SdoService.pushResponse
  split <;> rfl

section HandleIteration

variable (port : Port 8 E) (s : State α E) (request : CanPayload)

@[simp] theorem handleIteration_popped :
    (s.handleIteration port request).popped = s.popped ++ [request] := by
  simp [popped, handleIteration]

@[simp] theorem handleIteration_core :
    (s.handleIteration port request).core = (port.execute s.core request).2 := by
  simp only [handleIteration, SdoService.handleIteration]
  cases (port.execute s.core request).1 <;> rfl

@[simp] theorem handleIteration_rsdoQueue :
    (s.handleIteration port request).sdo.rsdoQueue = s.sdo.rsdoQueue.pop := by
  simp only [handleIteration, SdoService.handleIteration]
  cases (port.execute s.core request).1 with
  | none => rfl
  | some response => exact pushResponse_rsdoQueue _ _

@[simp] theorem handleIteration_tsdoQueue :
    (s.handleIteration port request).sdo.tsdoQueue.items =
      s.sdo.tsdoQueue.items ++
        (if s.sdo.tsdoQueue.full then [] else (port.execute s.core request).1.toList) := by
  simp only [handleIteration, SdoService.handleIteration]
  cases (port.execute s.core request).1 with
  | none => simp
  | some response => exact pushResponse_tsdoQueue _ _

end HandleIteration

/-! ## The service against the sequential server -/

/-- Everything the run has shown so far is explained by executing the popped
    requests one after another on the initial machine. -/
structure Sequential (port : Port 8 E) (m : Machine E) (s : State α E) : Prop where
  order : s.popped ++ s.sdo.rsdoQueue.items = s.accepted
  overruns : s.overruns = s.rejected.length
  core : s.core = port.serve (.start m) s.popped
  answers : s.served.map (·.response) = Server.answers port.execute (.start m) s.popped
  delivered : s.delivered = (s.served.filter (!·.queueFull)).filterMap (·.response)
  drained : s.stage = .beforeHandle → s.sdo.tsdoQueue.items = []

namespace Sequential

variable {port : Port 8 E} {m : Machine E} {s t : State α E}

theorem init (port : Port 8 E) (attr : α) (node : NodeId) (m : Machine E) :
    Sequential port m (init attr node m) where
  order := rfl
  overruns := rfl
  core := rfl
  answers := rfl
  delivered := rfl
  drained := fun _ => rfl

theorem recv {p : CanPayload} (inv : Sequential port m s) (step : RecvStep s p t) :
    Sequential port m t := by
  cases step with
  | mismatch => exact inv
  | overrun full =>
      refine { inv with order := ?_, overruns := ?_ }
      · simpa [accepted, popped] using inv.order
      · simpa [rejected] using inv.overruns
  | pushed room =>
      refine { inv with order := ?_, overruns := ?_ }
      · simpa [accepted, popped] using congrArg (· ++ [p]) inv.order
      · simpa [rejected] using inv.overruns

theorem handle {request : CanPayload} (inv : Sequential port m s) (at_stage : s.stage = .handle)
    (front : s.sdo.rsdoQueue.front? = some request) :
    Sequential port m (s.handleIteration port request) where
  order := by
    rw [handleIteration_popped, handleIteration_rsdoQueue, List.append_assoc,
      List.singleton_append, ← s.sdo.rsdoQueue.items_of_front front]
    exact inv.order
  overruns := inv.overruns
  core := by simp [inv.core, Port.serve]
  answers := by
    rw [handleIteration_popped, Server.answers_concat, ← inv.answers]
    simp [handleIteration, inv.core, Port.serve]
  delivered := by
    have frames : (s.handleIteration port request).putFrames = s.putFrames := rfl
    have served : (s.handleIteration port request).served = s.served ++ [{
        request := request
        response := (port.execute s.core request).1
        activation := s.activations
        queueFull := s.sdo.tsdoQueue.full }] := rfl
    rw [State.delivered, frames, handleIteration_tsdoQueue, ← List.append_assoc,
      ← show s.delivered = s.putFrames.map (·.payload) ++ s.sdo.tsdoQueue.items from rfl,
      inv.delivered, served, List.filter_append, List.filterMap_append]
    congr 1
    cases s.sdo.tsdoQueue.full <;> cases (port.execute s.core request).1 <;> rfl
  drained := fun wrong => absurd (at_stage.symm.trans wrong) nofun

theorem main (inv : Sequential port m s) (step : MainStep port s t) : Sequential port m t := by
  cases step with
  | stopped => exact inv
  | stage next elsewhere drained => exact { inv with drained := drained }
  | activate => exact { inv with drained := nofun }
  | send payload at_stage front =>
      refine { inv with delivered := ?_, drained := ?_ }
      · exact (s.sendIteration_delivered front).trans inv.delivered
      · exact fun wrong => absurd (at_stage.symm.trans wrong) nofun
  | handle request at_stage front => exact inv.handle at_stage front

theorem step [DecidableEq α] (inv : Sequential port m s) (e : Event α) :
    Sequential port m (s.step port e) := by
  cases e with
  | recv attr frame => exact inv.recv (s.recv_step attr frame)
  | main => exact inv.main (s.main_step port)

theorem run [DecidableEq α] (port : Port 8 E) (attr : α) (node : NodeId) (m : Machine E)
    (schedule : List (Event α)) : Sequential port m (runFrom port attr node m schedule) :=
  Run.invariant (Sequential port m) (Sequential.init port attr node m) (fun _ e inv => inv.step e) schedule

end Sequential

/-! ## What the run recorded, against the schedule -/

/-- The payloads of the frames of a schedule that are for the service. -/
def matching [DecidableEq α] (attr : α) (schedule : List (Event α)) : List CanPayload :=
  schedule.filterMap fun
    | .recv a frame => if a = attr then some frame.payload else none
    | .main => none

theorem MainStep.arrivals {port : Port 8 E} {s t : State α E} (step : MainStep port s t) :
    t.arrivals = s.arrivals ∧ t.sdo.rsdoRxattr = s.sdo.rsdoRxattr := by
  cases step with
  | stopped => exact ⟨rfl, rfl⟩
  | stage => exact ⟨rfl, rfl⟩
  | activate => exact ⟨rfl, rfl⟩
  | send => exact ⟨rfl, rfl⟩
  | handle request =>
      refine ⟨rfl, ?_⟩
      simp only [handleIteration, SdoService.handleIteration]
      cases (port.execute s.core request).1 with
      | none => rfl
      | some response =>
          simp only [SdoService.pushResponse]
          split <;> rfl

theorem recv_arrivals [DecidableEq α] (s : State α E) (attr : α) (frame : CanFrame) :
    (s.recv attr frame).arrivals.map (·.payload) =
        s.arrivals.map (·.payload) ++ matching s.sdo.rsdoRxattr [.recv attr frame] ∧
      (s.recv attr frame).sdo.rsdoRxattr = s.sdo.rsdoRxattr := by
  simp only [recv, SdoService.recv, matching]
  by_cases other : attr = s.sdo.rsdoRxattr
  · by_cases full : s.sdo.rsdoQueue.full = true
    · simp [other, full]
    · simp [other, full]
  · simp [other]

/-- The record of arrivals is the schedule's own list of matching frames. -/
theorem arrivals_run [DecidableEq α] (port : Port 8 E) (s : State α E) (schedule : List (Event α)) :
    (Run.run (step port) s schedule).arrivals.map (·.payload) =
      s.arrivals.map (·.payload) ++ matching s.sdo.rsdoRxattr schedule := by
  induction schedule generalizing s with
  | nil => simp [matching]
  | cons e es ih =>
      rw [Run.run_cons, ih]
      cases e with
      | recv attr frame =>
          obtain ⟨arrivals, rxattr⟩ := s.recv_arrivals attr frame
          simp only [step, arrivals, rxattr, List.append_assoc]
          rw [matching, matching, ← List.filterMap_append]
          rfl
      | main =>
          obtain ⟨arrivals, rxattr⟩ := (s.main_step port).arrivals
          simp only [step, arrivals, rxattr]
          rfl

/-- Only popping a request adds to the record, and the record tells whether the queue
    of responses held sixteen of them then. -/
theorem served_step [DecidableEq α] (port : Port 8 E) (s : State α E) (e : Event α) :
    (s.step port e).served = s.served ∨
      ∃ r, e = .main ∧ (s.step port e).served = s.served ++ [r] ∧
        r.queueFull = decide (s.sdo.tsdoQueue.items.length = 16) := by
  cases e with
  | recv attr frame =>
      have step := s.recv_step attr frame
      change (s.recv attr frame).served = s.served ∨ _
      generalize s.recv attr frame = t at step
      cases step with
      | _ => exact .inl rfl
  | main =>
      have step := s.main_step port
      change (s.main port).served = s.served ∨ ∃ r, _ ∧ (s.main port).served = _ ∧ _
      generalize s.main port = t at step ⊢
      cases step with
      | handle request at_stage front => exact .inr ⟨_, rfl, rfl, rfl⟩
      | _ => exact .inl rfl

/-- Every entry of the record was made by one step of the main loop. -/
theorem served_run [DecidableEq α] (port : Port 8 E) (s : State α E) (schedule : List (Event α))
    {k : Nat} {r : Served} (later : s.served.length ≤ k)
    (here : (Run.run (step port) s schedule).served[k]? = some r) :
    ∃ before after, schedule = before ++ .main :: after ∧
      (Run.run (step port) s before).served.length = k ∧
      (Run.run (step port) s (before ++ [.main])).served =
        (Run.run (step port) s before).served ++ [r] ∧
      r.queueFull = decide ((Run.run (step port) s before).sdo.tsdoQueue.items.length = 16) := by
  induction schedule using List.reverseRecOn with
  | nil => exact absurd here (by simp [later])
  | append_singleton es e ih =>
      have last : Run.run (step port) s (es ++ [e]) = (Run.run (step port) s es).step port e := by
        rw [Run.run_append]
        rfl
      rw [last] at here
      have added := served_step port (Run.run (step port) s es) e
      by_cases old : k < (Run.run (step port) s es).served.length
      · have kept : (Run.run (step port) s es).served[k]? = some r := by
          obtain same | ⟨_, _, made, _⟩ := added
          · rwa [same] at here
          · rwa [made, List.getElem?_append_left old] at here
        obtain ⟨before, after, rfl, made⟩ := ih kept
        exact ⟨before, after ++ [e], by simp, made⟩
      · have inside := (List.getElem?_eq_some_iff.mp here).1
        obtain same | ⟨new, rfl, made, full⟩ := added
        · rw [same] at inside
          exact absurd inside old
        · rw [made, List.length_append, List.length_singleton] at inside
          obtain rfl : k = (Run.run (step port) s es).served.length := by omega
          rw [made, List.getElem?_concat_length, Option.some.injEq] at here
          subst here
          exact ⟨es, [], rfl, rfl, by rw [last, made], full⟩

/-- The service is a sequential server in arrival order, whatever the schedule. -/
theorem serves_in_order [DecidableEq α] (d : ObjectDictionary 8 E) (attr : α) (node : NodeId)
    (m : Machine E) (schedule : List (Event α)) :
    Sequential (port d) m (runFrom (port d) attr node m schedule) ∧
      (runFrom (port d) attr node m schedule).arrivals.map (·.payload) =
        matching attr schedule ∧
      (∀ k r, (runFrom (port d) attr node m schedule).served[k]? = some r →
        ∃ before after, schedule = before ++ .main :: after ∧
          (runFrom (port d) attr node m before).served.length = k ∧
          (runFrom (port d) attr node m (before ++ [.main])).served =
            (runFrom (port d) attr node m before).served ++ [r] ∧
          r.queueFull =
            decide ((runFrom (port d) attr node m before).sdo.tsdoQueue.items.length = 16)) ∧
      ∀ c p, (ExpeditedSdo.fromPayload p).cs = SdoCsCodes.abort →
        (port d).execute c p = (none, c) := by
  refine ⟨Sequential.run (port d) attr node m schedule, ?_, fun k r here => ?_, ?_⟩
  · exact arrivals_run (port d) (State.init attr node m) schedule
  · exact served_run (port d) (State.init attr node m) schedule (Nat.zero_le k) here
  · intro c p abort
    exact (port d).execute_abort c abort

end State

end Ucanopen.F4
