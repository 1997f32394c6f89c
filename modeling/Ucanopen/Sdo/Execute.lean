import Ucanopen.Sdo.Rules
import Ucanopen.Lib.Server

/-! # Requests one after another

A core executes requests on its machine until one of them reaches undefined
behaviour; from then on nothing more is executed. This is the sequential server
that the interrupt-driven services are compared with.
-/

namespace Ucanopen

open Exec

variable {w : Nat} {E : Type}

structure Core (E : Type) where
  machine : Machine E
  fault : Option Fault

def Core.start (m : Machine E) : Core E := ⟨m, none⟩

@[simp] theorem Core.start_machine (m : Machine E) : (Core.start m).machine = m := rfl

namespace Port

variable (port : Port w E)

/-- One request on a core: the response, if any, and the core afterwards. -/
def execute (c : Core E) (p : CanPayload) : Option CanPayload × Core E :=
  match c.fault with
  | some _ => (none, c)
  | none =>
      match (port.handleRequest p).run c.machine with
      | .ok response m => (response, ⟨m, none⟩)
      | .error f m => (none, ⟨m, some f⟩)

/-- The core after a sequence of request payloads. -/
def serve (c : Core E) (requests : List CanPayload) : Core E := Server.after port.execute c requests

/-- An abort frame has no effect and no response. -/
theorem execute_abort (c : Core E) {p : CanPayload}
    (abort : (ExpeditedSdo.fromPayload p).cs = SdoCsCodes.abort) :
    port.execute c p = (none, c) := by
  obtain ⟨m, fault⟩ := c
  cases fault with
  | some f => rfl
  | none =>
      have handled : port.handleRequest p = pure none := if_pos abort
      simp [execute, handled]

/-- Any other request is answered, unless it ends in undefined behaviour. -/
theorem execute_answers {c : Core E} {p : CanPayload} (alive : (port.execute c p).2.fault = none)
    (request : (ExpeditedSdo.fromPayload p).cs ≠ SdoCsCodes.abort) :
    (port.execute c p).1.isSome = true := by
  obtain ⟨m, fault⟩ := c
  cases fault with
  | some f => exact absurd alive (by simp [execute])
  | none =>
      have handled : port.handleRequest p = (do
          let outcome ← port.dispatch (ExpeditedSdo.fromPayload p)
          pure (some (port.encode (ExpeditedSdo.fromPayload p) outcome))) := if_neg request
      simp only [execute, handled, EStateM.run_bind] at alive ⊢
      cases ran : (port.dispatch (ExpeditedSdo.fromPayload p)).run m with
      | ok outcome m' => rfl
      | error f m' => simp [ran] at alive

/-- Execution after undefined behaviour does not come back. -/
theorem execute_alive {c : Core E} {p : CanPayload} (alive : (port.execute c p).2.fault = none) :
    c.fault = none := by
  obtain ⟨m, fault⟩ := c
  cases fault with
  | some f => exact alive
  | none => rfl

theorem serve_alive {c : Core E} {requests : List CanPayload}
    (alive : (port.serve c requests).fault = none) : c.fault = none := by
  induction requests generalizing c with
  | nil => exact alive
  | cons p ps ih => exact port.execute_alive (ih alive)

/-- Whatever a core executes, it executes on its machine. -/
theorem execute_run {c : Core E} (alive : c.fault = none) (p : CanPayload) :
    port.execute c p =
      match (port.handleRequest p).run c.machine with
      | .ok response m => (response, ⟨m, none⟩)
      | .error f m => (none, ⟨m, some f⟩) := by
  unfold execute
  rw [alive]

/-- A core executes a request as its command ends. -/
theorem execute_dispatch {c : Core E} (alive : c.fault = none) {p : CanPayload}
    (request : (ExpeditedSdo.fromPayload p).cs ≠ SdoCsCodes.abort) :
    port.execute c p =
      match (port.dispatch (ExpeditedSdo.fromPayload p)).run c.machine with
      | .ok outcome m => (some (port.encode (ExpeditedSdo.fromPayload p) outcome), ⟨m, none⟩)
      | .error f m => (none, ⟨m, some f⟩) := by
  rw [port.execute_run alive, port.handleRequest_run request]
  cases (port.dispatch (ExpeditedSdo.fromPayload p)).run c.machine <;> rfl

theorem execute_machine {c : Core E} (alive : c.fault = none) (p : CanPayload) :
    (port.execute c p).2.machine = final ((port.handleRequest p).run c.machine) := by
  rw [port.execute_run alive]
  cases (port.handleRequest p).run c.machine <;> rfl

/-- Two engines execute a request alike when its two runs end alike. -/
theorem execute_eq_iff {v : Nat} (other : Port v E) (m : Machine E) (p : CanPayload) :
    port.execute (.start m) p = other.execute (.start m) p ↔
      (port.handleRequest p).run m = (other.handleRequest p).run m := by
  rw [port.execute_run rfl, other.execute_run rfl]
  change (match (port.handleRequest p).run m with | .ok r m => _ | .error f m => _) =
    (match (other.handleRequest p).run m with | .ok r m => _ | .error f m => _) ↔ _
  cases (port.handleRequest p).run m with
  | ok r m' =>
      cases (other.handleRequest p).run m with
      | ok r' m'' => simp
      | error f m'' => simp
  | error f m' =>
      cases (other.handleRequest p).run m with
      | ok r' m'' => simp
      | error f' m'' => simp [and_comm]

/-- A property of the machines on which a sequence of requests uses addresses:
    where each request starts, where a request runs a restore, and at the end. -/
def Throughout (Q : Machine E → Prop) : Core E → List CanPayload → Prop
  | c, [] => Q c.machine
  | c, p :: ps =>
      Q c.machine ∧
        (c.fault = none → ∀ key m, port.RestoreRun c.machine p key m → Q m) ∧
        Throughout Q (port.execute c p).2 ps

theorem Throughout.of_forall {Q : Machine E → Prop} (all : ∀ m, Q m) (c : Core E)
    (requests : List CanPayload) : port.Throughout Q c requests := by
  induction requests generalizing c with
  | nil => exact all c.machine
  | cons p ps ih => exact ⟨all c.machine, fun _ _ m _ => all m, ih _⟩

theorem Throughout.final {port : Port w E} {Q : Machine E → Prop} {c : Core E}
    {requests : List CanPayload} (all : port.Throughout Q c requests) :
    Q (port.serve c requests).machine := by
  induction requests generalizing c with
  | nil => exact all
  | cons p ps ih => exact ih all.2.2

end Port

/-- Two cores on related machines answer every sequence of requests alike, as long
    as the guard holds of both where they use addresses. -/
theorem AccessRelation.answers {port : Port w E} {Q : Machine E → Prop}
    {R : Machine E → Machine E → Prop}
    (rel : AccessRelation port.dictionary.entries (fun s t => Q s ∧ Q t) R) (c c' : Core E)
    (fault : c.fault = c'.fault) (related : R c.machine c'.machine) {requests : List CanPayload}
    (left : port.Throughout Q c requests) (right : port.Throughout Q c' requests) :
    Server.answers port.execute c requests = Server.answers port.execute c' requests ∧
      R (port.serve c requests).machine (port.serve c' requests).machine := by
  induction requests generalizing c c' with
  | nil => exact ⟨rfl, related⟩
  | cons p ps ih =>
      have one : (port.execute c p).1 = (port.execute c' p).1 ∧
          (port.execute c p).2.fault = (port.execute c' p).2.fault ∧
          R (port.execute c p).2.machine (port.execute c' p).2.machine := by
        cases alive : c.fault with
        | some f =>
            have alive' : c'.fault = some f := fault.symm.trans alive
            unfold Port.execute
            rw [alive, alive']
            exact ⟨rfl, fault, related⟩
        | none =>
            have alive' : c'.fault = none := fault.symm.trans alive
            have agree := rel.handleRequest p ⟨left.1, right.1⟩ related
              fun key s' t' restores restores' =>
                ⟨left.2.1 alive key s' restores, right.2.1 alive' key t' restores'⟩
            rw [port.execute_run alive, port.execute_run alive']
            cases ran : (port.handleRequest p).run c.machine with
            | ok r m =>
                cases ran' : (port.handleRequest p).run c'.machine with
                | ok r' m' =>
                    rw [ran, ran'] at agree
                    exact ⟨agree.1, rfl, agree.2⟩
                | error =>
                    rw [ran, ran'] at agree
                    exact agree.elim
            | error f m =>
                cases ran' : (port.handleRequest p).run c'.machine with
                | ok =>
                    rw [ran, ran'] at agree
                    exact agree.elim
                | error f' m' =>
                    rw [ran, ran'] at agree
                    exact ⟨rfl, congrArg some agree.1, agree.2⟩
      obtain ⟨rest, final⟩ := ih _ _ one.2.1 one.2.2 left.2.2 right.2.2
      refine ⟨?_, final⟩
      rw [Server.answers, Server.answers, one.1, rest]

end Ucanopen
