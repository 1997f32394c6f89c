import Ucanopen.Sdo.Execute

/-! # SDO requests among other work

In a device the machine is not the SDO service's alone: handlers, creators and the
application change it between two requests. The service is then a sequential server of
requests that are interleaved with this work.
-/

namespace Ucanopen

open Bytes Exec

variable {w : Nat} {E : Type}

/-- A property of machines that each access an entry admits keeps. -/
structure AccessInvariant (entries : List (ODEntry w E)) (Q : Machine E → Prop) : Prop where
  store : ∀ a ∈ entries, a.object.hasWritePermission = true → a.object.hasDirectAccess = true →
    ∀ (data : ExpeditedSdoData) m, Q m →
      Q { m with mem := overwrite m.mem (a.object.address m) a.object.size (byte data) }
  readFunc : ∀ a ∈ entries, ∀ f, a.object.readFunc = .func f → ∀ data m, Q m → Q (f data m).2
  writeFunc : ∀ a ∈ entries, ∀ f, a.object.writeFunc = .func f → ∀ data m, Q m → Q (f data m).2

namespace AccessInvariant

variable {port : Port w E} {Q : Machine E → Prop}

/-- A run agrees with itself in states that have the property. -/
theorem relation {entries : List (ODEntry w E)} (inv : AccessInvariant entries Q) :
    AccessRelation entries (fun _ _ => True) fun s t => s = t ∧ Q s where
  load := by
    rintro a - - direct data s t - ⟨rfl, holds⟩
    rw [ODObject.load_run direct]
    exact ⟨rfl, rfl, holds⟩
  store := by
    rintro a member permission direct data s t - ⟨rfl, holds⟩
    rw [ODObject.store_run direct]
    exact ⟨rfl, rfl, inv.store a member permission direct data s holds⟩
  readFunc := by
    rintro a member f call data s t ⟨rfl, holds⟩
    exact ⟨rfl, rfl, inv.readFunc a member f call data s holds⟩
  writeFunc := by
    rintro a member f call data s t ⟨rfl, holds⟩
    exact ⟨rfl, rfl, inv.writeFunc a member f call data s holds⟩

/-- What each access keeps, a request keeps. -/
theorem execute (inv : AccessInvariant port.dictionary.entries Q) {c : Core E}
    (holds : Q c.machine) (p : CanPayload) : Q (port.execute c p).2.machine := by
  cases fault : c.fault with
  | some f => simpa only [Port.execute, fault] using holds
  | none =>
      rw [port.execute_machine fault]
      have agree := inv.relation.handleRequest p trivial ⟨rfl, holds⟩ fun _ _ _ _ _ => trivial
      cases ran : (port.handleRequest p).run c.machine with
      | ok response m =>
          rw [ran] at agree
          exact agree.2.2
      | error f m =>
          rw [ran] at agree
          exact agree.2.2

end AccessInvariant

/-- What is done to the machine: a request is executed, or the application works. -/
inductive Work (E : Type) where
  | request (p : CanPayload)
  | application (f : Machine E → Machine E)

namespace Work

/-- A piece of work on a core: the response, if any, and the core afterwards. -/
def perform (port : Port w E) (c : Core E) : Work E → Option CanPayload × Core E
  | .request p => port.execute c p
  | .application f => (none, { c with machine := f c.machine })

/-- A request and its answer. -/
def answered : Work E × Option CanPayload → Option (CanPayload × Option CanPayload)
  | (.request p, response) => some (p, response)
  | (.application _, _) => none

/-- The requests among the work, with their answers. -/
def exchanges (port : Port w E) (c : Core E) (work : List (Work E)) :
    List (CanPayload × Option CanPayload) :=
  (work.zip (Server.answers (perform port) c work)).filterMap answered

theorem exchanges_concat (port : Port w E) (c : Core E) (work : List (Work E)) (last : Work E) :
    exchanges port c (work ++ [last]) =
      exchanges port c work ++
        (answered (last, (last.perform port (Server.after (perform port) c work)).1)).toList := by
  have length : work.length = (Server.answers (perform port) c work).length := by
    induction work generalizing c with
    | nil => rfl
    | cons first work ih => exact congrArg (· + 1) (ih _)
  unfold exchanges
  rw [Server.answers_concat, List.zip_append length, List.filterMap_append]
  rfl

end Work

end Ucanopen
