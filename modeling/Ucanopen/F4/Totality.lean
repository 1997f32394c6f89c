import Ucanopen.F4.Startup
import Mathlib.Data.List.Chain

/-! # What an accepted dictionary lets a client reach

The start-up asserts that an object without direct access has functions other
than the stubs, but not that they are other than null. To see where a stub is
called, its calls are made as fatal as those of a null pointer.
-/

namespace Ucanopen

open Bytes Exec

variable {w : Nat} {E : Type}

/-- Every access a permission promises without a pointer has a function to call. -/
structure Callable (entries : List (ODEntry w E)) : Prop where
  readFunc : ∀ a ∈ entries, a.object.hasReadPermission = true →
    a.object.hasDirectAccess = false → a.object.readFunc ≠ .null
  writeFunc : ∀ a ∈ entries, a.object.hasWritePermission = true →
    a.object.hasDirectAccess = false → a.object.writeFunc ≠ .null

/-! ## Requests that return -/

namespace Port

variable {port : Port w E}

theorem returns_of_fetched {a : ODEntry w E} {data : ExpeditedSdoData} {m : Machine E}
    {r : EStateM.Result Fault (Machine E) (SdoAbortCode × ExpeditedSdoData)}
    (callable : a.object.hasDirectAccess = false → a.object.readFunc ≠ .null)
    (ends : a.object.Fetched data m r) : Returns r := by
  cases ends with
  | direct direct => trivial
  | null indirect null => exact absurd null (callable indirect)
  | noAccess indirect stub => trivial
  | func f indirect call => trivial

theorem returns_of_written {a : ODEntry w E} {data : ExpeditedSdoData} {m : Machine E}
    {r : EStateM.Result Fault (Machine E) SdoAbortCode}
    (callable : a.object.hasDirectAccess = false → a.object.writeFunc ≠ .null)
    (ends : a.object.Written data m r) : Returns r := by
  cases ends with
  | direct direct => trivial
  | null indirect null => exact absurd null (callable indirect)
  | noAccess indirect stub => trivial
  | func f indirect call => trivial

theorem returns_of_restored (callable : Callable port.dictionary.entries) {key : ODObjectKey w}
    {m : Machine E} {r : EStateM.Result Fault (Machine E) SdoAbortCode}
    (ends : port.Restored key m r) : Returns r := by
  cases ends with
  | absent missing => trivial
  | noDefault b found missing => trivial
  | denied b value found default permission => trivial
  | written b value found default permission ends =>
      exact returns_of_written (callable.writeFunc b (member_of_find found) permission) ends

theorem returns_of_stored (callable : Callable port.dictionary.entries) {a : ODEntry w E}
    (member : a ∈ port.dictionary.entries) (permission : a.object.hasWritePermission = true)
    {data : ExpeditedSdoData} {m : Machine E}
    {r : EStateM.Result Fault (Machine E) SdoAbortCode} (ends : port.Stored a data m r) :
    Returns r := by
  cases ends with
  | plain ran plain =>
      rw [← ran]
      exact returns_of_written (callable.writeFunc a member permission) (a.object.written data m)
  | restore refused key ends => exact returns_of_restored callable ends

/-- When there is something to call for every access, every request returns. -/
theorem handleRequest_returns (callable : Callable port.dictionary.entries) (p : CanPayload)
    (m : Machine E) : Returns ((port.handleRequest p).run m) := by
  by_cases abort : (ExpeditedSdo.fromPayload p).cs = SdoCsCodes.abort
  · have handled : port.handleRequest p = pure none := if_pos abort
    rw [handled]
    trivial
  · rw [port.handleRequest_run abort]
    apply Returns.mapResult
    have ends := port.dispatched (ExpeditedSdo.fromPayload p) m
    generalize (port.dispatch (ExpeditedSdo.fromPayload p)).run m = r at ends ⊢
    cases ends with
    | absent missing => trivial
    | command a found notRead notWrite => trivial
    | readDenied a found command permission => trivial
    | writeDenied a found command permission => trivial
    | read a found command permission ends =>
        exact (returns_of_fetched (callable.readFunc a (member_of_find found) permission)
          ends).mapResult
    | write a found command permission ends =>
        exact (returns_of_stored callable (member_of_find found) permission ends).mapResult

theorem serve_returns (callable : Callable port.dictionary.entries) (c : Core E)
    (alive : c.fault = none) (requests : List CanPayload) :
    (port.serve c requests).fault = none := by
  induction requests generalizing c with
  | nil => exact alive
  | cons p ps ih =>
      apply ih
      change (port.execute c p).2.fault = none
      rw [port.execute_run alive]
      have returns := handleRequest_returns callable p c.machine
      cases ran : (port.handleRequest p).run c.machine with
      | ok r m => rfl
      | error f m =>
          rw [ran] at returns
          exact returns.elim

end Port

/-! ## Trapped stubs -/

def FuncPtr.trapStub {φ : Type} : FuncPtr φ → FuncPtr φ
  | .null => .null
  | .noAccess => .null
  | .func f => .func f

def ODEntry.trapStubs (a : ODEntry w E) : ODEntry w E where
  key := a.key
  object :=
    { a.object with
      readFunc := a.object.readFunc.trapStub
      writeFunc := a.object.writeFunc.trapStub }

theorem FuncPtr.isNoAccess_trapStub {φ : Type} (f : FuncPtr φ) : f.trapStub.isNoAccess = false := by
  cases f <;> rfl

theorem FuncPtr.trapStub_eq_null {φ : Type} {f : FuncPtr φ} :
    f.trapStub = .null ↔ f = .null ∨ f = .noAccess := by
  cases f <;> simp [trapStub]

theorem ODEntry.accessible_trapStubs (a : ODEntry w E) : a.trapStubs.accessible = true := by
  simp [accessible, trapStubs, FuncPtr.isNoAccess_trapStub]

@[simp] theorem ODEntry.hasDirectAccess_trapStubs (a : ODEntry w E) :
    a.trapStubs.object.hasDirectAccess = a.object.hasDirectAccess := rfl

theorem assertionsHold_trapStubs {l : List (ODEntry w E)} (held : assertionsHold l = true) :
    assertionsHold (l.map ODEntry.trapStubs) = true := by
  rw [assertionsHold_iff] at held ⊢
  obtain ⟨chain, pairs, _⟩ := held
  refine ⟨(List.isChain_map _).mpr chain, List.pairwise_map.mpr pairs, ?_⟩
  intro a member
  obtain ⟨b, _, rfl⟩ := List.mem_map.mp member
  exact b.accessible_trapStubs

/-- The dictionary in which calling a stub is undefined. -/
def ObjectDictionary.trapStubs (d : ObjectDictionary w E) : ObjectDictionary w E :=
  ⟨d.entries.map ODEntry.trapStubs, assertionsHold_trapStubs d.accepted⟩

namespace F4

theorem find_trapStubs (d : ObjectDictionary 8 E) (key : ODObjectKey 8) :
    (port d.trapStubs).find key = ((port d).find key).map ODEntry.trapStubs := by
  cases found : (port d).find key with
  | some a =>
      have member : a.trapStubs ∈ d.trapStubs.entries :=
        List.mem_map_of_mem (Port.member_of_find found)
      exact Port.find_of_member member (Port.key_of_find found).symm
  | none =>
      cases found' : (port d.trapStubs).find key with
      | none => rfl
      | some b =>
          obtain ⟨a, member, rfl⟩ := List.mem_map.mp (Port.member_of_find found')
          have here : (port d).find key = some a :=
            Port.find_of_member member (Port.key_of_find found').symm
          exact absurd (found.symm.trans here) nofun

theorem read_refines (a : ODEntry 8 E) (data : ExpeditedSdoData) :
    Refines (a.trapStubs.object.read data) (a.object.read data) := by
  unfold ODObject.read
  rw [a.hasDirectAccess_trapStubs]
  cases direct : a.object.hasDirectAccess with
  | true => exact .refl _
  | false =>
      change Refines (a.object.readFunc.trapStub.callRead data) (a.object.readFunc.callRead data)
      cases a.object.readFunc with
      | null => exact .refl _
      | noAccess => exact .throw _ _
      | func f => exact .refl _

theorem write_refines (a : ODEntry 8 E) (data : ExpeditedSdoData) :
    Refines (a.trapStubs.object.write data) (a.object.write data) := by
  unfold ODObject.write
  rw [a.hasDirectAccess_trapStubs]
  cases direct : a.object.hasDirectAccess with
  | true => exact .refl _
  | false =>
      change Refines (a.object.writeFunc.trapStub.callWrite data)
        (a.object.writeFunc.callWrite data)
      cases a.object.writeFunc with
      | null => exact .refl _
      | noAccess => exact .throw _ _
      | func f => exact .refl _

theorem restore_refines (d : ObjectDictionary 8 E) (key : ODObjectKey 8) :
    Refines ((port d.trapStubs).restoreDefaultParameter key)
      ((port d).restoreDefaultParameter key) := by
  unfold Port.restoreDefaultParameter
  rw [find_trapStubs]
  cases (port d).find key with
  | none => exact .refl _
  | some a =>
      have default : a.trapStubs.object.defaultValue = a.object.defaultValue := rfl
      have permission : a.trapStubs.object.hasWritePermission = a.object.hasWritePermission := rfl
      dsimp only [Option.map_some]
      rw [default, permission]
      cases a.object.defaultValue with
      | none => exact .refl _
      | some value =>
          dsimp only
          split
          · exact .refl _
          · exact write_refines a value

theorem writeOrRestore_refines (d : ObjectDictionary 8 E) (a : ODEntry 8 E)
    (data : ExpeditedSdoData) :
    Refines ((port d.trapStubs).writeOrRestore a.trapStubs data)
      ((port d).writeOrRestore a data) := by
  apply (write_refines a data).bind
  intro code
  change Refines (if code = .dataStoreError ∧ a.key = restoreDefaultParameterKey 8 then _ else _) _
  split
  · exact restore_refines d _
  · exact .refl _

theorem dispatch_refines (d : ObjectDictionary 8 E) (rsdo : ExpeditedSdo) :
    Refines ((port d.trapStubs).dispatch rsdo) ((port d).dispatch rsdo) := by
  unfold Port.dispatch
  have key : (port d.trapStubs).requestKey rsdo = (port d).requestKey rsdo := rfl
  rw [key, find_trapStubs]
  cases (port d).find ((port d).requestKey rsdo) with
  | none => exact .refl _
  | some a =>
      dsimp only [Option.map_some]
      split
      · change Refines (if a.object.hasReadPermission = false then _ else _) _
        unfold Port.readExpedited
        split
        · exact .refl _
        · apply (read_refines a _).bind
          intro outcome
          exact .refl _
      · split
        · change Refines (if a.object.hasWritePermission = false then _ else _) _
          unfold Port.writeExpedited
          split
          · exact .refl _
          · apply (writeOrRestore_refines d a _).bind
            intro code
            exact .refl _
        · exact .refl _

theorem handleRequest_refines (d : ObjectDictionary 8 E) (p : CanPayload) :
    Refines ((port d.trapStubs).handleRequest p) ((port d).handleRequest p) := by
  unfold Port.handleRequest
  dsimp only
  split
  · exact .refl _
  · apply (dispatch_refines d _).bind
    intro outcome
    exact .refl _

theorem execute_trapStubs {d : ObjectDictionary 8 E} {c : Core E} {p : CanPayload}
    (alive : ((port d.trapStubs).execute c p).2.fault = none) :
    (port d).execute c p = (port d.trapStubs).execute c p := by
  have start := (port d.trapStubs).execute_alive alive
  rw [(port d.trapStubs).execute_run start] at alive ⊢
  rw [(port d).execute_run start]
  cases ran : ((port d.trapStubs).handleRequest p).run c.machine with
  | ok r m => rw [handleRequest_refines d p c.machine r m ran]
  | error f m =>
      rw [ran] at alive
      exact absurd alive nofun

/-- As long as no trapped stub is called, the run is that of the dictionary itself. -/
theorem serve_trapStubs {d : ObjectDictionary 8 E} {c : Core E} {requests : List CanPayload}
    (alive : ((port d.trapStubs).serve c requests).fault = none) :
    Server.answers (port d).execute c requests =
        Server.answers (port d.trapStubs).execute c requests ∧
      (port d).serve c requests = (port d.trapStubs).serve c requests := by
  induction requests generalizing c with
  | nil => exact ⟨rfl, rfl⟩
  | cons p ps ih =>
      have first := execute_trapStubs ((port d.trapStubs).serve_alive alive)
      obtain ⟨answers, final⟩ := ih alive
      constructor
      · rw [Server.answers, Server.answers, first, answers]
      · change (port d).serve ((port d).execute c p).2 ps = _
        rw [first]
        exact final

/-- The start-up has excluded the stubs wherever a function is needed. -/
theorem callable_trapStubs {d : ObjectDictionary 8 E} (callable : Callable d.entries) :
    Callable d.trapStubs.entries where
  readFunc := by
    intro b member permission indirect null
    obtain ⟨a, inside, rfl⟩ := List.mem_map.mp member
    have promised := (a.accessible_iff.mp (accessible_of_assertions d.accepted a inside)).1 permission
    have stub : a.object.readFunc ≠ .noAccess :=
      promised.resolve_left fun direct => absurd (indirect.symm.trans (bne_iff_ne.mpr direct)) nofun
    rcases FuncPtr.trapStub_eq_null.mp null with isNull | isStub
    · exact callable.readFunc a inside permission indirect isNull
    · exact stub isStub
  writeFunc := by
    intro b member permission indirect null
    obtain ⟨a, inside, rfl⟩ := List.mem_map.mp member
    have promised := (a.accessible_iff.mp (accessible_of_assertions d.accepted a inside)).2 permission
    have stub : a.object.writeFunc ≠ .noAccess :=
      promised.resolve_left fun direct => absurd (indirect.symm.trans (bne_iff_ne.mpr direct)) nofun
    rcases FuncPtr.trapStub_eq_null.mp null with isNull | isStub
    · exact callable.writeFunc a inside permission indirect isNull
    · exact stub isStub

/-! ## Reaching a null function -/

/-- A request that faults wherever it is executed. -/
theorem fault_of_dispatch {d : ObjectDictionary 8 E} {rsdo : ExpeditedSdo} {m m' : Machine E}
    {f : Fault} (request : rsdo.cs ≠ SdoCsCodes.abort)
    (ran : ((port d).dispatch rsdo).run m = .error f m') :
    ((port d).serve (.start m) [rsdo.toPayload]).fault = some f := by
  have request' : (ExpeditedSdo.fromPayload rsdo.toPayload).cs ≠ SdoCsCodes.abort := by
    rwa [ExpeditedSdo.fromPayload_toPayload]
  change ((port d).execute (.start m) rsdo.toPayload).2.fault = some f
  rw [(port d).execute_dispatch rfl request', ExpeditedSdo.fromPayload_toPayload,
    Core.start_machine, ran]

theorem read_faults {d : ObjectDictionary 8 E} {a : ODEntry 8 E} (member : a ∈ d.entries)
    (permission : a.object.hasReadPermission = true) (indirect : a.object.hasDirectAccess = false)
    (null : a.object.readFunc = .null) (m : Machine E) :
    ∃ p, ((port d).serve (.start m) [p]).fault = some .nullReadFunc := by
  let rsdo : ExpeditedSdo :=
    { cs := SdoCsCodes.clientInitRead, index := a.key.index, subindex := a.key.subindex }
  have found : (port d).find ((port d).requestKey rsdo) = some a := Port.find_of_member member rfl
  have read : (a.object.read 0).run m = .error .nullReadFunc m := by
    unfold ODObject.read
    rw [indirect, null]
    rfl
  have ran : ((port d).dispatch rsdo).run m = .error .nullReadFunc m := by
    rw [(port d).dispatch_read found rfl permission, read]
    rfl
  exact ⟨rsdo.toPayload, fault_of_dispatch SdoCsCodes.read_ne_abort ran⟩

theorem write_faults {d : ObjectDictionary 8 E} {a : ODEntry 8 E} (member : a ∈ d.entries)
    (permission : a.object.hasWritePermission = true)
    (indirect : a.object.hasDirectAccess = false) (null : a.object.writeFunc = .null)
    (m : Machine E) : ∃ p, ((port d).serve (.start m) [p]).fault = some .nullWriteFunc := by
  let rsdo : ExpeditedSdo :=
    { cs := SdoCsCodes.clientInitWrite, index := a.key.index, subindex := a.key.subindex }
  have found : (port d).find ((port d).requestKey rsdo) = some a := Port.find_of_member member rfl
  have write : ((port d).writeOrRestore a 0).run m = .error .nullWriteFunc m := by
    unfold Port.writeOrRestore ODObject.write
    rw [indirect, null]
    rfl
  have ran : ((port d).dispatch rsdo).run m = .error .nullWriteFunc m := by
    rw [(port d).dispatch_write found rfl permission, write]
    rfl
  exact ⟨rsdo.toPayload, fault_of_dispatch SdoCsCodes.write_ne_abort ran⟩

/-- No sequence of requests calls a null function or a stub, or dereferences a null
    pointer, exactly when no function that is needed is null. -/
theorem access_total_iff (d : ObjectDictionary 8 E) (m : Machine E) :
    (∀ requests,
      ((port d).serve (.start m) requests).fault = none ∧
        ((port d.trapStubs).serve (.start m) requests).fault = none) ↔
      Callable d.entries := by
  constructor
  · intro total
    constructor
    · intro a member permission indirect null
      obtain ⟨p, fault⟩ := read_faults member permission indirect null m
      exact absurd ((total [p]).1.symm.trans fault) nofun
    · intro a member permission indirect null
      obtain ⟨p, fault⟩ := write_faults member permission indirect null m
      exact absurd ((total [p]).1.symm.trans fault) nofun
  · intro callable requests
    have trapped : ((port d.trapStubs).serve (.start m) requests).fault = none :=
      Port.serve_returns (callable_trapStubs callable) (.start m) rfl requests
    refine ⟨?_, trapped⟩
    rw [(serve_trapStubs trapped).2]
    exact trapped

/-- A readable entry whose `read_func` was left out. -/
def forgotten : ODEntry 8 Unit :=
  ⟨⟨0x3000, 0⟩, { parameter "status" .odAccessRo .odUint32 0 0 with readFunc := .null }⟩

def forgetful : ObjectDictionary 8 Unit := ⟨[forgotten], by decide +kernel⟩

theorem forgetful_faults :
    (initObjectDictionary [forgotten]).isSome = true ∧
      ((port forgetful).serve (.start blank)
        [ExpeditedSdo.toPayload { cs := SdoCsCodes.clientInitRead, index := 0x3000 }]).fault =
          some .nullReadFunc := by
  decide +kernel

end F4

end Ucanopen
