import Ucanopen.Sdo.Steps
import Ucanopen.Sdo.Execute
import Mathlib.Data.Set.Lattice
import Mathlib.Order.CompletePartialOrder

/-! # The bytes of one object under requests

A request assigns a value to an object by a confirmed write of the object, or
by a confirmed restore of it through `0x1011:04`. The bytes of an object that
lies apart from the others are those of the last assignment, whatever else the
requests do.
-/

namespace Ucanopen

open Bytes Exec

variable {w : Nat} {E : Type}

/-- The addresses of the object's bytes. -/
def ODObject.bytes (o : ODObject E) (m : Machine E) : Set Nat := range (o.address m) o.size

theorem ODObject.mem_bytes (o : ODObject E) (m : Machine E) {i : Nat} (small : i < o.size) :
    o.address m + i ∈ o.bytes m := ⟨by omega, by omega⟩

/-- Every direct object lies where it lay on `m₀`: the inner pointers are the same. -/
def FixedAddresses (entries : List (ODEntry w E)) (m₀ m : Machine E) : Prop :=
  ∀ a ∈ entries, a.object.hasDirectAccess = true → a.object.address m = a.object.address m₀

/-- Objects behind a plain pointer do not move. -/
theorem fixedAddresses_of_ptr {entries : List (ODEntry w E)}
    (plain : ∀ a ∈ entries, a.object.hasDirectAccess = true → a.object.ptr.1 ≠ nullptr)
    (m₀ m : Machine E) : FixedAddresses entries m₀ m := by
  intro a member direct
  unfold ODObject.address
  rw [if_pos (plain a member direct), if_pos (plain a member direct)]

/-- No function of the application changes the bytes. -/
structure Untouched (entries : List (ODEntry w E)) (bytes : Set Nat) : Prop where
  readFunc : ∀ a ∈ entries, ∀ f, a.object.readFunc = .func f →
    ∀ data m, ∀ x ∈ bytes, (f data m).2.mem x = m.mem x
  writeFunc : ∀ a ∈ entries, ∀ f, a.object.writeFunc = .func f →
    ∀ data m, ∀ x ∈ bytes, (f data m).2.mem x = m.mem x

/-- The bytes of `k` are changed by accesses to `k` alone. -/
structure Isolated (entries : List (ODEntry w E)) (m₀ : Machine E) (k : ODEntry w E) : Prop where
  member : k ∈ entries
  direct : k.object.hasDirectAccess = true
  apart : ∀ b ∈ entries, b.key ≠ k.key → b.object.hasWritePermission = true →
    b.object.hasDirectAccess = true → Disjoint (b.object.bytes m₀) (k.object.bytes m₀)
  untouched : Untouched entries (k.object.bytes m₀)

namespace Port

variable (port : Port w E)

/-- The abort code of the request is `no_error`. -/
def endedInNoError (m : Machine E) (p : CanPayload) : Bool :=
  match (port.dispatch (ExpeditedSdo.fromPayload p)).run m with
  | .ok (.noError, _) _ => true
  | _ => false

/-- The key that the request's data names, when the request names a function-backed
    `0x1011:04` whose `write_func` returns `data_store_error`. -/
def restoreRequested (m : Machine E) (p : CanPayload) : Option (ODObjectKey w) :=
  let rsdo := ExpeditedSdo.fromPayload p
  match port.find (port.requestKey rsdo) with
  | none => none
  | some a =>
      if a.key = restoreDefaultParameterKey w ∧ a.object.hasDirectAccess = false then
        match (a.object.writeFunc.callWrite rsdo.data).run m with
        | .ok .dataStoreError _ => some (port.argKey rsdo.data)
        | _ => none
      else none

/-- The value the request assigns to the object of `k`. -/
def assignment (k : ODEntry w E) (m : Machine E) (p : CanPayload) : Option ExpeditedSdoData :=
  let rsdo := ExpeditedSdo.fromPayload p
  if rsdo.cs = SdoCsCodes.clientInitWrite ∧ port.endedInNoError m p = true then
    if port.requestKey rsdo = k.key then some rsdo.data
    else if port.restoreRequested m p = some k.key then k.object.defaultValue
    else none
  else none

/-- The value the last request that assigns to the object of `k` assigns to it. -/
def lastAssignment (k : ODEntry w E) : Core E → List CanPayload → Option ExpeditedSdoData
  | _, [] => none
  | c, p :: ps =>
      match lastAssignment k (port.execute c p).2 ps with
      | some value => some value
      | none => if c.fault.isSome then none else port.assignment k c.machine p

variable {port} {m₀ m : Machine E} {k : ODEntry w E} {p : CanPayload}

theorem key_of_find {key : ODObjectKey w} {a : ODEntry w E} (found : port.find key = some a) :
    a.key = key := ((port.find_eq_some key a).mp found).2

theorem member_of_find {key : ODObjectKey w} {a : ODEntry w E} (found : port.find key = some a) :
    a ∈ port.dictionary.entries := ((port.find_eq_some key a).mp found).1

theorem find_of_member {key : ODObjectKey w} (member : k ∈ port.dictionary.entries)
    (names : key = k.key) : port.find key = some k :=
  (port.find_eq_some key k).mpr ⟨member, names.symm⟩

/-- Keys are unique, so an entry found under the key of `k` is `k`. -/
theorem eq_of_find {key : ODObjectKey w} {a : ODEntry w E} (found : port.find key = some a)
    (member : k ∈ port.dictionary.entries) (same : key = k.key) : a = k :=
  ObjectDictionary.eq_of_key (member_of_find found) member ((key_of_find found).trans same)

theorem assignment_of_failure (failed : port.endedInNoError m p = false) :
    port.assignment k m p = none := by
  unfold assignment
  rw [if_neg]
  rintro ⟨_, ended⟩
  exact absurd (failed.symm.trans ended) nofun

theorem assignment_of_command
    (other : (ExpeditedSdo.fromPayload p).cs ≠ SdoCsCodes.clientInitWrite) :
    port.assignment k m p = none := by
  unfold assignment
  rw [if_neg]
  exact fun write => other write.1

/-- A confirmed write of `k` assigns its data. -/
theorem assignment_of_write (command : (ExpeditedSdo.fromPayload p).cs = SdoCsCodes.clientInitWrite)
    (ended : port.endedInNoError m p = true)
    (names : port.requestKey (ExpeditedSdo.fromPayload p) = k.key) :
    port.assignment k m p = some (ExpeditedSdo.fromPayload p).data := by
  unfold assignment
  rw [if_pos ⟨command, ended⟩, if_pos names]

/-- A confirmed restore of `k` assigns its default. -/
theorem assignment_of_restore
    (command : (ExpeditedSdo.fromPayload p).cs = SdoCsCodes.clientInitWrite)
    (ended : port.endedInNoError m p = true)
    (elsewhere : port.requestKey (ExpeditedSdo.fromPayload p) ≠ k.key)
    (requested : port.restoreRequested m p = some k.key) :
    port.assignment k m p = k.object.defaultValue := by
  unfold assignment
  rw [if_pos ⟨command, ended⟩, if_neg elsewhere, if_pos requested]

/-- A request that neither names `k` nor restores it assigns nothing to it. -/
theorem assignment_of_elsewhere
    (elsewhere : port.requestKey (ExpeditedSdo.fromPayload p) ≠ k.key)
    (unrequested : port.restoreRequested m p ≠ some k.key) : port.assignment k m p = none := by
  unfold assignment
  simp only [if_neg elsewhere, if_neg unrequested, ite_self]

theorem failure_of_code {code : SdoAbortCode} {tsdo : ExpeditedSdo} {m' : Machine E}
    (ran : (port.dispatch (ExpeditedSdo.fromPayload p)).run m = .ok (code, tsdo) m')
    (failed : code ≠ .noError) : port.endedInNoError m p = false := by
  unfold endedInNoError
  rw [ran]
  cases code with
  | noError => exact absurd rfl failed
  | _ => rfl

theorem endedInNoError_write {g : SdoAbortCode → ExpeditedSdo}
    {r : EStateM.Result Fault (Machine E) SdoAbortCode}
    (ran : (port.dispatch (ExpeditedSdo.fromPayload p)).run m =
      mapResult (fun code => (code, g code)) r) :
    port.endedInNoError m p = true ↔ ∃ m', r = .ok .noError m' := by
  unfold endedInNoError
  rw [ran]
  cases r with
  | error f m' => simp [mapResult]
  | ok code m' => cases code <;> simp [mapResult]

/-- A restore is requested exactly through the write of a function-backed entry. -/
theorem restoreRequested_eq_some {key : ODObjectKey w} {a : ODEntry w E}
    (found : port.find (port.requestKey (ExpeditedSdo.fromPayload p)) = some a) :
    port.restoreRequested m p = some key ↔
      a.key = restoreDefaultParameterKey w ∧ a.object.hasDirectAccess = false ∧
        (∃ m', (a.object.write (ExpeditedSdo.fromPayload p).data).run m =
          .ok .dataStoreError m') ∧
        port.argKey (ExpeditedSdo.fromPayload p).data = key := by
  unfold restoreRequested
  simp only [found]
  by_cases backed : a.key = restoreDefaultParameterKey w ∧ a.object.hasDirectAccess = false
  · rw [if_pos backed]
    rw [ODObject.write_indirect backed.2]
    cases (a.object.writeFunc.callWrite (ExpeditedSdo.fromPayload p).data).run m with
    | error f m' => simp
    | ok code m' => cases code <;> simp [backed]
  · rw [if_neg backed]
    constructor
    · exact nofun
    · rintro ⟨key, indirect, _⟩
      exact absurd ⟨key, indirect⟩ backed

end Port

/-! ## One elementary access -/

namespace Isolated

variable {port : Port w E} {m₀ m : Machine E} {k b : ODEntry w E} {i : Nat}

/-- Writing `k` itself leaves the value in its bytes. -/
theorem written_own (iso : Isolated port.dictionary.entries m₀ k)
    (fixed : FixedAddresses port.dictionary.entries m₀ m) {value : ExpeditedSdoData}
    {r : EStateM.Result Fault (Machine E) SdoAbortCode} (ends : k.object.Written value m r)
    (small : i < k.object.size) :
    (∃ m', r = .ok .noError m') ∧ (final r).mem (k.object.address m₀ + i) = byte value i := by
  cases ends with
  | direct _ =>
      refine ⟨⟨_, rfl⟩, ?_⟩
      rw [final_ok, ← fixed k iso.member iso.direct]
      exact overwrite_inside _ _ _ small
  | null indirect => exact absurd (iso.direct.symm.trans indirect) nofun
  | noAccess indirect => exact absurd (iso.direct.symm.trans indirect) nofun
  | func f indirect => exact absurd (iso.direct.symm.trans indirect) nofun

/-- Writing any other entry leaves the bytes of `k` alone. -/
theorem written_other (iso : Isolated port.dictionary.entries m₀ k)
    (fixed : FixedAddresses port.dictionary.entries m₀ m) (member : b ∈ port.dictionary.entries)
    (other : b.key ≠ k.key) (permission : b.object.hasWritePermission = true)
    {value : ExpeditedSdoData} {r : EStateM.Result Fault (Machine E) SdoAbortCode}
    (ends : b.object.Written value m r) (small : i < k.object.size) :
    (final r).mem (k.object.address m₀ + i) = m.mem (k.object.address m₀ + i) := by
  cases ends with
  | direct direct =>
      have apart := iso.apart b member other permission direct
      have outside : k.object.address m₀ + i ∉ range (b.object.address m) b.object.size := by
        rw [fixed b member direct]
        exact fun inBoth => Set.disjoint_left.mp apart inBoth (k.object.mem_bytes m₀ small)
      exact overwrite_outside _ _ outside
  | null => rfl
  | noAccess => rfl
  | func f indirect call =>
      exact iso.untouched.writeFunc b member f call value m _ (k.object.mem_bytes m₀ small)

/-- Reading leaves the bytes of `k` alone. -/
theorem fetched (iso : Isolated port.dictionary.entries m₀ k)
    (member : b ∈ port.dictionary.entries) {data : ExpeditedSdoData}
    {r : EStateM.Result Fault (Machine E) (SdoAbortCode × ExpeditedSdoData)}
    (ends : b.object.Fetched data m r) (small : i < k.object.size) :
    (final r).mem (k.object.address m₀ + i) = m.mem (k.object.address m₀ + i) := by
  cases ends with
  | direct => rfl
  | null => rfl
  | noAccess => rfl
  | func f indirect call =>
      exact iso.untouched.readFunc b member f call data m _ (k.object.mem_bytes m₀ small)

/-! ## One request -/

variable {p : CanPayload}

/-- What the bytes of `k` are after a restore, and which value that is. -/
theorem restored (iso : Isolated port.dictionary.entries m₀ k)
    (fixed : FixedAddresses port.dictionary.entries m₀ m) {key : ODObjectKey w}
    {r : EStateM.Result Fault (Machine E) SdoAbortCode} (ends : port.Restored key m r)
    (small : i < k.object.size) :
    (key = k.key ∧ (∃ m', r = .ok .noError m') ∧
      ∃ value, k.object.defaultValue = some value ∧
        (final r).mem (k.object.address m₀ + i) = byte value i) ∨
    ((key = k.key → ∀ m', r ≠ .ok .noError m') ∧
      (final r).mem (k.object.address m₀ + i) = m.mem (k.object.address m₀ + i)) := by
  cases ends with
  | absent missing => exact .inr ⟨fun _ => nofun, rfl⟩
  | noDefault b found missing => exact .inr ⟨fun _ => nofun, rfl⟩
  | denied b value found default permission => exact .inr ⟨fun _ => nofun, rfl⟩
  | written b value found default permission ends =>
      by_cases same : key = k.key
      · obtain rfl := Port.eq_of_find found iso.member same
        obtain ⟨ok, stored⟩ := iso.written_own fixed ends small
        exact .inl ⟨same, ok, value, default, stored⟩
      · have other : b.key ≠ k.key := by rwa [Port.key_of_find found]
        refine .inr ⟨fun wrong => absurd wrong same, ?_⟩
        exact iso.written_other fixed (Port.member_of_find found) other permission ends small

section Stored

variable {a : ODEntry w E} (found : port.find (port.requestKey (ExpeditedSdo.fromPayload p)) = some a)
  (command : (ExpeditedSdo.fromPayload p).cs = SdoCsCodes.clientInitWrite)
  (permission : a.object.hasWritePermission = true) {r : EStateM.Result Fault (Machine E) SdoAbortCode}
  (ended : port.endedInNoError m p = true ↔ ∃ m', r = .ok .noError m')

include found command permission ended

/-- A write that ends without a restore assigns to the entry it names, if that is `k`. -/
theorem stored_plain (iso : Isolated port.dictionary.entries m₀ k)
    (fixed : FixedAddresses port.dictionary.entries m₀ m)
    (wrote : (a.object.write (ExpeditedSdo.fromPayload p).data).run m = r)
    (plain : ∀ m', r = .ok .dataStoreError m' → a.key ≠ restoreDefaultParameterKey w)
    (small : i < k.object.size) :
    (final r).mem (k.object.address m₀ + i) =
      match port.assignment k m p with
      | some value => byte value i
      | none => m.mem (k.object.address m₀ + i) := by
  have ends := a.object.written (ExpeditedSdo.fromPayload p).data m
  rw [wrote] at ends
  by_cases same : port.requestKey (ExpeditedSdo.fromPayload p) = k.key
  · obtain rfl := Port.eq_of_find found iso.member same
    obtain ⟨ok, bytes⟩ := iso.written_own fixed ends small
    rw [Port.assignment_of_write command (ended.mpr ok) same]
    exact bytes
  · have other : a.key ≠ k.key := by rwa [Port.key_of_find found]
    have unrequested : port.restoreRequested m p ≠ some k.key := by
      intro wrong
      obtain ⟨key, _, ⟨m', refused⟩, _⟩ := (Port.restoreRequested_eq_some found).mp wrong
      exact plain m' (wrote.symm.trans refused) key
    rw [Port.assignment_of_elsewhere same unrequested]
    exact iso.written_other fixed (Port.member_of_find found) other permission ends small

/-- A write that ends in a restore assigns to the entry its data names, if that is `k`. -/
theorem stored_restore (iso : Isolated port.dictionary.entries m₀ k)
    (fixed : FixedAddresses port.dictionary.entries m₀ m) {m' : Machine E}
    (refused : (a.object.write (ExpeditedSdo.fromPayload p).data).run m = .ok .dataStoreError m')
    (key : a.key = restoreDefaultParameterKey w)
    (fixed' : FixedAddresses port.dictionary.entries m₀ m')
    (ends : port.Restored (port.argKey (ExpeditedSdo.fromPayload p).data) m' r)
    (small : i < k.object.size) :
    (final r).mem (k.object.address m₀ + i) =
      match port.assignment k m p with
      | some value => byte value i
      | none => m.mem (k.object.address m₀ + i) := by
  have wrote := a.object.written (ExpeditedSdo.fromPayload p).data m
  rw [refused] at wrote
  have indirect := ODObject.indirect_of_refused refused
  have requested : port.restoreRequested m p = some k.key ↔ _ :=
    Port.restoreRequested_eq_some found
  -- the entry that refused is function-backed, and `k` is direct
  have other : a.key ≠ k.key := by
    intro same
    obtain rfl := ObjectDictionary.eq_of_key (Port.member_of_find found) iso.member same
    exact absurd (iso.direct.symm.trans indirect) nofun
  have elsewhere : port.requestKey (ExpeditedSdo.fromPayload p) ≠ k.key := by
    rwa [← Port.key_of_find found]
  have before := iso.written_other fixed (Port.member_of_find found) other permission wrote small
  rcases iso.restored fixed' ends small with ⟨same, ok, value, default, bytes⟩ | ⟨failed, bytes⟩
  · have request := requested.mpr ⟨key, indirect, ⟨m', refused⟩, same⟩
    rw [Port.assignment_of_restore command (ended.mpr ok) elsewhere request, default]
    exact bytes
  · have unassigned : port.assignment k m p = none := by
      by_cases same : port.argKey (ExpeditedSdo.fromPayload p).data = k.key
      · apply Port.assignment_of_failure
        rw [Bool.eq_false_iff]
        intro ok
        obtain ⟨m'', ok'⟩ := ended.mp ok
        exact failed same m'' ok'
      · apply Port.assignment_of_elsewhere elsewhere
        intro wrong
        exact same (requested.mp wrong).2.2.2
    rw [unassigned, bytes]
    exact before

end Stored

/-- A request leaves in the bytes of `k` what it assigns, or else what was there. -/
theorem dispatch (iso : Isolated port.dictionary.entries m₀ k)
    (fixed : FixedAddresses port.dictionary.entries m₀ m)
    (restores : ∀ key m', port.RestoreRun m p key m' →
      FixedAddresses port.dictionary.entries m₀ m')
    (small : i < k.object.size) :
    (final ((port.dispatch (ExpeditedSdo.fromPayload p)).run m)).mem (k.object.address m₀ + i) =
      match port.assignment k m p with
      | some value => byte value i
      | none => m.mem (k.object.address m₀ + i) := by
  have ends := port.dispatched (ExpeditedSdo.fromPayload p) m
  obtain ⟨r, ran⟩ : ∃ r, (port.dispatch (ExpeditedSdo.fromPayload p)).run m = r := ⟨_, rfl⟩
  rw [ran] at ends ⊢
  cases ends with
  | absent missing =>
      rw [Port.assignment_of_failure (Port.failure_of_code ran nofun)]
      rfl
  | command a found notRead notWrite =>
      rw [Port.assignment_of_command notWrite]
      rfl
  | readDenied a found command permission =>
      rw [Port.assignment_of_command (command.trans_ne SdoCsCodes.write_ne_read.symm)]
      rfl
  | writeDenied a found command permission =>
      rw [Port.assignment_of_failure (Port.failure_of_code ran nofun)]
      rfl
  | read a found command permission ends =>
      rw [final_mapResult,
        Port.assignment_of_command (command.trans_ne SdoCsCodes.write_ne_read.symm)]
      exact iso.fetched (Port.member_of_find found) ends small
  | write a found command permission ends =>
      rw [final_mapResult]
      have ended := Port.endedInNoError_write ran
      cases ends with
      | plain wrote plain =>
          exact stored_plain found command permission ended iso fixed wrote plain small
      | restore refused key ends =>
          have fixed' := restores _ _ ⟨a, found, command, permission, key, refused, rfl⟩
          exact stored_restore found command permission ended iso fixed refused key fixed' ends small

/-! ## A sequence of requests -/

/-- One request on a core. -/
theorem execute (iso : Isolated port.dictionary.entries m₀ k) {c : Core E}
    (fixed : FixedAddresses port.dictionary.entries m₀ c.machine)
    (restores : c.fault = none → ∀ key m', port.RestoreRun c.machine p key m' →
      FixedAddresses port.dictionary.entries m₀ m')
    (small : i < k.object.size) :
    (port.execute c p).2.machine.mem (k.object.address m₀ + i) =
      match (if c.fault.isSome then none else port.assignment k c.machine p) with
      | some value => byte value i
      | none => c.machine.mem (k.object.address m₀ + i) := by
  cases fault : c.fault with
  | some f =>
      unfold Port.execute
      rw [fault]
      rfl
  | none =>
      rw [port.execute_machine fault]
      by_cases abort : (ExpeditedSdo.fromPayload p).cs = SdoCsCodes.abort
      · have handled : port.handleRequest p = pure none := if_pos abort
        rw [handled, Port.assignment_of_command (abort.trans_ne SdoCsCodes.write_ne_abort.symm)]
        rfl
      · rw [port.handleRequest_run abort, final_mapResult]
        exact iso.dispatch fixed (restores fault) small

/-- After a sequence of requests, the bytes of `k` are those of the last value
    assigned to it, or the initial ones when none was. -/
theorem serve (iso : Isolated port.dictionary.entries m₀ k) {c : Core E}
    {requests : List CanPayload}
    (fixed : port.Throughout (FixedAddresses port.dictionary.entries m₀) c requests)
    (small : i < k.object.size) :
    (port.serve c requests).machine.mem (k.object.address m₀ + i) =
      match port.lastAssignment k c requests with
      | some value => byte value i
      | none => c.machine.mem (k.object.address m₀ + i) := by
  induction requests generalizing c with
  | nil => rfl
  | cons p ps ih =>
      have first := iso.execute fixed.1 fixed.2.1 small
      have rest := ih fixed.2.2
      unfold Port.lastAssignment
      cases last : port.lastAssignment k (port.execute c p).2 ps with
      | some value =>
          rw [last] at rest
          exact rest
      | none =>
          rw [last] at rest
          exact rest.trans first

end Isolated

end Ucanopen
