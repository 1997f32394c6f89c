import Ucanopen.Sdo.Objects

/-! # Parameters over the bus

What a client of the F4 server can rely on: a read of a parameter returns the
value last written or restored, and nothing a client sends changes a read-only
object.
-/

namespace Ucanopen.F4

open Bytes Exec

variable {E : Type}

/-! ## What a request assigns -/

/-- The key that four data bytes name: bytes 0 and 1 are the index, byte 2 the subindex. -/
def namedKey (data : ExpeditedSdoData) : ODObjectKey 8 :=
  ⟨byte data 1 ++ byte data 0, byte data 2⟩

/-- The copy of the data into a key names the same one. -/
theorem argKey_eq (data : ExpeditedSdoData) : argKey data = namedKey data := by
  have index : byte data 1 ++ byte data 0 = data.extractLsb' 0 16 := by
    apply BitVec.eq_of_getLsbD_eq
    intro i inside
    simp only [byte, BitVec.getLsbD_append, BitVec.getLsbD_extractLsb']
    grind
  unfold argKey namedKey
  rw [index]
  rfl

/-- The request names a function-backed `0x1011:04` whose `write_func` returns
    `data_store_error`. -/
def restoreAsked (d : ObjectDictionary 8 E) (m : Machine E) (p : CanPayload) : Bool :=
  let rsdo := ExpeditedSdo.fromPayload p
  decide (rsdo.index = 0x1011 ∧ rsdo.subindex = 0x04) &&
    d.entries.any fun a =>
      decide (a.key = ⟨0x1011, 0x04⟩) && !a.object.hasDirectAccess &&
        match (a.object.writeFunc.callWrite rsdo.data).run m with
        | .ok .dataStoreError _ => true
        | _ => false

/-- The value a confirmed write assigns to the object of `k`: its data when it names `k`,
    the default when it asks for a restore and its data names `k`. -/
def assigned (d : ObjectDictionary 8 E) (k : ODEntry 8 E) (m : Machine E) (p : CanPayload) :
    Option ExpeditedSdoData :=
  let rsdo := ExpeditedSdo.fromPayload p
  if rsdo.cs = 1 ∧ (port d).endedInNoError m p = true then
    if k.key = ⟨rsdo.index, rsdo.subindex⟩ then some rsdo.data
    else if restoreAsked d m p = true ∧ k.key = namedKey rsdo.data then k.object.defaultValue
    else none
  else none

/-- The value that the last of the requests to assign one assigned to the object of `k`. -/
def lastAssigned (d : ObjectDictionary 8 E) (k : ODEntry 8 E) :
    Core E → List CanPayload → Option ExpeditedSdoData
  | _, [] => none
  | c, p :: ps =>
      (lastAssigned d k ((port d).execute c p).2 ps).or
        (if c.fault.isSome then none else assigned d k c.machine p)

section Assigned

variable {d : ObjectDictionary 8 E} {k : ODEntry 8 E} {m : Machine E} {p : CanPayload}

/-- What the test of the abort code tests. -/
theorem refused_iff (r : EStateM.Result Fault (Machine E) SdoAbortCode) :
    (match r with
      | .ok .dataStoreError _ => true
      | _ => false) = true ↔ ∃ m', r = .ok .dataStoreError m' := by
  cases r with
  | error f m' => simp
  | ok code m' => cases code <;> simp

/-- The header names the entry that the service finds. -/
theorem restoreAsked_iff :
    restoreAsked d m p = true ↔
      ∃ a, (port d).find ((port d).requestKey (ExpeditedSdo.fromPayload p)) = some a ∧
        a.key = restoreDefaultParameterKey 8 ∧ a.object.hasDirectAccess = false ∧
          ∃ m', (a.object.write (ExpeditedSdo.fromPayload p).data).run m =
            .ok .dataStoreError m' := by
  unfold restoreAsked
  simp only [Bool.and_eq_true, decide_eq_true_eq, List.any_eq_true, Bool.not_eq_true', refused_iff]
  constructor
  · rintro ⟨⟨index, subindex⟩, a, member, ⟨key, indirect⟩, refused⟩
    have names : (port d).requestKey (ExpeditedSdo.fromPayload p) = a.key := by
      rw [key, ← index, ← subindex]
      rfl
    rw [← ODObject.write_indirect indirect] at refused
    exact ⟨a, Port.find_of_member member names, key, indirect, refused⟩
  · rintro ⟨a, found, key, indirect, refused⟩
    have names : (port d).requestKey (ExpeditedSdo.fromPayload p) = ⟨0x1011, 0x04⟩ :=
      (Port.key_of_find found).symm.trans key
    rw [ODObject.write_indirect indirect] at refused
    exact ⟨ODObjectKey.mk.inj names, a, Port.member_of_find found, ⟨key, indirect⟩, refused⟩

theorem restoreRequested_iff {key : ODObjectKey 8} :
    (port d).restoreRequested m p = some key ↔
      restoreAsked d m p = true ∧ key = namedKey (ExpeditedSdo.fromPayload p).data := by
  rw [restoreAsked_iff, ← argKey_eq]
  cases found : (port d).find ((port d).requestKey (ExpeditedSdo.fromPayload p)) with
  | none => simp [Port.restoreRequested, found]
  | some a =>
      rw [Port.restoreRequested_eq_some found]
      constructor
      · rintro ⟨same, indirect, refused, named⟩
        exact ⟨⟨a, rfl, same, indirect, refused⟩, named.symm⟩
      · rintro ⟨⟨b, here, same, indirect, refused⟩, named⟩
        obtain rfl := Option.some.inj here
        exact ⟨same, indirect, refused, named.symm⟩

theorem assigned_eq : assigned d k m p = (port d).assignment k m p := by
  have header : k.key = ⟨(ExpeditedSdo.fromPayload p).index, (ExpeditedSdo.fromPayload p).subindex⟩ ↔
      (port d).requestKey (ExpeditedSdo.fromPayload p) = k.key := eq_comm
  unfold assigned Port.assignment
  simp only [header, ← restoreRequested_iff]
  rfl

theorem lastAssigned_eq (c : Core E) (requests : List CanPayload) :
    lastAssigned d k c requests = (port d).lastAssignment k c requests := by
  induction requests generalizing c with
  | nil => rfl
  | cons p ps ih =>
      unfold lastAssigned Port.lastAssignment
      rw [ih, assigned_eq]
      cases (port d).lastAssignment k ((port d).execute c p).2 ps with
      | some value => rfl
      | none => rfl

end Assigned

/-! ## Reading back -/

/-- A permitted read of a direct object is confirmed with its bytes. -/
theorem read_run {d : ObjectDictionary 8 E} {k : ODEntry 8 E} (member : k ∈ d.entries)
    (direct : k.object.hasDirectAccess = true) (readable : k.object.hasReadPermission = true)
    {rsdo : ExpeditedSdo} (command : rsdo.cs = SdoCsCodes.clientInitRead)
    (names : (port d).requestKey rsdo = k.key) (m : Machine E) :
    ((port d).dispatch rsdo).run m =
      .ok (.noError, Port.confirmRead rsdo k.object
        (copyInto 0 (fun i => m.mem (k.object.address m + i)) k.object.size)) m := by
  have found : (port d).find ((port d).requestKey rsdo) = some k := Port.find_of_member member names
  rw [(port d).dispatch_read found command readable, ODObject.read_run_direct direct]
  rfl

/-- A read after any sequence of requests returns the value last assigned. -/
theorem read_last_assigned (d : ObjectDictionary 8 E) {k : ODEntry 8 E} (m : Machine E)
    (isolated : Isolated d.entries m k) (readable : k.object.hasReadPermission = true)
    (requests : List CanPayload)
    (fixed : (port d).Throughout (FixedAddresses d.entries m) (.start m) requests)
    (alive : ((port d).serve (.start m) requests).fault = none) {r : CanPayload}
    (command : (ExpeditedSdo.fromPayload r).cs = 2)
    (names : k.key = ⟨(ExpeditedSdo.fromPayload r).index, (ExpeditedSdo.fromPayload r).subindex⟩) :
    ∃ tsdo : ExpeditedSdo,
      ((port d).execute ((port d).serve (.start m) requests) r).1 = some tsdo.toPayload ∧
        tsdo.cs = 2 ∧ tsdo.index = k.key.index ∧
        tsdo.subindex = k.key.subindex ∧ tsdo.expeditedTransfer = 1 ∧ tsdo.dataSizeIndicated = 1 ∧
        tsdo.dataEmptyBytes.toNat = (4 - k.object.size) % 4 ∧
        ∀ i < k.object.size, byte tsdo.data i =
          match lastAssigned d k (.start m) requests with
          | some value => byte value i
          | none => m.mem (k.object.address m + i) := by
  rw [lastAssigned_eq]
  have names : (port d).requestKey (ExpeditedSdo.fromPayload r) = k.key := names.symm
  obtain ⟨final, served⟩ : ∃ c, (port d).serve (.start m) requests = c := ⟨_, rfl⟩
  rw [served] at alive ⊢
  have notAbort : (ExpeditedSdo.fromPayload r).cs ≠ SdoCsCodes.abort :=
    command.trans_ne SdoCsCodes.read_ne_abort
  refine ⟨Port.confirmRead (ExpeditedSdo.fromPayload r) k.object
    (copyInto 0 (fun i => final.machine.mem (k.object.address final.machine + i)) k.object.size),
    ?_, rfl, ?_, ?_, rfl, rfl, ?_, ?_⟩
  · rw [(port d).execute_run alive, (port d).handleRequest_run notAbort,
      read_run isolated.member isolated.direct readable command names]
    rfl
  · exact congrArg ODObjectKey.index names
  · exact congrArg ODObjectKey.subindex names
  · exact BitVec.toNat_ofNat _ _
  · intro i small
    have iso : Isolated (port d).dictionary.entries m k := isolated
    have bytes := iso.serve fixed small
    rw [served] at bytes
    have address : k.object.address final.machine = k.object.address m := by
      rw [← served]
      exact fixed.final k isolated.member isolated.direct
    have first : i < 4 := Nat.lt_of_lt_of_le small k.object.size_le
    have data : byte (copyInto 0 (fun i => final.machine.mem
        (k.object.address final.machine + i)) k.object.size) i =
          final.machine.mem (k.object.address m + i) := by
      rw [byte_copyInto _ _ first, if_pos small, address]
    exact data.trans bytes

/-! ## Read-only objects -/

section ReadOnly

variable {w : Nat} {port : Port w E} {k : ODEntry w E}

theorem write_denied (member : k ∈ port.dictionary.entries)
    (readOnly : k.object.hasWritePermission = false) {rsdo : ExpeditedSdo}
    (command : rsdo.cs = SdoCsCodes.clientInitWrite) (names : port.requestKey rsdo = k.key)
    (m : Machine E) : (port.dispatch rsdo).run m = .ok (.writeAccessRo, {}) m := by
  have found : port.find (port.requestKey rsdo) = some k := Port.find_of_member member names
  have notRead : rsdo.cs ≠ SdoCsCodes.clientInitRead := command.trans_ne SdoCsCodes.write_ne_read
  unfold Port.dispatch Port.writeExpedited
  simp only [found, if_neg notRead, if_pos command, if_pos readOnly]
  rfl

theorem restore_denied (member : k ∈ port.dictionary.entries)
    (readOnly : k.object.hasWritePermission = false) (m : Machine E) :
    ∃ code, code ≠ .noError ∧ (port.restoreDefaultParameter k.key).run m = .ok code m := by
  have found : port.find k.key = some k := Port.find_of_member member rfl
  unfold Port.restoreDefaultParameter
  cases default : k.object.defaultValue with
  | none => exact ⟨.dataStoreError, nofun, by simp only [found, default]; rfl⟩
  | some value => exact ⟨.writeAccessRo, nofun, by simp only [found, default, readOnly]; rfl⟩

/-- No request assigns to a read-only object. -/
theorem assignment_readOnly (member : k ∈ port.dictionary.entries)
    (readOnly : k.object.hasWritePermission = false) (m : Machine E) (p : CanPayload) :
    port.assignment k m p = none := by
  by_cases command : (ExpeditedSdo.fromPayload p).cs = SdoCsCodes.clientInitWrite
  · by_cases names : port.requestKey (ExpeditedSdo.fromPayload p) = k.key
    · have denied := write_denied member readOnly command names m
      exact Port.assignment_of_failure (Port.failure_of_code denied nofun)
    · by_cases requested : port.restoreRequested m p = some k.key
      · cases found : port.find (port.requestKey (ExpeditedSdo.fromPayload p)) with
        | none => exact absurd requested (by simp [Port.restoreRequested, found])
        | some a =>
            obtain ⟨key, _, ⟨m', refused⟩, same⟩ :=
              (Port.restoreRequested_eq_some found).mp requested
            cases permission : a.object.hasWritePermission with
            | false =>
                have denied := write_denied (Port.member_of_find found) permission command
                  (Port.key_of_find found).symm m
                exact Port.assignment_of_failure (Port.failure_of_code denied nofun)
            | true =>
                obtain ⟨code, failed, ran⟩ := restore_denied member readOnly m'
                have ended := Port.dispatch_of_restoreRun
                  ⟨a, found, command, permission, key, refused, same.symm⟩
                rw [ran] at ended
                exact Port.assignment_of_failure (Port.failure_of_code ended failed)
      · unfold Port.assignment
        simp only [if_neg names, if_neg requested, ite_self]
  · exact Port.assignment_of_command command

theorem lastAssignment_readOnly (member : k ∈ port.dictionary.entries)
    (readOnly : k.object.hasWritePermission = false) (c : Core E) (requests : List CanPayload) :
    port.lastAssignment k c requests = none := by
  induction requests generalizing c with
  | nil => rfl
  | cons p ps ih =>
      unfold Port.lastAssignment
      rw [ih, assignment_readOnly member readOnly]
      exact ite_self none

end ReadOnly

theorem encode_failure (d : ObjectDictionary 8 E) (rsdo tsdo : ExpeditedSdo) {code : SdoAbortCode}
    (failed : code ≠ .noError) :
    (port d).encode rsdo (code, tsdo) = (AbortSdo.of rsdo.index rsdo.subindex code).toPayload := by
  cases code with
  | noError => exact absurd rfl failed
  | _ => rfl

/-- A request that fails is answered with the abort frame of its code. -/
theorem execute_failure {d : ObjectDictionary 8 E} {c : Core E} {p : CanPayload}
    (alive : c.fault = none) (request : (ExpeditedSdo.fromPayload p).cs ≠ SdoCsCodes.abort)
    {code : SdoAbortCode} {tsdo : ExpeditedSdo} {m : Machine E} (failed : code ≠ .noError)
    (ran : ((port d).dispatch (ExpeditedSdo.fromPayload p)).run c.machine = .ok (code, tsdo) m) :
    ((port d).execute c p).1 = some (AbortSdo.of (ExpeditedSdo.fromPayload p).index
      (ExpeditedSdo.fromPayload p).subindex code).toPayload := by
  rw [(port d).execute_dispatch alive request, ran]
  exact congrArg some (encode_failure d _ tsdo failed)

/-- Nothing on the bus changes a read-only object, and whoever tries is told so. -/
theorem read_only_immutable (d : ObjectDictionary 8 E) {o : ODEntry 8 E} (member : o ∈ d.entries)
    (permission : o.object.accessPermission = .odAccessRo ∨
      o.object.accessPermission = .odAccessConst)
    (direct : o.object.hasDirectAccess = true) (m : Machine E)
    (apart : ∀ b ∈ d.entries, b.object.hasWritePermission = true →
      b.object.hasDirectAccess = true → Disjoint (b.object.bytes m) (o.object.bytes m))
    (untouched : Untouched d.entries (o.object.bytes m)) (requests : List CanPayload)
    (fixed : (port d).Throughout (FixedAddresses d.entries m) (.start m) requests) :
    (∀ i < o.object.size,
      ((port d).serve (.start m) requests).machine.mem
          (o.object.address ((port d).serve (.start m) requests).machine + i) =
        m.mem (o.object.address m + i)) ∧
    (∀ c p, c.fault = none → (ExpeditedSdo.fromPayload p).cs = SdoCsCodes.clientInitWrite →
      (port d).requestKey (ExpeditedSdo.fromPayload p) = o.key →
        ∃ code, code ≠ .noError ∧
          ((port d).execute c p).1 = some (AbortSdo.of (ExpeditedSdo.fromPayload p).index
            (ExpeditedSdo.fromPayload p).subindex code).toPayload) ∧
    (∀ c p m', c.fault = none → (port d).RestoreRun c.machine p o.key m' →
        ∃ code, code ≠ .noError ∧
          ((port d).execute c p).1 = some (AbortSdo.of (ExpeditedSdo.fromPayload p).index
            (ExpeditedSdo.fromPayload p).subindex code).toPayload) := by
  have readOnly : o.object.hasWritePermission = false := by
    unfold ODObject.hasWritePermission
    rcases permission with ro | const
    · rw [ro]
      rfl
    · rw [const]
      rfl
  have member' : o ∈ (port d).dictionary.entries := member
  refine ⟨?_, ?_, ?_⟩
  · intro i small
    have isolated : Isolated (port d).dictionary.entries m o :=
      ⟨member, direct, fun b inside _ => apart b inside, untouched⟩
    have bytes := isolated.serve fixed small
    rw [lastAssignment_readOnly member' readOnly] at bytes
    rw [fixed.final o member direct]
    exact bytes
  · intro c p alive command names
    have request := command.trans_ne SdoCsCodes.write_ne_abort
    exact ⟨.writeAccessRo, nofun, execute_failure alive request nofun
      (write_denied member' readOnly command names c.machine)⟩
  · intro c p m' alive restores
    obtain ⟨code, failed, ran⟩ := restore_denied member' readOnly m'
    have ended := Port.dispatch_of_restoreRun restores
    rw [ran] at ended
    obtain ⟨_, _, command, _⟩ := restores
    have request := command.trans_ne SdoCsCodes.write_ne_abort
    exact ⟨code, failed, execute_failure alive request failed ended⟩

/-! ## A dictionary with one object of each kind -/

section Sample

def parameter (name : String) (permission : ODObjectAccessPermission) (type : ODObjectDataType)
    (default : ExpeditedSdoData) (address : Nat) : ODObject Unit where
  category := "parameters"
  subcategory := ""
  name := name
  accessPermission := permission
  dataType := type
  defaultValue := some default
  ptr := (address, nullptr)
  readFunc := .noAccess
  writeFunc := .noAccess

/-- `0x1011:04`: its function refuses to store, so that the server restores. -/
def restoreCommand : ODObject Unit where
  category := "commands"
  subcategory := ""
  name := "restore"
  accessPermission := .odAccessWo
  dataType := .odUint32
  defaultValue := none
  ptr := (nullptr, nullptr)
  readFunc := .noAccess
  writeFunc := .func fun _ m => (.dataStoreError, m)

def limit : ODEntry 8 Unit := ⟨⟨0x2000, 1⟩, parameter "limit" .odAccessRw .odUint16 7 0x100⟩

def serial : ODEntry 8 Unit := ⟨⟨0x2001, 0⟩, parameter "serial" .odAccessRo .odUint32 0 0x200⟩

def password : ODEntry 8 Unit := ⟨⟨0x2002, 0⟩, parameter "password" .odAccessWo .odUint8 0 0x300⟩

def sample : ObjectDictionary 8 Unit where
  entries := [⟨⟨0x1011, 4⟩, restoreCommand⟩, limit, serial, password]
  accepted := by decide +kernel

theorem sample_cases {b : ODEntry 8 Unit} (member : b ∈ sample.entries) :
    b = ⟨⟨0x1011, 4⟩, restoreCommand⟩ ∨ b = limit ∨ b = serial ∨ b = password := by
  simpa [sample] using member

theorem sample_untouched (bytes : Set Nat) : Untouched sample.entries bytes where
  readFunc := by
    intro b member f call
    rcases sample_cases member with rfl | rfl | rfl | rfl <;> exact absurd call nofun
  writeFunc := by
    intro b member f call data m x _
    rcases sample_cases member with rfl | rfl | rfl | rfl
    · cases call
      rfl
    all_goals exact absurd call nofun

theorem sample_fixed (m₀ m : Machine Unit) : FixedAddresses sample.entries m₀ m := by
  apply fixedAddresses_of_ptr
  intro b member direct
  rcases sample_cases member with rfl | rfl | rfl | rfl
  · exact absurd direct (by decide)
  all_goals decide

def blank : Machine Unit := ⟨fun _ => 0, ()⟩

theorem limit_isolated : Isolated sample.entries blank limit where
  member := .tail _ (.head _)
  direct := rfl
  apart := by
    intro b member other permission direct
    rcases sample_cases member with rfl | rfl | rfl | rfl
    · exact absurd direct (by decide)
    · exact absurd rfl other
    · exact absurd permission (by decide)
    · exact Set.disjoint_left.mpr fun x inPassword inLimit => by
        have low : 0x300 ≤ x := inPassword.1
        have high : x < 0x100 + 2 := inLimit.2
        omega
  untouched := sample_untouched _

def writeLimit : CanPayload :=
  ExpeditedSdo.toPayload { cs := SdoCsCodes.clientInitWrite, index := 0x2000, subindex := 1, data := 5 }

def restoreLimit : CanPayload :=
  ExpeditedSdo.toPayload
    { cs := SdoCsCodes.clientInitWrite, index := 0x1011, subindex := 4, data := 0x012000 }

def readLimit : CanPayload :=
  ExpeditedSdo.toPayload { cs := SdoCsCodes.clientInitRead, index := 0x2000, subindex := 1 }

theorem read_last_assigned_sample :
    ∃ tsdo : ExpeditedSdo,
      ((port sample).execute ((port sample).serve (.start blank) [writeLimit, restoreLimit])
          readLimit).1 = some tsdo.toPayload ∧
        tsdo.cs = 2 ∧ tsdo.index = limit.key.index ∧
        tsdo.subindex = limit.key.subindex ∧ tsdo.expeditedTransfer = 1 ∧
        tsdo.dataSizeIndicated = 1 ∧ tsdo.dataEmptyBytes.toNat = (4 - limit.object.size) % 4 ∧
        ∀ i < limit.object.size, byte tsdo.data i =
          match lastAssigned sample limit (.start blank) [writeLimit, restoreLimit] with
          | some value => byte value i
          | none => blank.mem (limit.object.address blank + i) :=
  read_last_assigned sample blank limit_isolated rfl [writeLimit, restoreLimit]
    (.of_forall _ (sample_fixed blank) _ _) (by decide +kernel) (by decide +kernel)
    (by decide +kernel)

/-- There the last assignment is the restored default. -/
example : lastAssigned sample limit (.start blank) [writeLimit, restoreLimit] = some 7 := by
  decide +kernel

def restoreSerial : CanPayload :=
  ExpeditedSdo.toPayload
    { cs := SdoCsCodes.clientInitWrite, index := 0x1011, subindex := 4, data := 0x002001 }

theorem read_only_immutable_sample :
    (∀ i < serial.object.size,
      ((port sample).serve (.start blank) [restoreSerial, writeLimit]).machine.mem
          (serial.object.address
            ((port sample).serve (.start blank) [restoreSerial, writeLimit]).machine + i) =
        blank.mem (serial.object.address blank + i)) ∧
    (∀ c p, c.fault = none → (ExpeditedSdo.fromPayload p).cs = SdoCsCodes.clientInitWrite →
      (port sample).requestKey (ExpeditedSdo.fromPayload p) = serial.key →
        ∃ code, code ≠ .noError ∧
          ((port sample).execute c p).1 = some (AbortSdo.of (ExpeditedSdo.fromPayload p).index
            (ExpeditedSdo.fromPayload p).subindex code).toPayload) ∧
    (∀ c p m', c.fault = none → (port sample).RestoreRun c.machine p serial.key m' →
        ∃ code, code ≠ .noError ∧
          ((port sample).execute c p).1 = some (AbortSdo.of (ExpeditedSdo.fromPayload p).index
            (ExpeditedSdo.fromPayload p).subindex code).toPayload) :=
  read_only_immutable sample (.tail _ (.tail _ (.head _))) (.inl rfl) rfl blank
    (by
      intro b member permission direct
      rcases sample_cases member with rfl | rfl | rfl | rfl
      · exact absurd direct (by decide)
      · exact Set.disjoint_left.mpr fun x inLimit inSerial => by
          have high : x < 0x100 + 2 := inLimit.2
          have low : 0x200 ≤ x := inSerial.1
          omega
      · exact absurd permission (by decide)
      · exact Set.disjoint_left.mpr fun x inPassword inSerial => by
          have low : 0x300 ≤ x := inPassword.1
          have high : x < 0x200 + 4 := inSerial.2
          omega)
    (sample_untouched _) [restoreSerial, writeLimit] (.of_forall _ (sample_fixed blank) _ _)

end Sample

end Ucanopen.F4
