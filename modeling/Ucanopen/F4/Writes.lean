import Ucanopen.F4.Parameters

/-! # What a write request changes

A request changes memory only when it is answered with a write confirmation, and
then it changes one object. How many bytes of a direct object it changes is
decided by the object's type alone: the service never looks at the length a
client indicates.
-/

namespace Ucanopen.F4

open Bytes Exec

variable {E : Type}

/-! ## The length of a download -/

theorem write_direct_run {d : ObjectDictionary 8 E} {k : ODEntry 8 E} (member : k ∈ d.entries)
    (direct : k.object.hasDirectAccess = true) (writable : k.object.hasWritePermission = true)
    {rsdo : ExpeditedSdo} (command : rsdo.cs = SdoCsCodes.clientInitWrite)
    (names : (port d).requestKey rsdo = k.key) (m : Machine E) :
    ((port d).dispatch rsdo).run m =
      .ok (.noError, Port.confirmWrite rsdo)
        { m with mem := overwrite m.mem (k.object.address m) k.object.size (byte rsdo.data) } := by
  have found : (port d).find ((port d).requestKey rsdo) = some k := Port.find_of_member member names
  have stored : ((port d).writeOrRestore k rsdo.data).run m =
      .ok .noError
        { m with mem := overwrite m.mem (k.object.address m) k.object.size (byte rsdo.data) } := by
    unfold Port.writeOrRestore
    rw [EStateM.run_bind, ODObject.write_run_direct direct]
    rfl
  rw [(port d).dispatch_write found command writable, stored]
  rfl

/-- The first byte of a download says that its data is no value of the object:
    it starts a segmented transfer, or indicates another length. -/
def IllSized (rsdo : ExpeditedSdo) (o : ODObject E) : Prop :=
  rsdo.expeditedTransfer = 0 ∨
    rsdo.dataSizeIndicated = 1 ∧ 4 - rsdo.dataEmptyBytes.toNat ≠ o.size

/-- A download to a writable direct object is confirmed and stores as many bytes
    as the object has, whatever its first byte says about their number. -/
theorem download_stores_size (d : ObjectDictionary 8 E) {k : ODEntry 8 E} (member : k ∈ d.entries)
    (direct : k.object.hasDirectAccess = true) (writable : k.object.hasWritePermission = true)
    (m : Machine E) {p : CanPayload}
    (command : (ExpeditedSdo.fromPayload p).cs = SdoCsCodes.clientInitWrite)
    (names : (port d).requestKey (ExpeditedSdo.fromPayload p) = k.key) :
    ∃ m', (port d).execute (.start m) p =
        (some (ExpeditedSdo.toPayload
          { cs := SdoCsCodes.serverInitWrite, index := k.key.index, subindex := k.key.subindex }),
          .start m') ∧
      (∀ i < k.object.size,
        m'.mem (k.object.address m + i) = byte (ExpeditedSdo.fromPayload p).data i) ∧
      (∀ x ∉ k.object.bytes m, m'.mem x = m.mem x) ∧ m'.env = m.env := by
  have notAbort : (ExpeditedSdo.fromPayload p).cs ≠ SdoCsCodes.abort :=
    command.trans_ne SdoCsCodes.write_ne_abort
  have ran := write_direct_run member direct writable command names m
  refine ⟨{ m with
    mem := overwrite m.mem (k.object.address m) k.object.size
      (byte (ExpeditedSdo.fromPayload p).data) }, ?_, ?_, ?_, rfl⟩
  · rw [(port d).execute_dispatch rfl notAbort, Core.start_machine, ran, ← names]
    rfl
  · intro i small
    exact overwrite_inside _ _ _ small
  · intro x outside
    exact overwrite_outside _ _ outside

theorem download_stores_size_limit :
    ∃ m', (port sample).execute (.start blank) writeLimit =
        (some (ExpeditedSdo.toPayload
          { cs := SdoCsCodes.serverInitWrite, index := limit.key.index,
            subindex := limit.key.subindex }), .start m') ∧
      (∀ i < limit.object.size,
        m'.mem (limit.object.address blank + i) =
          byte (ExpeditedSdo.fromPayload writeLimit).data i) ∧
      (∀ x ∉ limit.object.bytes blank, m'.mem x = blank.mem x) ∧ m'.env = blank.env :=
  download_stores_size sample (k := limit) (.tail _ (.head _)) rfl rfl blank (by decide +kernel)
    (by decide +kernel)

/-- A download of one byte to the two bytes of `limit`. -/
def writeLimitByte : CanPayload :=
  ExpeditedSdo.toPayload
    { dataSizeIndicated := 1, expeditedTransfer := 1, dataEmptyBytes := 3,
      cs := SdoCsCodes.clientInitWrite, index := 0x2000, subindex := 1, data := 0x0905 }

/-- The start of a segmented transfer is stored as a value, and a byte that is
    padding by the request's own account reaches the object. -/
theorem illSized_stored :
    (IllSized (ExpeditedSdo.fromPayload writeLimit) limit.object ∧
      ((port sample).execute (.start blank) writeLimit).1.map
          (fun r => (ExpeditedSdo.fromPayload r).cs) = some SdoCsCodes.serverInitWrite ∧
      ((port sample).execute (.start blank) writeLimit).2.machine.mem 0x100 = 5) ∧
    (IllSized (ExpeditedSdo.fromPayload writeLimitByte) limit.object ∧
      ((port sample).execute (.start blank) writeLimitByte).1.map
          (fun r => (ExpeditedSdo.fromPayload r).cs) = some SdoCsCodes.serverInitWrite ∧
      ((port sample).execute (.start blank) writeLimitByte).2.machine.mem 0x101 = 9) ∧
    blank.mem 0x100 = 0 ∧ blank.mem 0x101 = 0 := by
  refine ⟨⟨.inl ?_, ?_⟩, ⟨.inr ?_, ?_⟩, ?_⟩
  all_goals decide +kernel

/-! ## One request, one object -/

/-- Both layouts have the command specifier in the same place. -/
theorem encode_cs (d : ObjectDictionary 8 E) (rsdo : ExpeditedSdo)
    (outcome : SdoAbortCode × ExpeditedSdo) :
    (ExpeditedSdo.fromPayload ((port d).encode rsdo outcome)).cs =
      if outcome.1 = .noError then outcome.2.cs else SdoCsCodes.abort := by
  obtain ⟨code, tsdo⟩ := outcome
  cases code with
  | noError => exact congrArg ExpeditedSdo.cs (ExpeditedSdo.fromPayload_toPayload tsdo)
  | _ => exact AbortSdo.cs_of_fromPayload _

/-- What the application's functions may do to memory: a failing one does nothing,
    and one that stores changes what its own object owns. -/
structure Disciplined (entries : List (ODEntry 8 E)) (owned : ODEntry 8 E → Set Nat) : Prop where
  readFunc : ∀ a ∈ entries, ∀ f, a.object.readFunc = .func f →
    ∀ data m, (f data m).2.mem = m.mem
  refused : ∀ a ∈ entries, ∀ f, a.object.writeFunc = .func f →
    ∀ data m, (f data m).1 ≠ .noError → (f data m).2.mem = m.mem
  stored : ∀ a ∈ entries, ∀ f, a.object.writeFunc = .func f →
    ∀ data m, (f data m).1 = .noError → AgreeOutside (owned a) m.mem (f data m).2.mem

/-- The bytes of a direct object, or what a function-backed one owns. -/
def storage (owned : ODEntry 8 E → Set Nat) (m : Machine E) (k : ODEntry 8 E) : Set Nat :=
  if k.object.hasDirectAccess = true then k.object.bytes m else owned k

/-- The writable object a write request is for: the one its header names, unless it
    asks for a restore; then the one its data names, which has a default. -/
def WriteTarget (d : ObjectDictionary 8 E) (m : Machine E) (p : CanPayload) (k : ODEntry 8 E) :
    Prop :=
  let rsdo := ExpeditedSdo.fromPayload p
  k ∈ d.entries ∧ k.object.hasWritePermission = true ∧
    if restoreAsked d m p = true then
      k.key = namedKey rsdo.data ∧ k.object.defaultValue.isSome = true
    else k.key = ⟨rsdo.index, rsdo.subindex⟩

/-- A write changed these bytes at most if it succeeded, and nothing if it did not. -/
def Confined (bytes : Set Nat) (m : Machine E) :
    EStateM.Result Fault (Machine E) SdoAbortCode → Prop
  | .ok .noError m' => AgreeOutside bytes m.mem m'.mem
  | .ok _ m' => m'.mem = m.mem
  | .error _ m' => m'.mem = m.mem

section Atomic

variable {d : ObjectDictionary 8 E} {owned : ODEntry 8 E → Set Nat} {m : Machine E}

theorem mem_of_fetched (disciplined : Disciplined d.entries owned) {a : ODEntry 8 E}
    (member : a ∈ d.entries) {data : ExpeditedSdoData}
    {r : EStateM.Result Fault (Machine E) (SdoAbortCode × ExpeditedSdoData)}
    (ends : a.object.Fetched data m r) : (final r).mem = m.mem := by
  cases ends with
  | direct direct => rfl
  | null indirect null => rfl
  | noAccess indirect stub => rfl
  | func f indirect call => exact disciplined.readFunc a member f call data m

theorem confined_of_written (disciplined : Disciplined d.entries owned) {a : ODEntry 8 E}
    (member : a ∈ d.entries) {data : ExpeditedSdoData}
    {r : EStateM.Result Fault (Machine E) SdoAbortCode} (ends : a.object.Written data m r) :
    Confined (storage owned m a) m r := by
  unfold storage
  cases ends with
  | direct direct =>
      rw [if_pos direct]
      intro x outside
      exact (overwrite_outside _ _ outside).symm
  | null indirect null => rfl
  | noAccess indirect stub => rfl
  | func f indirect call =>
      rw [if_neg (by simp [indirect])]
      have stored := disciplined.stored a member f call data m
      have refused := disciplined.refused a member f call data m
      cases code : (f data m).1 with
      | noError => exact stored code
      | _ => exact refused (by simp [code])

/-- A restore fails before it reaches memory, or is a write of an object with a default. -/
theorem confined_of_restored (disciplined : Disciplined d.entries owned) {key : ODObjectKey 8}
    {r : EStateM.Result Fault (Machine E) SdoAbortCode} (ends : (port d).Restored key m r) :
    (∃ k ∈ d.entries, k.key = key ∧ k.object.hasWritePermission = true ∧
      k.object.defaultValue.isSome = true ∧ Confined (storage owned m k) m r) ∨
    ∃ code, code ≠ .noError ∧ r = .ok code m := by
  cases ends with
  | absent missing => exact .inr ⟨.objectNotFound, nofun, rfl⟩
  | noDefault b found missing => exact .inr ⟨.dataStoreError, nofun, rfl⟩
  | denied b value found default permission => exact .inr ⟨.writeAccessRo, nofun, rfl⟩
  | written b value found default permission ends =>
      exact .inl ⟨b, Port.member_of_find found, Port.key_of_find found, permission,
        Option.isSome_of_eq_some default,
        confined_of_written disciplined (Port.member_of_find found) ends⟩

/-- A refused store leaves nothing behind that the next access could see. -/
theorem storage_congr {m' : Machine E} (same : m'.mem = m.mem) (k : ODEntry 8 E) :
    storage owned m' k = storage owned m k := by
  unfold storage ODObject.bytes ODObject.address
  rw [same]

theorem Confined.congr {m' : Machine E} {bytes : Set Nat} (same : m'.mem = m.mem)
    {r : EStateM.Result Fault (Machine E) SdoAbortCode} (confined : Confined bytes m' r) :
    Confined bytes m r := by
  unfold Confined at confined ⊢
  rwa [same] at confined

/-- A confined write leaves memory as it was, or succeeds and changes these bytes at most. -/
theorem Confined.ends {bytes : Set Nat} {r : EStateM.Result Fault (Machine E) SdoAbortCode}
    (confined : Confined bytes m r) :
    ((final r).mem = m.mem ∧ ∀ m', r ≠ .ok .noError m') ∨
      ∃ m', r = .ok .noError m' ∧ AgreeOutside bytes m.mem m'.mem := by
  cases r with
  | error f m' => exact .inl ⟨confined, fun _ => nofun⟩
  | ok code m' =>
      cases code with
      | noError => exact .inr ⟨m', rfl, confined⟩
      | _ => exact .inl ⟨confined, fun _ => nofun⟩

/-- A store that succeeds is one write, of the object itself or of the one that a
    restore is for. -/
theorem stored_atomic (disciplined : Disciplined d.entries owned) {p : CanPayload}
    {a : ODEntry 8 E}
    (found : (port d).find ((port d).requestKey (ExpeditedSdo.fromPayload p)) = some a)
    (permission : a.object.hasWritePermission = true)
    {r : EStateM.Result Fault (Machine E) SdoAbortCode}
    (ends : (port d).Stored a (ExpeditedSdo.fromPayload p).data m r) :
    ((final r).mem = m.mem ∧ ∀ m', r ≠ .ok .noError m') ∨
      ∃ k m', WriteTarget d m p k ∧ r = .ok .noError m' ∧
        AgreeOutside (storage owned m k) m.mem m'.mem := by
  have member := Port.member_of_find found
  cases ends with
  | plain ran plain =>
      have written := a.object.written (ExpeditedSdo.fromPayload p).data m
      rw [ran] at written
      obtain same | ⟨m', stored, agree⟩ := (confined_of_written disciplined member written).ends
      · exact .inl same
      · have unasked : ¬ restoreAsked d m p = true := by
          rw [restoreAsked_iff]
          rintro ⟨b, found', isRestore, _, m', refused⟩
          obtain rfl := Option.some.inj (found.symm.trans found')
          exact plain m' (ran.symm.trans refused) isRestore
        have target : WriteTarget d m p a := by
          refine ⟨member, permission, ?_⟩
          rw [if_neg unasked]
          exact Port.key_of_find found
        exact .inr ⟨a, m', target, stored, agree⟩
  | @restore m₁ r refused key ends =>
      have written := a.object.written (ExpeditedSdo.fromPayload p).data m
      rw [refused] at written
      have untouched : m₁.mem = m.mem := confined_of_written disciplined member written
      have asked : restoreAsked d m p = true :=
        restoreAsked_iff.mpr ⟨a, found, key, ODObject.indirect_of_refused refused, m₁, refused⟩
      obtain ⟨k, inside, names, writable, default, confined⟩ | ⟨code, failed, rfl⟩ :=
        confined_of_restored disciplined ends
      · rw [storage_congr untouched] at confined
        obtain same | ⟨m', stored, agree⟩ := (confined.congr untouched).ends
        · exact .inl same
        · have target : WriteTarget d m p k := by
            refine ⟨inside, writable, ?_⟩
            rw [if_pos asked]
            exact ⟨names.trans (argKey_eq _), default⟩
          exact .inr ⟨k, m', target, stored, agree⟩
      · refine .inl ⟨untouched, fun m' here => ?_⟩
        exact failed (EStateM.Result.ok.inj here).1

theorem dispatch_atomic (disciplined : Disciplined d.entries owned) (p : CanPayload) :
    let r := ((port d).dispatch (ExpeditedSdo.fromPayload p)).run m
    ((final r).mem = m.mem ∧
        ∀ tsdo m', r = .ok (.noError, tsdo) m' → tsdo.cs ≠ SdoCsCodes.serverInitWrite) ∨
      ∃ k m', WriteTarget d m p k ∧
        r = .ok (.noError, Port.confirmWrite (ExpeditedSdo.fromPayload p)) m' ∧
        AgreeOutside (storage owned m k) m.mem m'.mem := by
  intro r
  have ends : (port d).Dispatched (ExpeditedSdo.fromPayload p) m r := (port d).dispatched _ m
  generalize r = r at ends ⊢
  cases ends with
  | absent missing => exact .inl ⟨rfl, fun _ _ => nofun⟩
  | command a found notRead notWrite => exact .inl ⟨rfl, fun _ _ => nofun⟩
  | readDenied a found command permission => exact .inl ⟨rfl, fun _ _ => nofun⟩
  | writeDenied a found command permission => exact .inl ⟨rfl, fun _ _ => nofun⟩
  | @read a r found command permission ends =>
      refine .inl ⟨?_, ?_⟩
      · rw [final_mapResult]
        exact mem_of_fetched disciplined (Port.member_of_find found) ends
      · intro tsdo m' same
        cases r with
        | error f m' => exact absurd same nofun
        | ok outcome m'' =>
            obtain ⟨code, data⟩ := outcome
            obtain ⟨both, _⟩ := EStateM.Result.ok.inj same
            obtain ⟨rfl, rfl⟩ := Prod.mk.inj both
            exact SdoCsCodes.read_ne_confirmation
  | @write a r found command permission ends =>
      obtain ⟨same, failed⟩ | ⟨k, m', target, rfl, agree⟩ :=
        stored_atomic disciplined found permission ends
      · refine .inl ⟨?_, ?_⟩
        · rw [final_mapResult]
          exact same
        · intro tsdo m' confirmed
          cases r with
          | error f m'' => exact absurd confirmed nofun
          | ok code m'' =>
              have ok : code = .noError := congrArg Prod.fst (EStateM.Result.ok.inj confirmed).1
              exact absurd (congrArg (EStateM.Result.ok · m'') ok) (failed m'')
      · exact .inr ⟨k, m', target, rfl, agree⟩

end Atomic

/-- A request that is not answered with a write confirmation leaves memory as it
    was; one that is changes the storage of the one object it is for. -/
theorem request_atomic (d : ObjectDictionary 8 E) (owned : ODEntry 8 E → Set Nat)
    (disciplined : Disciplined d.entries owned) (m : Machine E) (p : CanPayload) :
    ((∀ r, ((port d).execute (.start m) p).1 = some r →
        (ExpeditedSdo.fromPayload r).cs ≠ SdoCsCodes.serverInitWrite) →
      ((port d).execute (.start m) p).2.machine.mem = m.mem) ∧
    (∀ r, ((port d).execute (.start m) p).1 = some r →
      (ExpeditedSdo.fromPayload r).cs = SdoCsCodes.serverInitWrite →
        ∃ k, WriteTarget d m p k ∧
          AgreeOutside (storage owned m k) m.mem
            ((port d).execute (.start m) p).2.machine.mem) := by
  by_cases abort : (ExpeditedSdo.fromPayload p).cs = SdoCsCodes.abort
  · rw [(port d).execute_abort (.start m) abort]
    exact ⟨fun _ => rfl, fun r response => absurd response nofun⟩
  · rw [(port d).execute_dispatch rfl abort, Core.start_machine]
    have ends := dispatch_atomic disciplined (m := m) p
    dsimp only at ends
    cases ran : ((port d).dispatch (ExpeditedSdo.fromPayload p)).run m with
    | error f m' =>
        rw [ran] at ends
        obtain ⟨same, _⟩ | ⟨k, m'', _, wrong, _⟩ := ends
        · exact ⟨fun _ => same, fun r response => absurd response nofun⟩
        · exact absurd wrong nofun
    | ok outcome m' =>
        rw [ran] at ends
        dsimp only
        obtain ⟨same, unconfirmed⟩ | ⟨k, m'', target, here, agree⟩ := ends
        · refine ⟨fun _ => same, fun r response confirmation => ?_⟩
          obtain rfl := Option.some.inj response
          obtain ⟨code, tsdo⟩ := outcome
          rw [encode_cs] at confirmation
          cases code with
          | noError => exact absurd confirmation (unconfirmed tsdo m' rfl)
          | _ => exact absurd confirmation.symm SdoCsCodes.confirmation_ne_abort
        · obtain ⟨rfl, rfl⟩ := EStateM.Result.ok.inj here
          refine ⟨fun unconfirmed => absurd ?_ (unconfirmed _ rfl), fun r response _ => ?_⟩
          · rw [encode_cs]
            rfl
          · exact ⟨k, target, agree⟩

/-- The one function of the sample dictionary always refuses, and owns nothing. -/
theorem sample_disciplined : Disciplined sample.entries fun _ => ∅ where
  readFunc := by
    intro a member f call
    rcases sample_cases member with rfl | rfl | rfl | rfl <;> exact absurd call nofun
  refused := by
    intro a member f call data m _
    rcases sample_cases member with rfl | rfl | rfl | rfl
    · cases call
      rfl
    all_goals exact absurd call nofun
  stored := by
    intro a member f call data m ok
    rcases sample_cases member with rfl | rfl | rfl | rfl
    · cases call
      exact absurd ok nofun
    all_goals exact absurd call nofun

theorem request_atomic_sample :
    ((∀ r, ((port sample).execute (.start blank) restoreLimit).1 = some r →
        (ExpeditedSdo.fromPayload r).cs ≠ SdoCsCodes.serverInitWrite) →
      ((port sample).execute (.start blank) restoreLimit).2.machine.mem = blank.mem) ∧
    (∀ r, ((port sample).execute (.start blank) restoreLimit).1 = some r →
      (ExpeditedSdo.fromPayload r).cs = SdoCsCodes.serverInitWrite →
        ∃ k, WriteTarget sample blank restoreLimit k ∧
          AgreeOutside (storage (fun _ => ∅) blank k) blank.mem
            ((port sample).execute (.start blank) restoreLimit).2.machine.mem) :=
  request_atomic sample (fun _ => ∅) sample_disciplined blank restoreLimit

end Ucanopen.F4
