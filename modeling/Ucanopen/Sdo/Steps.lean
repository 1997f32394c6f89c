import Ucanopen.Sdo.Access

/-! # What one SDO request does

Each function of the request handler has its list of ways to end, with the
machine it ends on. Everything that is proved about requests is read off these
lists, never off the functions again.
-/

namespace Ucanopen

open Bytes Exec

variable {w : Nat} {E : Type}

namespace ODObject

theorem target_run {o : ODObject E} (direct : o.hasDirectAccess = true) (m : Machine E) :
    o.target.run m = .ok (o.address m) m := by
  by_cases first : o.ptr.1 = nullptr
  · have second : o.ptr.2 ≠ nullptr := by
      intro second
      exact absurd direct (by simp [hasDirectAccess, Prod.ext_iff, first, second])
    simp only [target, address, first, second, ne_eq, not_true_eq_false, not_false_eq_true,
      if_false, if_true]
    rfl
  · simp [target, address, first]

theorem load_run {o : ODObject E} (direct : o.hasDirectAccess = true) (data : ExpeditedSdoData)
    (m : Machine E) :
    (o.load data).run m = .ok (copyInto data (fun i => m.mem (o.address m + i)) o.size) m := by
  simp only [load, EStateM.run_bind, target_run direct]
  rfl

theorem store_run {o : ODObject E} (direct : o.hasDirectAccess = true) (data : ExpeditedSdoData)
    (m : Machine E) :
    (o.store data).run m =
      .ok () { m with mem := overwrite m.mem (o.address m) o.size (byte data) } := by
  simp [store, target_run direct]

theorem read_run_direct {o : ODObject E} (direct : o.hasDirectAccess = true)
    (data : ExpeditedSdoData) (m : Machine E) :
    (o.read data).run m =
      .ok (.noError, copyInto data (fun i => m.mem (o.address m + i)) o.size) m := by
  unfold read
  rw [if_pos direct, EStateM.run_bind, load_run direct]
  rfl

theorem read_indirect {o : ODObject E} (indirect : o.hasDirectAccess = false)
    (data : ExpeditedSdoData) : o.read data = o.readFunc.callRead data := by
  unfold read
  rw [indirect]
  exact if_neg Bool.false_ne_true

/-- The ways a read of an object ends. -/
inductive Fetched (o : ODObject E) (data : ExpeditedSdoData) (m : Machine E) :
    EStateM.Result Fault (Machine E) (SdoAbortCode × ExpeditedSdoData) → Prop
  | direct (direct : o.hasDirectAccess = true) :
      Fetched o data m
        (.ok (.noError, copyInto data (fun i => m.mem (o.address m + i)) o.size) m)
  | null (indirect : o.hasDirectAccess = false) (null : o.readFunc = .null) :
      Fetched o data m (.error .nullReadFunc m)
  | noAccess (indirect : o.hasDirectAccess = false) (stub : o.readFunc = .noAccess) :
      Fetched o data m (.ok (.unsupportedAccess, data) m)
  | func (f : ReadFunc E) (indirect : o.hasDirectAccess = false) (call : o.readFunc = .func f) :
      Fetched o data m (.ok (f data m).1 (f data m).2)

theorem fetched (o : ODObject E) (data : ExpeditedSdoData) (m : Machine E) :
    Fetched o data m ((o.read data).run m) := by
  cases direct : o.hasDirectAccess with
  | true =>
      rw [read_run_direct direct]
      exact .direct direct
  | false =>
      rw [read_indirect direct]
      cases call : o.readFunc with
      | null => exact .null direct call
      | noAccess => exact .noAccess direct call
      | func f => exact .func f direct call

theorem write_run_direct {o : ODObject E} (direct : o.hasDirectAccess = true)
    (data : ExpeditedSdoData) (m : Machine E) :
    (o.write data).run m =
      .ok .noError { m with mem := overwrite m.mem (o.address m) o.size (byte data) } := by
  unfold write
  rw [if_pos direct, EStateM.run_bind, store_run direct]
  rfl

theorem write_indirect {o : ODObject E} (indirect : o.hasDirectAccess = false)
    (data : ExpeditedSdoData) : o.write data = o.writeFunc.callWrite data := by
  unfold write
  rw [indirect]
  exact if_neg Bool.false_ne_true

/-- The ways a write of an object ends. -/
inductive Written (o : ODObject E) (data : ExpeditedSdoData) (m : Machine E) :
    EStateM.Result Fault (Machine E) SdoAbortCode → Prop
  | direct (direct : o.hasDirectAccess = true) :
      Written o data m
        (.ok .noError { m with mem := overwrite m.mem (o.address m) o.size (byte data) })
  | null (indirect : o.hasDirectAccess = false) (null : o.writeFunc = .null) :
      Written o data m (.error .nullWriteFunc m)
  | noAccess (indirect : o.hasDirectAccess = false) (stub : o.writeFunc = .noAccess) :
      Written o data m (.ok .unsupportedAccess m)
  | func (f : WriteFunc E) (indirect : o.hasDirectAccess = false) (call : o.writeFunc = .func f) :
      Written o data m (.ok (f data m).1 (f data m).2)

theorem written (o : ODObject E) (data : ExpeditedSdoData) (m : Machine E) :
    Written o data m ((o.write data).run m) := by
  cases direct : o.hasDirectAccess with
  | true =>
      rw [write_run_direct direct]
      exact .direct direct
  | false =>
      rw [write_indirect direct]
      cases call : o.writeFunc with
      | null => exact .null direct call
      | noAccess => exact .noAccess direct call
      | func f => exact .func f direct call

/-- Only a function refuses to store. -/
theorem indirect_of_refused {o : ODObject E} {data : ExpeditedSdoData} {m m' : Machine E}
    (refused : (o.write data).run m = .ok .dataStoreError m') : o.hasDirectAccess = false := by
  cases direct : o.hasDirectAccess with
  | false => rfl
  | true =>
      rw [write_run_direct direct] at refused
      exact absurd refused nofun

end ODObject

namespace Port

variable (port : Port w E)

/-- The ways `restore_default_parameter` ends. -/
inductive Restored (key : ODObjectKey w) (m : Machine E) :
    EStateM.Result Fault (Machine E) SdoAbortCode → Prop
  | absent (missing : port.find key = none) : Restored key m (.ok .objectNotFound m)
  | noDefault (b : ODEntry w E) (found : port.find key = some b)
      (missing : b.object.defaultValue = none) : Restored key m (.ok .dataStoreError m)
  | denied (b : ODEntry w E) (value : ExpeditedSdoData) (found : port.find key = some b)
      (default : b.object.defaultValue = some value)
      (permission : b.object.hasWritePermission = false) : Restored key m (.ok .writeAccessRo m)
  | written (b : ODEntry w E) (value : ExpeditedSdoData)
      {r : EStateM.Result Fault (Machine E) SdoAbortCode} (found : port.find key = some b)
      (default : b.object.defaultValue = some value)
      (permission : b.object.hasWritePermission = true) (ends : b.object.Written value m r) :
      Restored key m r

theorem restored (key : ODObjectKey w) (m : Machine E) :
    port.Restored key m ((port.restoreDefaultParameter key).run m) := by
  unfold restoreDefaultParameter
  cases found : port.find key with
  | none => exact .absent found
  | some b =>
      cases default : b.object.defaultValue with
      | none =>
          simp only [default]
          exact .noDefault b found default
      | some value =>
          simp only [default]
          cases permission : b.object.hasWritePermission with
          | false => exact .denied b value found default permission
          | true => exact .written b value found default permission (b.object.written value m)

/-- The ways a permitted write of an entry ends, the restore included. -/
inductive Stored (a : ODEntry w E) (data : ExpeditedSdoData) (m : Machine E) :
    EStateM.Result Fault (Machine E) SdoAbortCode → Prop
  | plain {r : EStateM.Result Fault (Machine E) SdoAbortCode}
      (ran : (a.object.write data).run m = r)
      (plain : ∀ m', r = .ok .dataStoreError m' → a.key ≠ restoreDefaultParameterKey w) :
      Stored a data m r
  | restore {m' : Machine E} {r : EStateM.Result Fault (Machine E) SdoAbortCode}
      (refused : (a.object.write data).run m = .ok .dataStoreError m')
      (key : a.key = restoreDefaultParameterKey w)
      (ends : port.Restored (port.argKey data) m' r) : Stored a data m r

theorem stored (a : ODEntry w E) (data : ExpeditedSdoData) (m : Machine E) :
    port.Stored a data m ((port.writeOrRestore a data).run m) := by
  unfold writeOrRestore
  rw [EStateM.run_bind]
  cases ran : (a.object.write data).run m with
  | error f m' => exact .plain ran nofun
  | ok code m' =>
      by_cases restores : code = .dataStoreError ∧ a.key = restoreDefaultParameterKey w
      · simp only [if_pos restores]
        exact .restore (restores.1 ▸ ran) restores.2 (port.restored _ m')
      · simp only [if_neg restores]
        refine .plain ran ?_
        rintro _ ⟨⟩ key
        exact restores ⟨rfl, key⟩

/-- The confirmation of a read. -/
def confirmRead (rsdo : ExpeditedSdo) (o : ODObject E) (data : ExpeditedSdoData) :
    ExpeditedSdo where
  data := data
  index := rsdo.index
  subindex := rsdo.subindex
  cs := SdoCsCodes.serverInitRead
  expeditedTransfer := 1
  dataSizeIndicated := 1
  dataEmptyBytes := BitVec.ofNat 2 (4 - o.size)

/-- The confirmation of a write. -/
def confirmWrite (rsdo : ExpeditedSdo) : ExpeditedSdo where
  index := rsdo.index
  subindex := rsdo.subindex
  cs := SdoCsCodes.serverInitWrite

/-- The ways the command of a request ends: the abort code and the response. -/
inductive Dispatched (rsdo : ExpeditedSdo) (m : Machine E) :
    EStateM.Result Fault (Machine E) (SdoAbortCode × ExpeditedSdo) → Prop
  | absent (missing : port.find (port.requestKey rsdo) = none) :
      Dispatched rsdo m (.ok (.objectNotFound, {}) m)
  | command (a : ODEntry w E) (found : port.find (port.requestKey rsdo) = some a)
      (notRead : rsdo.cs ≠ SdoCsCodes.clientInitRead)
      (notWrite : rsdo.cs ≠ SdoCsCodes.clientInitWrite) :
      Dispatched rsdo m (.ok (.invalidCs, {}) m)
  | readDenied (a : ODEntry w E) (found : port.find (port.requestKey rsdo) = some a)
      (command : rsdo.cs = SdoCsCodes.clientInitRead)
      (permission : a.object.hasReadPermission = false) :
      Dispatched rsdo m (.ok (.readAccessWo, {}) m)
  | writeDenied (a : ODEntry w E) (found : port.find (port.requestKey rsdo) = some a)
      (command : rsdo.cs = SdoCsCodes.clientInitWrite)
      (permission : a.object.hasWritePermission = false) :
      Dispatched rsdo m (.ok (.writeAccessRo, {}) m)
  | read (a : ODEntry w E)
      {r : EStateM.Result Fault (Machine E) (SdoAbortCode × ExpeditedSdoData)}
      (found : port.find (port.requestKey rsdo) = some a)
      (command : rsdo.cs = SdoCsCodes.clientInitRead)
      (permission : a.object.hasReadPermission = true) (ends : a.object.Fetched 0 m r) :
      Dispatched rsdo m
        (mapResult
          (fun (code, data) =>
            (code, if code = .noError then confirmRead rsdo a.object data else { data := data }))
          r)
  | write (a : ODEntry w E) {r : EStateM.Result Fault (Machine E) SdoAbortCode}
      (found : port.find (port.requestKey rsdo) = some a)
      (command : rsdo.cs = SdoCsCodes.clientInitWrite)
      (permission : a.object.hasWritePermission = true) (ends : port.Stored a rsdo.data m r) :
      Dispatched rsdo m
        (mapResult (fun code => (code, if code = .noError then confirmWrite rsdo else {})) r)

theorem readExpedited_run {a : ODEntry w E} (permission : a.object.hasReadPermission = true)
    (rsdo : ExpeditedSdo) (m : Machine E) :
    (readExpedited a {} rsdo).run m =
      mapResult
        (fun (code, data) =>
          (code, if code = .noError then confirmRead rsdo a.object data else { data := data }))
        ((a.object.read 0).run m) := by
  unfold readExpedited
  rw [if_neg (by simp [permission]), EStateM.run_bind]
  cases (a.object.read 0).run m with
  | error f m' => rfl
  | ok outcome m' =>
      obtain ⟨code, data⟩ := outcome
      by_cases ok : code = .noError
      · subst ok
        rfl
      · simp only [if_neg ok, mapResult]
        rfl

theorem writeExpedited_run {a : ODEntry w E} (permission : a.object.hasWritePermission = true)
    (rsdo : ExpeditedSdo) (m : Machine E) :
    (port.writeExpedited a {} rsdo).run m =
      mapResult (fun code => (code, if code = .noError then confirmWrite rsdo else {}))
        ((port.writeOrRestore a rsdo.data).run m) := by
  unfold writeExpedited
  rw [if_neg (by simp [permission]), EStateM.run_bind]
  cases (port.writeOrRestore a rsdo.data).run m with
  | error f m' => rfl
  | ok code m' =>
      by_cases ok : code = .noError
      · subst ok
        rfl
      · simp only [if_neg ok, mapResult]
        rfl

/-- A permitted read command ends as the read of the object does. -/
theorem dispatch_read {rsdo : ExpeditedSdo} {a : ODEntry w E}
    (found : port.find (port.requestKey rsdo) = some a)
    (command : rsdo.cs = SdoCsCodes.clientInitRead)
    (permission : a.object.hasReadPermission = true) (m : Machine E) :
    (port.dispatch rsdo).run m =
      mapResult
        (fun (code, data) =>
          (code, if code = .noError then confirmRead rsdo a.object data else { data := data }))
        ((a.object.read 0).run m) := by
  unfold dispatch
  simp only [found, if_pos command]
  exact readExpedited_run permission rsdo m

/-- A permitted write command ends as the write, or the restore it turns into, does. -/
theorem dispatch_write {rsdo : ExpeditedSdo} {a : ODEntry w E}
    (found : port.find (port.requestKey rsdo) = some a)
    (command : rsdo.cs = SdoCsCodes.clientInitWrite)
    (permission : a.object.hasWritePermission = true) (m : Machine E) :
    (port.dispatch rsdo).run m =
      mapResult (fun code => (code, if code = .noError then confirmWrite rsdo else {}))
        ((port.writeOrRestore a rsdo.data).run m) := by
  have notRead : rsdo.cs ≠ SdoCsCodes.clientInitRead := command.trans_ne SdoCsCodes.write_ne_read
  unfold dispatch
  simp only [found, if_neg notRead, if_pos command]
  exact port.writeExpedited_run permission rsdo m

theorem dispatched (rsdo : ExpeditedSdo) (m : Machine E) :
    port.Dispatched rsdo m ((port.dispatch rsdo).run m) := by
  cases found : port.find (port.requestKey rsdo) with
  | none =>
      unfold dispatch
      rw [found]
      exact .absent found
  | some a =>
      by_cases reads : rsdo.cs = SdoCsCodes.clientInitRead
      · cases permission : a.object.hasReadPermission with
        | false =>
            unfold dispatch readExpedited
            simp only [found, if_pos reads, if_pos permission]
            exact .readDenied a found reads permission
        | true =>
            rw [port.dispatch_read found reads permission]
            exact .read a found reads permission (a.object.fetched 0 m)
      · by_cases writes : rsdo.cs = SdoCsCodes.clientInitWrite
        · cases permission : a.object.hasWritePermission with
          | false =>
              unfold dispatch writeExpedited
              simp only [found, if_neg reads, if_pos writes, if_pos permission]
              exact .writeDenied a found writes permission
          | true =>
              rw [port.dispatch_write found writes permission]
              exact .write a found writes permission (port.stored a rsdo.data m)
        · unfold dispatch
          simp only [found, if_neg reads, if_neg writes]
          exact .command a found reads writes

/-- Executing the payload on `m` runs `restore_default_parameter(key)`, on `m'`. -/
def RestoreRun (m : Machine E) (p : CanPayload) (key : ODObjectKey w) (m' : Machine E) : Prop :=
  ∃ a, port.find (port.requestKey (ExpeditedSdo.fromPayload p)) = some a ∧
    (ExpeditedSdo.fromPayload p).cs = SdoCsCodes.clientInitWrite ∧
    a.object.hasWritePermission = true ∧ a.key = restoreDefaultParameterKey w ∧
    (a.object.write (ExpeditedSdo.fromPayload p).data).run m = .ok .dataStoreError m' ∧
    key = port.argKey (ExpeditedSdo.fromPayload p).data

/-- A request runs one restore at most. -/
theorem RestoreRun.unique {port : Port w E} {m m' m'' : Machine E} {p : CanPayload}
    {key key' : ODObjectKey w} (restores : port.RestoreRun m p key m')
    (restores' : port.RestoreRun m p key' m'') : key = key' ∧ m' = m'' := by
  obtain ⟨a, found, _, _, _, refused, rfl⟩ := restores
  obtain ⟨b, found', _, _, _, refused', rfl⟩ := restores'
  obtain rfl := Option.some.inj (found.symm.trans found')
  exact ⟨rfl, (EStateM.Result.ok.inj (refused.symm.trans refused')).2⟩

/-- A write that runs a restore ends as the restore does. -/
theorem dispatch_of_restoreRun {port : Port w E} {m m' : Machine E} {p : CanPayload}
    {key : ODObjectKey w} (restores : port.RestoreRun m p key m') :
    (port.dispatch (ExpeditedSdo.fromPayload p)).run m =
      mapResult
        (fun code =>
          (code, if code = .noError then confirmWrite (ExpeditedSdo.fromPayload p) else {}))
        ((port.restoreDefaultParameter key).run m') := by
  obtain ⟨a, found, command, permission, isRestore, refused, rfl⟩ := restores
  have stored : (port.writeOrRestore a (ExpeditedSdo.fromPayload p).data).run m =
      (port.restoreDefaultParameter (port.argKey (ExpeditedSdo.fromPayload p).data)).run m' := by
    unfold writeOrRestore
    rw [EStateM.run_bind, refused]
    simp only [isRestore, and_self, if_true]
  rw [port.dispatch_write found command permission, stored]

/-- A request that is not an abort frame is answered with its encoded outcome. -/
theorem handleRequest_run {p : CanPayload}
    (request : (ExpeditedSdo.fromPayload p).cs ≠ SdoCsCodes.abort) (m : Machine E) :
    (port.handleRequest p).run m =
      mapResult (fun outcome => some (port.encode (ExpeditedSdo.fromPayload p) outcome))
        ((port.dispatch (ExpeditedSdo.fromPayload p)).run m) := by
  unfold handleRequest
  rw [if_neg request]
  exact run_map_pure _ _ m

end Port

end Ucanopen
