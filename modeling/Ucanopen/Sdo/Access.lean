import Ucanopen.Dictionary

/-! # Executing one SDO request

`read_expedited`, `write_expedited`, `restore_default_parameter` and the body of
the request loop. Both ports have the same text for them except in four places,
which `Port` collects: the lookup routine, the width of the subindex in a key,
the key a restore request's data is copied into, and how an abort frame is
built.
-/

namespace Ucanopen

open Bytes

variable {w : Nat} {E : Type}

namespace FuncPtr

/-- `read_func(retval)`. -/
def callRead : FuncPtr (ReadFunc E) → ExpeditedSdoData → Prog E (SdoAbortCode × ExpeditedSdoData)
  | .null, _ => throw .nullReadFunc
  | .noAccess, retval => pure (.unsupportedAccess, retval)
  | .func f, retval => modifyGet (f retval)

/-- `write_func(val)`. -/
def callWrite : FuncPtr (WriteFunc E) → ExpeditedSdoData → Prog E SdoAbortCode
  | .null, _ => throw .nullWriteFunc
  | .noAccess, _ => pure .unsupportedAccess
  | .func f, val => modifyGet (f val)

end FuncPtr

namespace ODObject

/-- The pointer a `memcpy` of the object's bytes is given. -/
def target (o : ODObject E) : Prog E Nat :=
  if o.ptr.1 ≠ nullptr then pure o.ptr.1
  else if o.ptr.2 ≠ nullptr then do
    let m ← get
    pure (loadPointer m.mem o.ptr.2)
  else throw .nullPointer

/-- `memcpy(&data, target, size)`. -/
def load (o : ODObject E) (data : ExpeditedSdoData) : Prog E ExpeditedSdoData := do
  let source ← o.target
  let m ← get
  pure (copyInto data (fun i => m.mem (source + i)) o.size)

/-- `memcpy(target, &data, size)`. -/
def store (o : ODObject E) (data : ExpeditedSdoData) : Prog E Unit := do
  let dest ← o.target
  modify fun m => { m with mem := overwrite m.mem dest o.size (byte data) }

/-- Read an object, directly or through its function. -/
def read (o : ODObject E) (data : ExpeditedSdoData) : Prog E (SdoAbortCode × ExpeditedSdoData) :=
  if o.hasDirectAccess then do
    let data ← o.load data
    pure (.noError, data)
  else o.readFunc.callRead data

/-- Write an object, directly or through its function. -/
def write (o : ODObject E) (data : ExpeditedSdoData) : Prog E SdoAbortCode :=
  if o.hasDirectAccess then do
    o.store data
    pure .noError
  else o.writeFunc.callWrite data

end ODObject

/-- `SdoService::restore_default_parameter_key`. -/
def restoreDefaultParameterKey (w : Nat) : ODObjectKey w := ⟨0x1011, 0x04⟩

/-- What the request handlers of the two ports do not share. -/
structure Port (w : Nat) (E : Type) where
  dictionary : ObjectDictionary w E
  /-- The dictionary lookup. -/
  find : ODObjectKey w → Option (ODEntry w E)
  /-- The cast of a request's subindex to the key's type. -/
  subindexOf : BitVec 8 → BitVec w
  /-- `memcpy(&arg_key, &rsdo.data.u32, sizeof(arg_key))`. -/
  argKey : ExpeditedSdoData → ODObjectKey w
  /-- The abort frame for an index, a subindex and a code. -/
  abortSdo : BitVec 16 → BitVec 8 → SdoAbortCode → AbortSdo
  find_eq_some : ∀ key a, find key = some a ↔ a ∈ dictionary.entries ∧ a.key = key

namespace Port

variable (port : Port w E)

/-- `read_expedited(od_entry, tsdo, rsdo)`: the abort code and the response. -/
def readExpedited (odEntry : ODEntry w E) (tsdo rsdo : ExpeditedSdo) :
    Prog E (SdoAbortCode × ExpeditedSdo) :=
  if odEntry.object.hasReadPermission = false then pure (.readAccessWo, tsdo)
  else do
    let (abortCode, data) ← odEntry.object.read tsdo.data
    if abortCode = .noError then
      pure (abortCode, { tsdo with
        data := data
        index := rsdo.index
        subindex := rsdo.subindex
        cs := SdoCsCodes.serverInitRead
        expeditedTransfer := 1
        dataSizeIndicated := 1
        dataEmptyBytes := BitVec.ofNat 2 (4 - odEntry.object.size) })
    else pure (abortCode, { tsdo with data := data })

/-- `restore_default_parameter(key)`. -/
def restoreDefaultParameter (key : ODObjectKey w) : Prog E SdoAbortCode :=
  match port.find key with
  | none => pure .objectNotFound
  | some odEntry =>
      match odEntry.object.defaultValue with
      | none => pure .dataStoreError
      | some defaultValue =>
          if odEntry.object.hasWritePermission = false then pure .writeAccessRo
          else odEntry.object.write defaultValue

/-- The write itself, and the restore it turns into at `0x1011:04`. -/
def writeOrRestore (odEntry : ODEntry w E) (data : ExpeditedSdoData) : Prog E SdoAbortCode := do
  let abortCode ← odEntry.object.write data
  if abortCode = .dataStoreError ∧ odEntry.key = restoreDefaultParameterKey w then
    port.restoreDefaultParameter (port.argKey data)
  else pure abortCode

/-- `write_expedited(od_entry, tsdo, rsdo)`: the abort code and the response. -/
def writeExpedited (odEntry : ODEntry w E) (tsdo rsdo : ExpeditedSdo) :
    Prog E (SdoAbortCode × ExpeditedSdo) :=
  if odEntry.object.hasWritePermission = false then pure (.writeAccessRo, tsdo)
  else do
    let abortCode ← port.writeOrRestore odEntry rsdo.data
    if abortCode = .noError then
      pure (abortCode, { tsdo with
        index := rsdo.index
        subindex := rsdo.subindex
        cs := SdoCsCodes.serverInitWrite })
    else pure (abortCode, tsdo)

/-- The key a request names in its header. -/
def requestKey (rsdo : ExpeditedSdo) : ODObjectKey w := ⟨rsdo.index, port.subindexOf rsdo.subindex⟩

/-- Look the object up and execute the command on it. -/
def dispatch (rsdo : ExpeditedSdo) : Prog E (SdoAbortCode × ExpeditedSdo) :=
  match port.find (port.requestKey rsdo) with
  | none => pure (.objectNotFound, {})
  | some odEntry =>
      if rsdo.cs = SdoCsCodes.clientInitRead then readExpedited odEntry {} rsdo
      else if rsdo.cs = SdoCsCodes.clientInitWrite then port.writeExpedited odEntry {} rsdo
      else pure (.invalidCs, {})

/-- The payload for an abort code and a response. -/
def encode (rsdo : ExpeditedSdo) : SdoAbortCode × ExpeditedSdo → CanPayload
  | (.noError, tsdo) => tsdo.toPayload
  | (abortCode, _) => (port.abortSdo rsdo.index rsdo.subindex abortCode).toPayload

/-- One request payload: its response payload, or none for an abort frame. -/
def handleRequest (rsdoPayload : CanPayload) : Prog E (Option CanPayload) :=
  let rsdo := ExpeditedSdo.fromPayload rsdoPayload
  if rsdo.cs = SdoCsCodes.abort then pure none
  else do
    let outcome ← port.dispatch rsdo
    pure (some (port.encode rsdo outcome))

end Port

/-! ## The two ports -/

namespace F4

/-- `ODObjectKey` has 16 + 8 bits and a byte of padding, which the copy fills. -/
def argKey (data : ExpeditedSdoData) : ODObjectKey 8 :=
  ⟨data.extractLsb' 0 16, data.extractLsb' 16 8⟩

def port (d : ObjectDictionary 8 E) : Port 8 E where
  dictionary := d
  find := findOdEntry d
  subindexOf := id
  argKey := argKey
  abortSdo := AbortSdo.of
  find_eq_some := findOdEntry_eq_some d

end F4

namespace H7

/-- `ODObjectKey` has 16 + 16 bits: all four data bytes reach the key. -/
def argKey (data : ExpeditedSdoData) : ODObjectKey 16 :=
  ⟨data.extractLsb' 0 16, data.extractLsb' 16 16⟩

/-- `AbortSdo abort_tsdo;`, zeroed but for the command specifier, then filled
    field by field. -/
def abortSdo (index : BitVec 16) (subindex : BitVec 8) (code : SdoAbortCode) : AbortSdo :=
  let zeroed : AbortSdo := ⟨0, SdoCsCodes.abort, 0, 0, 0⟩
  { zeroed with index := index, subindex := subindex, errorCode := code.toUnderlying }

/-- The lookup goes through `emb::binary_find`, which is not part of the
    repository and therefore a parameter. -/
def port (binaryFind : List (ODEntry 16 E) → ODObjectKey 16 → Option (ODEntry 16 E))
    (spec : BinaryFindSpec binaryFind) (d : ObjectDictionary 16 E) : Port 16 E where
  dictionary := d
  find := binaryFind d.entries
  subindexOf := fun subindex => subindex.setWidth 16
  argKey := argKey
  abortSdo := abortSdo
  find_eq_some := spec d.entries d.sorted

end H7

end Ucanopen
