import Ucanopen.Lib.BitFields

/-! # CANopen frames, identifiers and SDO messages

The definitions both ports share. A payload is eight bytes, byte 0 lowest, and a
message is laid out in it as the ARM ABI does: little-endian, bit fields from
the least significant bit up. `toPayload` and `fromPayload` are therefore
concatenation and extraction of bit vectors.
-/

namespace Ucanopen

open BitFields

/-- `canpayload_t`: eight bytes. -/
abbrev CanPayload := BitVec 64

/-- `canid_t`. -/
abbrev CanId := BitVec 32

/-- `can_frame`. -/
structure CanFrame where
  id : CanId
  len : BitVec 8
  payload : CanPayload
  deriving Repr, DecidableEq

/-- `NodeId`: any 32-bit value; `valid` is a test that nothing forces. -/
structure NodeId where
  id : BitVec 32
  deriving Repr, DecidableEq

def NodeId.valid (node : NodeId) : Bool := decide (1 ≤ node.id.toNat) && decide (node.id.toNat ≤ 127)

inductive NmtState where
  | initializing
  | stopped
  | operational
  | preOperational
  deriving Repr, DecidableEq

def NmtState.toUnderlying : NmtState → BitVec 8
  | .initializing => 0x00
  | .stopped => 0x04
  | .operational => 0x05
  | .preOperational => 0x7F

/-- Communication objects, in the order of the tables below. -/
inductive Cob where
  | nmt | sync | emcy | time
  | tpdo1 | rpdo1 | tpdo2 | rpdo2 | tpdo3 | rpdo3 | tpdo4 | rpdo4
  | tsdo | rsdo | heartbeat
  deriving Repr, DecidableEq

def cobFunctionCodes : Cob → CanId
  | .nmt => 0x000
  | .sync => 0x080
  | .emcy => 0x080
  | .time => 0x100
  | .tpdo1 => 0x180
  | .rpdo1 => 0x200
  | .tpdo2 => 0x280
  | .rpdo2 => 0x300
  | .tpdo3 => 0x380
  | .rpdo3 => 0x400
  | .tpdo4 => 0x480
  | .rpdo4 => 0x500
  | .tsdo => 0x580
  | .rsdo => 0x600
  | .heartbeat => 0x700

/-- Broadcast objects have a fixed identifier; the others add the node's. -/
def calculateCobId (cob : Cob) (node : NodeId) : CanId :=
  if cob = .nmt ∨ cob = .sync ∨ cob = .time then cobFunctionCodes cob
  else cobFunctionCodes cob + node.id

def cobSizes : Cob → BitVec 8
  | .nmt => 2
  | .sync => 0
  | .emcy => 2
  | .time => 6
  | .heartbeat => 1
  | _ => 8

/-! ## Command specifiers and abort codes -/

namespace SdoCsCodes

def clientInitWrite : BitVec 3 := 1
def serverInitWrite : BitVec 3 := 3
def clientInitRead : BitVec 3 := 2
def serverInitRead : BitVec 3 := 2
def abort : BitVec 3 := 4

theorem read_ne_abort : clientInitRead ≠ abort := by decide

theorem write_ne_abort : clientInitWrite ≠ abort := by decide

theorem write_ne_read : clientInitWrite ≠ clientInitRead := by decide

theorem read_ne_confirmation : serverInitRead ≠ serverInitWrite := by decide

theorem confirmation_ne_abort : serverInitWrite ≠ abort := by decide

end SdoCsCodes

inductive SdoAbortCode where
  | noError
  | invalidCs
  | unsupportedAccess
  | readAccessWo
  | writeAccessRo
  | objectNotFound
  | hardwareError
  | valueRangeExceeded
  | valueTooHigh
  | valueTooLow
  | generalError
  | dataStoreError
  | localControlError
  | stateError
  deriving Repr, DecidableEq

/-- `std::to_underlying(abort_code)`. -/
def SdoAbortCode.toUnderlying : SdoAbortCode → BitVec 32
  | .noError => 0
  | .invalidCs => 0x05040001
  | .unsupportedAccess => 0x06010000
  | .readAccessWo => 0x06010001
  | .writeAccessRo => 0x06010002
  | .objectNotFound => 0x06020000
  | .hardwareError => 0x06060000
  | .valueRangeExceeded => 0x06090030
  | .valueTooHigh => 0x06090031
  | .valueTooLow => 0x06090032
  | .generalError => 0x08000000
  | .dataStoreError => 0x08000020
  | .localControlError => 0x08000021
  | .stateError => 0x08000022

theorem SdoAbortCode.toUnderlying_injective : Function.Injective SdoAbortCode.toUnderlying := by
  intro a b same
  cases a <;> cases b <;> first | rfl | exact absurd same (by decide)

/-! ## Messages -/

/-- `union ExpeditedSdoData`, by its `u32` member: four bytes. -/
abbrev ExpeditedSdoData := BitVec 32

/-- `struct ExpeditedSdo`. Every field is zero after its constructor ran. -/
structure ExpeditedSdo where
  dataSizeIndicated : BitVec 1 := 0
  expeditedTransfer : BitVec 1 := 0
  dataEmptyBytes : BitVec 2 := 0
  reserved : BitVec 1 := 0
  cs : BitVec 3 := 0
  index : BitVec 16 := 0
  subindex : BitVec 8 := 0
  data : ExpeditedSdoData := 0
  deriving Repr, DecidableEq

def ExpeditedSdo.toPayload (m : ExpeditedSdo) : CanPayload :=
  m.data ++ m.subindex ++ m.index ++ m.cs ++ m.reserved ++ m.dataEmptyBytes ++
    m.expeditedTransfer ++ m.dataSizeIndicated

def ExpeditedSdo.fromPayload (p : CanPayload) : ExpeditedSdo where
  dataSizeIndicated := p.extractLsb' 0 1
  expeditedTransfer := p.extractLsb' 1 1
  dataEmptyBytes := p.extractLsb' 2 2
  reserved := p.extractLsb' 4 1
  cs := p.extractLsb' 5 3
  index := p.extractLsb' 8 16
  subindex := p.extractLsb' 24 8
  data := p.extractLsb' 32 32

/-- The fields in the order of the struct. -/
def ExpeditedSdo.layout : ExpeditedSdo ≃ Fields [1, 1, 2, 1, 3, 16, 8, 32] where
  toFun m := (m.dataSizeIndicated, m.expeditedTransfer, m.dataEmptyBytes, m.reserved, m.cs,
    m.index, m.subindex, m.data, ())
  invFun := fun (dataSizeIndicated, expeditedTransfer, dataEmptyBytes, reserved, cs, index,
    subindex, data, ()) =>
    { dataSizeIndicated, expeditedTransfer, dataEmptyBytes, reserved, cs, index, subindex, data }
  left_inv _ := rfl
  right_inv _ := rfl

theorem ExpeditedSdo.toPayload_eq (m : ExpeditedSdo) : m.toPayload = encode layout m := by
  change _ = pack [32] (m.data, ()) ++ m.subindex ++ m.index ++ m.cs ++ m.reserved ++
    m.dataEmptyBytes ++ m.expeditedTransfer ++ m.dataSizeIndicated
  rw [pack_last]
  rfl

theorem ExpeditedSdo.fromPayload_eq (p : CanPayload) : fromPayload p = decode layout p := rfl

@[simp] theorem ExpeditedSdo.fromPayload_toPayload (m : ExpeditedSdo) :
    fromPayload m.toPayload = m := by
  rw [toPayload_eq, fromPayload_eq, decode_encode]

@[simp] theorem ExpeditedSdo.toPayload_fromPayload (p : CanPayload) :
    (fromPayload p).toPayload = p := by
  rw [toPayload_eq, fromPayload_eq, encode_decode]

theorem ExpeditedSdo.toPayload_injective : Function.Injective toPayload :=
  Function.LeftInverse.injective fromPayload_toPayload

/-- `struct AbortSdo`. -/
structure AbortSdo where
  reserved : BitVec 5
  cs : BitVec 3
  index : BitVec 16
  subindex : BitVec 8
  errorCode : BitVec 32
  deriving Repr, DecidableEq

def AbortSdo.toPayload (m : AbortSdo) : CanPayload :=
  m.errorCode ++ m.subindex ++ m.index ++ m.cs ++ m.reserved

def AbortSdo.fromPayload (p : CanPayload) : AbortSdo where
  reserved := p.extractLsb' 0 5
  cs := p.extractLsb' 5 3
  index := p.extractLsb' 8 16
  subindex := p.extractLsb' 24 8
  errorCode := p.extractLsb' 32 32

def AbortSdo.layout : AbortSdo ≃ Fields [5, 3, 16, 8, 32] where
  toFun m := (m.reserved, m.cs, m.index, m.subindex, m.errorCode, ())
  invFun := fun (reserved, cs, index, subindex, errorCode, ()) =>
    { reserved, cs, index, subindex, errorCode }
  left_inv _ := rfl
  right_inv _ := rfl

theorem AbortSdo.toPayload_eq (m : AbortSdo) : m.toPayload = encode layout m := by
  change _ = pack [32] (m.errorCode, ()) ++ m.subindex ++ m.index ++ m.cs ++ m.reserved
  rw [pack_last]
  rfl

theorem AbortSdo.fromPayload_eq (p : CanPayload) : fromPayload p = decode layout p := rfl

@[simp] theorem AbortSdo.fromPayload_toPayload (m : AbortSdo) : fromPayload m.toPayload = m := by
  rw [toPayload_eq, fromPayload_eq, decode_encode]

@[simp] theorem AbortSdo.toPayload_fromPayload (p : CanPayload) : (fromPayload p).toPayload = p := by
  rw [toPayload_eq, fromPayload_eq, encode_decode]

theorem AbortSdo.toPayload_injective : Function.Injective toPayload :=
  Function.LeftInverse.injective fromPayload_toPayload

/-- The constructor the F4 port builds abort frames with. -/
def AbortSdo.of (index : BitVec 16) (subindex : BitVec 8) (code : SdoAbortCode) : AbortSdo where
  reserved := 0
  cs := SdoCsCodes.abort
  index := index
  subindex := subindex
  errorCode := code.toUnderlying

/-- The command specifier is in the same place in both layouts. -/
theorem AbortSdo.cs_of_fromPayload (m : AbortSdo) :
    (ExpeditedSdo.fromPayload m.toPayload).cs = m.cs := by
  have same : (fromPayload m.toPayload).cs = m.cs := by rw [fromPayload_toPayload]
  exact same

/-- And so are the index and the subindex. -/
theorem AbortSdo.key_of_fromPayload (m : AbortSdo) :
    (ExpeditedSdo.fromPayload m.toPayload).index = m.index ∧
      (ExpeditedSdo.fromPayload m.toPayload).subindex = m.subindex := by
  have index : (fromPayload m.toPayload).index = m.index := by rw [fromPayload_toPayload]
  have subindex : (fromPayload m.toPayload).subindex = m.subindex := by rw [fromPayload_toPayload]
  exact ⟨index, subindex⟩

end Ucanopen
