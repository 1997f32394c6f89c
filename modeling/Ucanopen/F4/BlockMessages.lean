import Ucanopen.Def

/-! # Messages of the block transfer

Each message is a struct of bit fields and whole bytes that fills a payload, and
`to_payload` and `from_payload` copy it. The first byte of each but a segment ends
with a command specifier, which `get_cs_code` reads without knowing the message.
-/

namespace Ucanopen.F4

open Bytes BitFields

namespace BlkWrite

structure ClientRequestSdo where
  clientSubcommand : BitVec 1
  sizeIndicator : BitVec 1
  crcSupport : BitVec 1
  reserved : BitVec 2
  ccs : BitVec 3
  index : BitVec 16
  subindex : BitVec 8
  dataBlockSize : BitVec 32
  deriving Repr, DecidableEq

namespace ClientRequestSdo

def layout : ClientRequestSdo ≃ Fields [1, 1, 1, 2, 3, 16, 8, 32] where
  toFun m := (m.clientSubcommand, m.sizeIndicator, m.crcSupport, m.reserved, m.ccs, m.index,
    m.subindex, m.dataBlockSize, ())
  invFun := fun (clientSubcommand, sizeIndicator, crcSupport, reserved, ccs, index, subindex,
    dataBlockSize, ()) =>
    { clientSubcommand, sizeIndicator, crcSupport, reserved, ccs, index, subindex, dataBlockSize }
  left_inv _ := rfl
  right_inv _ := rfl

def toPayload : ClientRequestSdo → CanPayload := encode layout

def fromPayload : CanPayload → ClientRequestSdo := decode layout

end ClientRequestSdo

structure ServerResponseSdo where
  serverSubcommand : BitVec 2
  crcSupport : BitVec 1
  reserved1 : BitVec 2
  scs : BitVec 3
  index : BitVec 16
  subindex : BitVec 8
  blockSize : BitVec 8
  reserved2 : BitVec 24
  deriving Repr, DecidableEq

namespace ServerResponseSdo

def layout : ServerResponseSdo ≃ Fields [2, 1, 2, 3, 16, 8, 8, 24] where
  toFun m := (m.serverSubcommand, m.crcSupport, m.reserved1, m.scs, m.index, m.subindex,
    m.blockSize, m.reserved2, ())
  invFun := fun (serverSubcommand, crcSupport, reserved1, scs, index, subindex, blockSize,
    reserved2, ()) =>
    { serverSubcommand, crcSupport, reserved1, scs, index, subindex, blockSize, reserved2 }
  left_inv _ := rfl
  right_inv _ := rfl

def toPayload : ServerResponseSdo → CanPayload := encode layout

def fromPayload : CanPayload → ServerResponseSdo := decode layout

end ServerResponseSdo

/-- Its first byte has a counter in place of a command specifier. `data` is seven bytes. -/
structure ClientSegmentSdo where
  sequenceCounter : BitVec 7
  lastSegment : BitVec 1
  data : BitVec 56
  deriving Repr, DecidableEq

namespace ClientSegmentSdo

def layout : ClientSegmentSdo ≃ Fields [7, 1, 56] where
  toFun m := (m.sequenceCounter, m.lastSegment, m.data, ())
  invFun := fun (sequenceCounter, lastSegment, data, ()) =>
    { sequenceCounter, lastSegment, data }
  left_inv _ := rfl
  right_inv _ := rfl

def toPayload : ClientSegmentSdo → CanPayload := encode layout

def fromPayload : CanPayload → ClientSegmentSdo := decode layout

end ClientSegmentSdo

structure ServerSegmentResponseSdo where
  serverSubcommand : BitVec 2
  reserved1 : BitVec 3
  scs : BitVec 3
  segmentsAcknowledged : BitVec 8
  nextBlockSize : BitVec 8
  reserved2 : BitVec 8
  reserved3 : BitVec 32
  deriving Repr, DecidableEq

namespace ServerSegmentResponseSdo

def layout : ServerSegmentResponseSdo ≃ Fields [2, 3, 3, 8, 8, 8, 32] where
  toFun m := (m.serverSubcommand, m.reserved1, m.scs, m.segmentsAcknowledged, m.nextBlockSize,
    m.reserved2, m.reserved3, ())
  invFun := fun (serverSubcommand, reserved1, scs, segmentsAcknowledged, nextBlockSize, reserved2,
    reserved3, ()) =>
    { serverSubcommand, reserved1, scs, segmentsAcknowledged, nextBlockSize, reserved2, reserved3 }
  left_inv _ := rfl
  right_inv _ := rfl

def toPayload : ServerSegmentResponseSdo → CanPayload := encode layout

def fromPayload : CanPayload → ServerSegmentResponseSdo := decode layout

end ServerSegmentResponseSdo

structure ClientEndSdo where
  clientSubcommand : BitVec 1
  reserved1 : BitVec 1
  n : BitVec 3
  ccs : BitVec 3
  crc : BitVec 16
  reserved2 : BitVec 8
  reserved3 : BitVec 32
  deriving Repr, DecidableEq

namespace ClientEndSdo

def layout : ClientEndSdo ≃ Fields [1, 1, 3, 3, 16, 8, 32] where
  toFun m := (m.clientSubcommand, m.reserved1, m.n, m.ccs, m.crc, m.reserved2, m.reserved3, ())
  invFun := fun (clientSubcommand, reserved1, n, ccs, crc, reserved2, reserved3, ()) =>
    { clientSubcommand, reserved1, n, ccs, crc, reserved2, reserved3 }
  left_inv _ := rfl
  right_inv _ := rfl

def toPayload : ClientEndSdo → CanPayload := encode layout

def fromPayload : CanPayload → ClientEndSdo := decode layout

end ClientEndSdo

/-- `reserved2` is seven bytes. -/
structure ServerEndResponseSdo where
  serverSubcommand : BitVec 2
  reserved1 : BitVec 3
  scs : BitVec 3
  reserved2 : BitVec 56
  deriving Repr, DecidableEq

namespace ServerEndResponseSdo

def layout : ServerEndResponseSdo ≃ Fields [2, 3, 3, 56] where
  toFun m := (m.serverSubcommand, m.reserved1, m.scs, m.reserved2, ())
  invFun := fun (serverSubcommand, reserved1, scs, reserved2, ()) =>
    { serverSubcommand, reserved1, scs, reserved2 }
  left_inv _ := rfl
  right_inv _ := rfl

def toPayload : ServerEndResponseSdo → CanPayload := encode layout

def fromPayload : CanPayload → ServerEndResponseSdo := decode layout

end ServerEndResponseSdo

end BlkWrite

/-! ## The command specifier -/

def getCsCode (frame : CanFrame) : BitVec 32 :=
  ((byte frame.payload 0).setWidth 32 >>> 5) &&& 0x07

theorem getCsCode_eq (frame : CanFrame) :
    getCsCode frame = (frame.payload.extractLsb' 5 3).setWidth 32 := by
  apply BitVec.eq_of_toNat_eq
  unfold getCsCode byte
  rw [BitVec.toNat_and, BitVec.toNat_ushiftRight, BitVec.toNat_setWidth, BitVec.toNat_setWidth,
    BitVec.extractLsb'_toNat, BitVec.extractLsb'_toNat]
  have masked := Nat.and_two_pow_sub_one_eq_mod
    ((frame.payload.toNat >>> (8 * 0) % 2 ^ 8 % 2 ^ 32) >>> 5) 3
  apply masked.trans
  simp only [Nat.shiftRight_eq_div_pow]
  omega

open BlkWrite

/-- The types lay out their payload without gaps, and `getCsCode` finds the field
    of every one that has it. -/
theorem message_codecs :
    (Codec ExpeditedSdo.toPayload ExpeditedSdo.fromPayload ∧
      Codec AbortSdo.toPayload AbortSdo.fromPayload ∧
      Codec ClientRequestSdo.toPayload ClientRequestSdo.fromPayload ∧
      Codec ServerResponseSdo.toPayload ServerResponseSdo.fromPayload ∧
      Codec ClientSegmentSdo.toPayload ClientSegmentSdo.fromPayload ∧
      Codec ServerSegmentResponseSdo.toPayload ServerSegmentResponseSdo.fromPayload ∧
      Codec ClientEndSdo.toPayload ClientEndSdo.fromPayload ∧
      Codec ServerEndResponseSdo.toPayload ServerEndResponseSdo.fromPayload) ∧
    ∀ frame : CanFrame,
      getCsCode frame = (ExpeditedSdo.fromPayload frame.payload).cs.setWidth 32 ∧
      getCsCode frame = (AbortSdo.fromPayload frame.payload).cs.setWidth 32 ∧
      getCsCode frame = (ClientRequestSdo.fromPayload frame.payload).ccs.setWidth 32 ∧
      getCsCode frame = (ServerResponseSdo.fromPayload frame.payload).scs.setWidth 32 ∧
      getCsCode frame = (ServerSegmentResponseSdo.fromPayload frame.payload).scs.setWidth 32 ∧
      getCsCode frame = (ClientEndSdo.fromPayload frame.payload).ccs.setWidth 32 ∧
      getCsCode frame = (ServerEndResponseSdo.fromPayload frame.payload).scs.setWidth 32 := by
  apply And.intro
  · have expedited : Codec ExpeditedSdo.toPayload ExpeditedSdo.fromPayload :=
      ⟨ExpeditedSdo.fromPayload_toPayload, ExpeditedSdo.toPayload_fromPayload⟩
    have abort : Codec AbortSdo.toPayload AbortSdo.fromPayload :=
      ⟨AbortSdo.fromPayload_toPayload, AbortSdo.toPayload_fromPayload⟩
    exact ⟨expedited, abort, codec_of_layout _, codec_of_layout _, codec_of_layout _,
      codec_of_layout _, codec_of_layout _, codec_of_layout _⟩
  · intro frame
    -- Every layout has three bits at bit 5 for the specifier.
    have code := getCsCode_eq frame
    exact ⟨code, code, code, code, code, code, code⟩

end Ucanopen.F4
