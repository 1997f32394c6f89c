import Mathlib.Logic.Equiv.Defs
import Ucanopen.Lib.Bytes

/-! # Bit fields

A struct of bit fields is a list of widths, the field at the least significant
bit first. Its fields fill a word without gaps: each starts where the one before
it ends.
-/

namespace Ucanopen.BitFields

open Bytes

/-- The values of the fields of a struct with these widths. -/
@[reducible] def Fields : List Nat → Type
  | [] => Unit
  | w :: ws => BitVec w × Fields ws

@[reducible] def size : List Nat → Nat
  | [] => 0
  | w :: ws => size ws + w

def pack : (ws : List Nat) → Fields ws → BitVec (size ws)
  | [], _ => 0#0
  | _ :: ws, (x, xs) => pack ws xs ++ x

/-- The fields of a word from bit `start` on. -/
def unpack {n : Nat} : (ws : List Nat) → (start : Nat) → BitVec n → Fields ws
  | [], _, _ => ()
  | w :: ws, start, p => (p.extractLsb' start w, unpack ws (start + w) p)

/-- Fields past the low part of a word lie in its high part. -/
theorem unpack_append {n w : Nat} (hi : BitVec n) (lo : BitVec w) (ws : List Nat) {start : Nat}
    (past : w ≤ start) : unpack ws start (hi ++ lo) = unpack ws (start - w) hi := by
  induction ws generalizing start with
  | nil => rfl
  | cons w' ws ih =>
      have next : start + w' - w = start - w + w' := by omega
      unfold unpack
      rw [extract_above hi lo past, ih (by omega), next]

theorem unpack_pack (ws : List Nat) (fields : Fields ws) : unpack ws 0 (pack ws fields) = fields := by
  induction ws with
  | nil => rfl
  | cons w ws ih =>
      obtain ⟨x, xs⟩ := fields
      unfold unpack pack
      rw [extract_here, unpack_append _ _ _ (by omega), Nat.zero_add, Nat.sub_self, ih]

theorem pack_unpack_from {n : Nat} (ws : List Nat) (start : Nat) (p : BitVec n) :
    pack ws (unpack ws start p) = p.extractLsb' start (size ws) := by
  induction ws generalizing start with
  | nil => exact BitVec.eq_of_zero_length rfl
  | cons w ws ih =>
      unfold unpack pack
      rw [ih]
      exact BitVec.extractLsb'_append_extractLsb'_eq_extractLsb' rfl

theorem pack_unpack (ws : List Nat) (p : BitVec (size ws)) : pack ws (unpack ws 0 p) = p :=
  (pack_unpack_from ws 0 p).trans BitVec.extractLsb'_eq_self

/-- The field at the most significant bits has nothing above it. -/
theorem pack_last {w : Nat} (x : BitVec w) :
    pack [w] (x, ()) = x.cast (Nat.zero_add w).symm := by
  unfold pack pack
  exact BitVec.zero_width_append _ _

/-! ## Structs -/

variable {T : Type} {ws : List Nat}

def encode (layout : T ≃ Fields ws) (m : T) : BitVec (size ws) := pack ws (layout m)

def decode (layout : T ≃ Fields ws) (p : BitVec (size ws)) : T := layout.symm (unpack ws 0 p)

@[simp] theorem decode_encode (layout : T ≃ Fields ws) (m : T) :
    decode layout (encode layout m) = m := by
  unfold decode encode
  rw [unpack_pack, Equiv.symm_apply_apply]

@[simp] theorem encode_decode (layout : T ≃ Fields ws) (p : BitVec (size ws)) :
    encode layout (decode layout p) = p := by
  unfold decode encode
  rw [Equiv.apply_symm_apply, pack_unpack]

/-- Two functions that copy a message into a word and back, and lose nothing. -/
structure Codec {M P : Type} (encode : M → P) (decode : P → M) : Prop where
  decodes : ∀ m, decode (encode m) = m
  encodes : ∀ p, encode (decode p) = p

theorem codec_of_layout (layout : T ≃ Fields ws) : Codec (encode layout) (decode layout) where
  decodes := decode_encode layout
  encodes := encode_decode layout

end Ucanopen.BitFields
