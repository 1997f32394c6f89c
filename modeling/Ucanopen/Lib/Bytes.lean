import Mathlib.Data.Set.Function
import Mathlib.Data.Set.Lattice
import Mathlib.Order.CompletePartialOrder
import Mathlib.Order.Interval.Set.Basic

/-! # Bytes of machine words and byte-addressed memory

Words are bit vectors whose byte 0 is the least significant one, as a
little-endian machine lays them out. A memory assigns a byte to every address;
`overwrite` is `memcpy` into memory and `copyInto` is `memcpy` of the first bytes
of a word.
-/

namespace Ucanopen.Bytes

/-- A field that starts past the low part of a concatenation lies in the high
    part. Repeated, this walks to any field of a bit-field layout. -/
theorem extract_above {v w start len : Nat} (hi : BitVec v) (lo : BitVec w) (past : w ≤ start) :
    (hi ++ lo).extractLsb' start len = hi.extractLsb' (start - w) len :=
  BitVec.extractLsb'_append_eq_of_le past

theorem extract_here {v w : Nat} (hi : BitVec v) (lo : BitVec w) :
    (hi ++ lo).extractLsb' 0 w = lo := BitVec.extractLsb'_append_eq_right

abbrev Byte := BitVec 8

/-- Byte `i` of a word, in address order. -/
def byte {w : Nat} (x : BitVec w) (i : Nat) : Byte := x.extractLsb' (8 * i) 8

/-- The 32-bit word stored in four consecutive bytes. -/
def word (f : Nat → Byte) : BitVec 32 := f 3 ++ f 2 ++ f 1 ++ f 0

theorem byte_word (f : Nat → Byte) {i : Nat} (inside : i < 4) : byte (word f) i = f i := by
  have position : i = 0 ∨ i = 1 ∨ i = 2 ∨ i = 3 := by omega
  unfold byte word
  rcases position with rfl | rfl | rfl | rfl
  all_goals
    repeat rw [extract_above _ _ (by omega)]
    first | exact extract_here _ _ | exact BitVec.extractLsb'_eq_self

theorem word_byte (x : BitVec 32) : word (byte x) = x := by
  apply BitVec.eq_of_getLsbD_eq
  intro i inside
  simp only [word, byte, BitVec.getLsbD_append, BitVec.getLsbD_extractLsb']
  grind

theorem word_congr {f g : Nat → Byte} (same : ∀ i < 4, f i = g i) : word f = word g := by
  simp only [word, same 0 (by omega), same 1 (by omega), same 2 (by omega), same 3 (by omega)]

/-- `memcpy(&dst, src, size)` for a 32-bit destination: the first `size` bytes
    come from the source, the others stay. -/
def copyInto (dst : BitVec 32) (src : Nat → Byte) (size : Nat) : BitVec 32 :=
  word fun i => if i < size then src i else byte dst i

theorem byte_copyInto (dst : BitVec 32) (src : Nat → Byte) {size i : Nat} (inside : i < 4) :
    byte (copyInto dst src size) i = if i < size then src i else byte dst i :=
  byte_word _ inside

theorem copyInto_congr (dst : BitVec 32) {src src' : Nat → Byte} {size : Nat}
    (same : ∀ i < size, src i = src' i) : copyInto dst src size = copyInto dst src' size := by
  apply word_congr
  intro i _
  split
  · exact same i ‹_›
  · rfl

/-- A memory assigns a byte to every address. -/
abbrev Memory := Nat → Byte

/-- The addresses of an object of `size` bytes at `a`. -/
abbrev range (a size : Nat) : Set Nat := Set.Ico a (a + size)

/-- `memcpy(a, src, size)`. -/
def overwrite (m : Memory) (a size : Nat) (src : Nat → Byte) : Memory := fun x =>
  if a ≤ x ∧ x < a + size then src (x - a) else m x

theorem overwrite_inside (m : Memory) (a : Nat) (src : Nat → Byte) {size i : Nat}
    (inside : i < size) : overwrite m a size src (a + i) = src i := by
  simp [overwrite, inside]

theorem overwrite_outside (m : Memory) (src : Nat → Byte) {a size x : Nat}
    (outside : x ∉ range a size) : overwrite m a size src x = m x :=
  if_neg outside

/-- The 32-bit pointer stored at an address. -/
def loadPointer (m : Memory) (a : Nat) : Nat := (word fun i => m (a + i)).toNat

theorem loadPointer_congr {m m' : Memory} {a : Nat} (same : ∀ x ∈ range a 4, m x = m' x) :
    loadPointer m a = loadPointer m' a := by
  have words : word (fun i => m (a + i)) = word fun i => m' (a + i) :=
    word_congr fun i inside => same (a + i) ⟨by omega, by omega⟩
  rw [loadPointer, loadPointer, words]

/-- A stored pointer is loaded again. -/
theorem loadPointer_overwrite (m : Memory) (a : Nat) (pointer : BitVec 32) :
    loadPointer (overwrite m a 4 (byte pointer)) a = pointer.toNat := by
  have bytes : word (fun i => overwrite m a 4 (byte pointer) (a + i)) = word (byte pointer) :=
    word_congr fun i inside => overwrite_inside m a (byte pointer) inside
  rw [loadPointer, bytes, word_byte]

/-- A store elsewhere leaves a pointer alone. -/
theorem loadPointer_apart (m : Memory) {a b size : Nat} (apart : Disjoint (range a size) (range b 4))
    (src : Nat → Byte) : loadPointer (overwrite m a size src) b = loadPointer m b :=
  loadPointer_congr fun _ inside =>
    overwrite_outside m src (Set.disjoint_right.mp apart inside)

/-- Two memories hold the same bytes outside a set of addresses. -/
def AgreeOutside (secret : Set Nat) (m m' : Memory) : Prop := ∀ x ∉ secret, m x = m' x

theorem AgreeOutside.overwrite {secret : Set Nat} {m m' : Memory}
    (agree : AgreeOutside secret m m') (a size : Nat) (src : Nat → Byte) :
    AgreeOutside secret (overwrite m a size src) (overwrite m' a size src) := by
  intro x outside
  simp only [Bytes.overwrite]
  split
  · rfl
  · exact agree x outside

end Ucanopen.Bytes
