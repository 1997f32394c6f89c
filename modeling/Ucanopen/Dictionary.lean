import Ucanopen.Def
import Ucanopen.Lib.Exec
import Ucanopen.Lib.SortedSearch
import Mathlib.Data.List.Nodup
import Mathlib.Data.Prod.Lex

/-! # The object dictionary

Entries, the start-up checks and the lookup. The key type is the one place
where the ports' dictionaries differ: the subindex has 8 bits on F4 and 16 on
H7, so everything here is over its width `w`. An `ObjectDictionary` is what the
start-up checks let pass, and carries the proof that they did.
-/

namespace Ucanopen

open Bytes SortedSearch

/-- What a running node can read and change: the byte-addressed memory, and
    whatever else (peripherals, private state) the application's functions use. -/
structure Machine (E : Type) where
  mem : Memory
  env : E

/-- Undefined behaviour reached through a null pointer. Control never returns. -/
inductive Fault where
  | nullReadFunc
  | nullWriteFunc
  | nullPointer
  deriving Repr, DecidableEq

/-- Code that runs on a machine and may reach undefined behaviour. -/
abbrev Prog (E : Type) := EStateM Fault (Machine E)

inductive ODObjectDataType where
  | odBool | odInt8 | odInt16 | odInt32 | odUint8 | odUint16 | odUint32 | odFloat32
  | odExec | odString
  deriving Repr, DecidableEq

inductive ODObjectAccessPermission where
  | odAccessRw | odAccessRo | odAccessWo | odAccessConst
  deriving Repr, DecidableEq

def odObjectTypeSizes : ODObjectDataType → Nat
  | .odBool => 1
  | .odInt8 => 1
  | .odInt16 => 2
  | .odInt32 => 4
  | .odUint8 => 1
  | .odUint16 => 2
  | .odUint32 => 4
  | .odFloat32 => 4
  | .odExec => 4
  | .odString => 4

theorem odObjectTypeSizes_bounds (t : ODObjectDataType) :
    1 ≤ odObjectTypeSizes t ∧ odObjectTypeSizes t ≤ 4 := by
  cases t <;> decide

/-- A function pointer of an entry: null, the `OD_NO_INDIRECT_*_ACCESS` stub, or
    a function of the application. -/
inductive FuncPtr (φ : Type) where
  | null
  | noAccess
  | func (f : φ)

def FuncPtr.isNoAccess {φ : Type} : FuncPtr φ → Bool
  | .noAccess => true
  | _ => false

variable {w : Nat} {E : Type}

/-- `SdoAbortCode (*read_func)(ExpeditedSdoData& retval)`. -/
abbrev ReadFunc (E : Type) :=
  ExpeditedSdoData → Machine E → (SdoAbortCode × ExpeditedSdoData) × Machine E

/-- `SdoAbortCode (*write_func)(ExpeditedSdoData val)`. -/
abbrev WriteFunc (E : Type) := ExpeditedSdoData → Machine E → SdoAbortCode × Machine E

def nullptr : Nat := 0

structure ODObject (E : Type) where
  category : String
  subcategory : String
  name : String
  accessPermission : ODObjectAccessPermission
  dataType : ODObjectDataType
  defaultValue : Option ExpeditedSdoData
  ptr : Nat × Nat
  readFunc : FuncPtr (ReadFunc E)
  writeFunc : FuncPtr (WriteFunc E)

namespace ODObject

def hasDirectAccess (o : ODObject E) : Bool := o.ptr != (nullptr, nullptr)

def hasReadPermission (o : ODObject E) : Bool := o.accessPermission != .odAccessWo

def hasWritePermission (o : ODObject E) : Bool :=
  o.accessPermission == .odAccessRw || o.accessPermission == .odAccessWo

/-- The bytes an access to the object copies. -/
def size (o : ODObject E) : Nat := odObjectTypeSizes o.dataType

/-- Where a direct object lies: behind `ptr.first`, or behind the pointer that
    `ptr.second` points to. -/
def address (o : ODObject E) (m : Machine E) : Nat :=
  if o.ptr.1 ≠ nullptr then o.ptr.1 else loadPointer m.mem o.ptr.2

theorem size_le (o : ODObject E) : o.size ≤ 4 := (odObjectTypeSizes_bounds o.dataType).2

end ODObject

structure ODObjectKey (w : Nat) where
  index : BitVec 16
  subindex : BitVec w
  deriving Repr, DecidableEq

structure ODEntry (w : Nat) (E : Type) where
  key : ODObjectKey w
  object : ODObject E

/-! ## Comparisons -/

/-- `operator<(ODEntry const&, ODEntry const&)`. -/
def ODEntry.lt (lhs rhs : ODEntry w E) : Bool :=
  decide (lhs.key.index < rhs.key.index) ||
    (lhs.key.index == rhs.key.index && decide (lhs.key.subindex < rhs.key.subindex))

/-- `operator<(ODEntry const&, ODObjectKey const&)`. -/
def ODEntry.ltKey (lhs : ODEntry w E) (rhs : ODObjectKey w) : Bool :=
  decide (lhs.key.index < rhs.index) ||
    (lhs.key.index == rhs.index && decide (lhs.key.subindex < rhs.subindex))

/-- `operator<(ODObjectKey const&, ODEntry const&)`. -/
def ODObjectKey.ltEntry (lhs : ODObjectKey w) (rhs : ODEntry w E) : Bool :=
  decide (lhs.index < rhs.key.index) ||
    (lhs.index == rhs.key.index && decide (lhs.subindex < rhs.key.subindex))

/-- The order all three comparisons describe. -/
def ODObjectKey.rank (k : ODObjectKey w) : Nat ×ₗ Nat := toLex (k.index.toNat, k.subindex.toNat)

theorem ODObjectKey.rank_injective : Function.Injective (rank (w := w)) := by
  intro a b same
  obtain ⟨i, s⟩ := a
  obtain ⟨j, t⟩ := b
  have parts : i.toNat = j.toNat ∧ s.toNat = t.toNat := by
    simpa [rank, Prod.ext_iff] using same
  rw [BitVec.eq_of_toNat_eq parts.1, BitVec.eq_of_toNat_eq parts.2]

private theorem lex_lt_iff (a b : ODObjectKey w) :
    (decide (a.index < b.index) || (a.index == b.index && decide (a.subindex < b.subindex))) =
      decide (a.rank < b.rank) := by
  simp [ODObjectKey.rank, Prod.Lex.toLex_lt_toLex, BitVec.lt_def, Bool.decide_or,
    ← BitVec.toNat_inj, beq_eq_decide]

theorem ODEntry.lt_eq (a b : ODEntry w E) : a.lt b = decide (a.key.rank < b.key.rank) :=
  lex_lt_iff a.key b.key

theorem ODEntry.ltKey_eq (a : ODEntry w E) (k : ODObjectKey w) :
    a.ltKey k = decide (a.key.rank < k.rank) := lex_lt_iff a.key k

theorem ODObjectKey.ltEntry_eq (k : ODObjectKey w) (a : ODEntry w E) :
    k.ltEntry a = decide (k.rank < a.key.rank) := lex_lt_iff k a.key

/-! ## Start-up -/

/-- The assertions on the pair of entries `i < j`. -/
def ODEntry.distinctFrom (a b : ODEntry w E) : Bool :=
  (a.key.index != b.key.index || a.key.subindex != b.key.subindex) &&
    (!(a.object.category == b.object.category) ||
      !(a.object.subcategory == b.object.subcategory) || !(a.object.name == b.object.name))

/-- The assertions on one entry: what its permission promises has some access. -/
def ODEntry.accessible (a : ODEntry w E) : Bool :=
  (!a.object.hasReadPermission ||
      (!a.object.readFunc.isNoAccess || a.object.hasDirectAccess)) &&
    (!a.object.hasWritePermission ||
      (!a.object.writeFunc.isNoAccess || a.object.hasDirectAccess))

/-- The nested loops of assertions: entry `i` against entry `i + 1`, against all
    later entries, and by itself. -/
def assertionsHold : List (ODEntry w E) → Bool
  | [] => true
  | a :: rest =>
      (match rest with
        | [] => true
        | next :: _ => a.lt next) &&
      rest.all a.distinctFrom && a.accessible && assertionsHold rest

/-- A dictionary as the start-up leaves it: sorted, with every assertion passed. -/
structure ObjectDictionary (w : Nat) (E : Type) where
  entries : List (ODEntry w E)
  accepted : assertionsHold entries = true

/-- `init_object_dictionary` over a given sort, with assertions enabled: the sorted
    dictionary, or nothing when an assertion fails. -/
def initWith (sort : List (ODEntry w E) → List (ODEntry w E)) (dictionary : List (ODEntry w E)) :
    Option (ObjectDictionary w E) :=
  if accepted : assertionsHold (sort dictionary) = true then some ⟨sort dictionary, accepted⟩
  else none

/-- `init_object_dictionary` over a merge sort. -/
def initObjectDictionary (dictionary : List (ODEntry w E)) : Option (ObjectDictionary w E) :=
  initWith (fun l => l.mergeSort fun a b => !b.lt a) dictionary

theorem sorted_of_assertions {entries : List (ODEntry w E)} (held : assertionsHold entries = true) :
    entries.Pairwise fun a b => a.key.rank < b.key.rank := by
  induction entries with
  | nil => exact .nil
  | cons a rest ih =>
      simp only [assertionsHold, Bool.and_eq_true] at held
      have tail := ih held.2
      refine List.pairwise_cons.mpr ⟨?_, tail⟩
      cases rest with
      | nil => intro b member; simp at member
      | cons next rest =>
          have first : a.key.rank < next.key.rank := by
            simpa [ODEntry.lt_eq] using held.1.1.1
          intro b member
          rcases List.mem_cons.mp member with rfl | member
          · exact first
          · exact first.trans ((List.pairwise_cons.mp tail).1 b member)

theorem accessible_of_assertions {entries : List (ODEntry w E)}
    (held : assertionsHold entries = true) : ∀ a ∈ entries, a.accessible = true := by
  induction entries with
  | nil => intro a member; simp at member
  | cons b rest ih =>
      simp only [assertionsHold, Bool.and_eq_true] at held
      intro a member
      rcases List.mem_cons.mp member with rfl | member
      · exact held.1.2
      · exact ih held.2 a member

namespace ObjectDictionary

def empty : ObjectDictionary w E := ⟨[], rfl⟩

theorem sorted (d : ObjectDictionary w E) :
    d.entries.Pairwise fun a b => a.key.rank < b.key.rank := sorted_of_assertions d.accepted

theorem keys_nodup (d : ObjectDictionary w E) : (d.entries.map ODEntry.key).Nodup :=
  List.pairwise_map.mpr (d.sorted.imp fun lt same => lt.ne (congrArg ODObjectKey.rank same))

theorem eq_of_key {d : ObjectDictionary w E} {a b : ODEntry w E} (ha : a ∈ d.entries)
    (hb : b ∈ d.entries) (same : a.key = b.key) : a = b :=
  List.inj_on_of_nodup_map d.keys_nodup ha hb same

end ObjectDictionary

/-- Look a key up with `std::equal_range` over the mixed comparisons. -/
def equalRangeFind (entries : List (ODEntry w E)) (key : ODObjectKey w) : Option (ODEntry w E) :=
  let res := equalRange (fun a => a.ltKey key) (fun a => key.ltEntry a) entries
  if res.1 = res.2 then none else entries[res.1]?

theorem equalRangeFind_eq_some {entries : List (ODEntry w E)}
    (sorted : entries.Pairwise fun a b => a.key.rank < b.key.rank) (key : ODObjectKey w)
    (a : ODEntry w E) : equalRangeFind entries key = some a ↔ a ∈ entries ∧ a.key = key := by
  simp only [equalRangeFind, ODEntry.ltKey_eq, ODObjectKey.ltEntry_eq]
  rw [equalRange_lookup sorted key.rank a, ODObjectKey.rank_injective.eq_iff]

/-- `impl::Server::find_od_entry` of the F4 port. -/
def findOdEntry (d : ObjectDictionary 8 E) (key : ODObjectKey 8) : Option (ODEntry 8 E) :=
  equalRangeFind d.entries key

theorem findOdEntry_eq_some (d : ObjectDictionary 8 E) (key : ODObjectKey 8) (a : ODEntry 8 E) :
    findOdEntry d key = some a ↔ a ∈ d.entries ∧ a.key = key :=
  equalRangeFind_eq_some d.sorted key a

/-- What the H7 port relies on in `emb::binary_find`: in a sorted range it finds
    the entry with the key, and returns the end when there is none. -/
def BinaryFindSpec (binaryFind : List (ODEntry 16 E) → ODObjectKey 16 → Option (ODEntry 16 E)) :
    Prop :=
  ∀ entries : List (ODEntry 16 E), (entries.Pairwise fun a b => a.key.rank < b.key.rank) →
    ∀ key a, binaryFind entries key = some a ↔ a ∈ entries ∧ a.key = key

theorem equalRangeFind_spec : BinaryFindSpec (E := E) equalRangeFind :=
  fun _ sorted key a => equalRangeFind_eq_some sorted key a

end Ucanopen
