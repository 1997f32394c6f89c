import Mathlib.Data.List.Induction
import Ucanopen.F4.Writes
import Ucanopen.Sdo.Work

/-! # Objects behind a provider's table

An `SdoProvider` keeps a static table of pointers. A dictionary entry that points to one of
its slots is read and written through the pointer that the slot holds at the moment of the
access, so it is the object registered last that a client reaches, and the dummy where
none is. Clients write what the slots point to and never the table itself.
-/

namespace Ucanopen.F4

open Bytes Exec

variable {E : Type}

/-- The static members of one `SdoProvider<Derived, DataCount>`: where the table is, how
    many pointers it has and where the dummy is. -/
structure SdoProvider where
  dataCount : Nat
  sdoData : Nat
  dummyData : BitVec 32
  placed : sdoData ≠ nullptr

namespace SdoProvider

variable (provider : SdoProvider)

/-- `&sdo_data[idx]`. -/
def slot (idx : Nat) : Nat := provider.sdoData + 4 * idx

/-- The bytes of `sdo_data`. -/
def table : Set Nat := range provider.sdoData (4 * provider.dataCount)

/-- The bytes of `dummy_data_`. -/
def dummy : Set Nat := range provider.dummyData.toNat 4

/-- `sdo_data[idx] = pointer`. -/
def assign (idx : Nat) (pointer : BitVec 32) (mem : Memory) : Memory :=
  overwrite mem (provider.slot idx) 4 (byte pointer)

/-- The first `n` assignments of the `std::fill` in the constructor. -/
def fill (n : Nat) (mem : Memory) : Memory :=
  (List.range n).foldl (fun mem idx => provider.assign idx provider.dummyData mem) mem

/-- `SdoProvider()`. -/
def construct (m : Machine E) : Machine E :=
  { m with mem := provider.fill provider.dataCount m.mem }

/-- `register_sdo_data(idx, dataobj)`. -/
def registerSdoData (idx : Fin provider.dataCount) (dataobj : BitVec 32) (m : Machine E) :
    Machine E :=
  { m with mem := provider.assign idx dataobj m.mem }

variable {provider : SdoProvider}

theorem slot_inside {idx : Nat} (inside : idx < provider.dataCount) :
    range (provider.slot idx) 4 ⊆ provider.table := by
  intro x within
  obtain ⟨low, high⟩ := within
  unfold slot at low high
  exact ⟨by omega, by omega⟩

theorem slots_apart {i j : Nat} (other : i ≠ j) :
    Disjoint (range (provider.slot i) 4) (range (provider.slot j) 4) := by
  apply Set.disjoint_left.mpr
  intro x here there
  obtain ⟨low, high⟩ := here
  obtain ⟨low', high'⟩ := there
  unfold slot at low high low' high'
  omega

theorem load_assign (idx : Nat) (pointer : BitVec 32) (mem : Memory) :
    loadPointer (provider.assign idx pointer mem) (provider.slot idx) = pointer.toNat :=
  loadPointer_overwrite mem _ pointer

theorem load_assign_other {i idx : Nat} (other : i ≠ idx) (pointer : BitVec 32) (mem : Memory) :
    loadPointer (provider.assign i pointer mem) (provider.slot idx) =
      loadPointer mem (provider.slot idx) :=
  loadPointer_apart mem (slots_apart other) _

theorem assign_outside {idx : Nat} (inside : idx < provider.dataCount) (pointer : BitVec 32)
    (mem : Memory) {x : Nat} (outside : x ∉ provider.table) :
    provider.assign idx pointer mem x = mem x :=
  overwrite_outside _ _ fun within => outside (slot_inside inside within)

theorem fill_succ (n : Nat) (mem : Memory) :
    provider.fill (n + 1) mem = provider.assign n provider.dummyData (provider.fill n mem) := by
  simp only [fill, List.range_succ, List.foldl_append, List.foldl_cons, List.foldl_nil]

/-- After the fill every slot holds the address of the dummy. -/
theorem load_fill {n idx : Nat} (filled : idx < n) (mem : Memory) :
    loadPointer (provider.fill n mem) (provider.slot idx) = provider.dummyData.toNat := by
  induction n with
  | zero => omega
  | succ n ih =>
      rw [fill_succ]
      by_cases last : n = idx
      · rw [← last, load_assign]
      · rw [load_assign_other last, ih (by omega)]

theorem fill_outside {n : Nat} (small : n ≤ provider.dataCount) (mem : Memory) {x : Nat}
    (outside : x ∉ provider.table) : provider.fill n mem x = mem x := by
  induction n with
  | zero => rfl
  | succ n ih => rw [fill_succ, assign_outside (by omega) _ _ outside, ih (by omega)]

end SdoProvider

/-- The providers of a program, one for each class that derives from `SdoProvider`. Each
    has its own static members. -/
structure SdoProviders (Derived : Type) where
  of : Derived → SdoProvider
  tables_apart : ∀ a b, a ≠ b → Disjoint (of a).table (of b).table
  dummies_apart : ∀ a b, a ≠ b → Disjoint (of a).dummy (of b).dummy
  members_apart : ∀ a b, Disjoint (of a).dummy (of b).table

variable {Derived : Type} {providers : SdoProviders Derived}

/-- What is done to the machine of a program with providers. -/
inductive ProviderWork (providers : SdoProviders Derived) (E : Type) where
  | construct (derived : Derived)
  | registerSdoData (derived : Derived) (idx : Fin (providers.of derived).dataCount)
      (dataobj : BitVec 32)
  | other (work : Work E)

namespace ProviderWork

def work : ProviderWork providers E → Work E
  | .construct derived => .application (providers.of derived).construct
  | .registerSdoData derived idx dataobj =>
      .application ((providers.of derived).registerSdoData idx dataobj)
  | .other work => work

/-- The pointer that a piece of work puts into a slot. -/
def sets [DecidableEq Derived] (derived : Derived) (idx : Nat) :
    ProviderWork providers E → Option (BitVec 32)
  | .construct a => if a = derived then some (providers.of derived).dummyData else none
  | .registerSdoData a i dataobj => if a = derived ∧ i = idx then some dataobj else none
  | .other _ => none

end ProviderWork

/-! ## What the slots point to -/

section Slots

variable [DecidableEq Derived]

/-- The pointer a slot was given last. -/
def ProviderWork.pointer (derived : Derived) (idx : Nat) (done : List (ProviderWork providers E)) :
    Option (BitVec 32) :=
  (done.filterMap (sets derived idx)).getLast?

theorem ProviderWork.pointer_concat (derived : Derived) (idx : Nat)
    (done : List (ProviderWork providers E)) (last : ProviderWork providers E) :
    pointer derived idx (done ++ [last]) = (last.sets derived idx).or (pointer derived idx done) := by
  cases set : last.sets derived idx <;> simp [pointer, set]

end Slots

/-- Clients cannot write into these bytes: no writable object lies there. -/
def Clear (entries : List (ODEntry 8 E)) (bytes : Set Nat) (m : Machine E) : Prop :=
  ∀ k ∈ entries, k.object.hasWritePermission = true → k.object.hasDirectAccess = true →
    Disjoint (k.object.bytes m) bytes

namespace SdoProviders

/-- The entry points to a slot: `OD_DPTR(&sdo_data[idx])`. -/
def Behind (providers : SdoProviders Derived) (k : ODEntry 8 E) (derived : Derived) (idx : Nat) :
    Prop :=
  idx < (providers.of derived).dataCount ∧
    k.object.ptr = (nullptr, (providers.of derived).slot idx)

/-- The inner pointers of the dictionary are slots, and the application's functions
    leave these bytes alone. -/
structure Laid (providers : SdoProviders Derived) (entries : List (ODEntry 8 E))
    (bytes : Set Nat) : Prop where
  behind : ∀ k ∈ entries, k.object.hasDirectAccess = true → k.object.ptr.1 = nullptr →
    ∃ derived idx, providers.Behind k derived idx
  untouched : Untouched entries bytes

/-- The bytes contain the tables, and no client can write them through a dummy. -/
structure Guarded (providers : SdoProviders Derived) (entries : List (ODEntry 8 E))
    (bytes : Set Nat) : Prop extends providers.Laid entries bytes where
  tables : ∀ a, (providers.of a).table ⊆ bytes
  dummies : ∀ k ∈ entries, k.object.hasWritePermission = true → ∀ derived idx,
    providers.Behind k derived idx →
      Disjoint (range (providers.of derived).dummyData.toNat k.object.size) bytes

variable {entries : List (ODEntry 8 E)} {bytes : Set Nat} {m m' : Machine E}

theorem Behind.address {k : ODEntry 8 E} {derived : Derived} {idx : Nat}
    (behind : providers.Behind k derived idx) (m : Machine E) :
    k.object.address m = loadPointer m.mem ((providers.of derived).slot idx) := by
  simp [ODObject.address, behind.2]

theorem Behind.direct {k : ODEntry 8 E} {derived : Derived} {idx : Nat}
    (behind : providers.Behind k derived idx) : k.object.hasDirectAccess = true := by
  have placed := (providers.of derived).placed
  simp only [ODObject.hasDirectAccess, behind.2, SdoProvider.slot, nullptr, bne_iff_ne, ne_eq,
    Prod.mk.injEq, true_and] at placed ⊢
  omega

/-- What moves no pointer into the bytes keeps clients out of them. -/
theorem Guarded.clear (guarded : providers.Guarded entries bytes) (clear : Clear entries bytes m)
    (slots : ∀ k ∈ entries, k.object.hasWritePermission = true → ∀ derived idx,
      providers.Behind k derived idx → k.object.address m' = k.object.address m ∨
        Disjoint (range (k.object.address m') k.object.size) bytes) : Clear entries bytes m' := by
  intro k member writable direct
  have before := clear k member writable direct
  unfold ODObject.bytes at before ⊢
  by_cases plain : k.object.ptr.1 = nullptr
  · obtain ⟨derived, idx, behind⟩ := guarded.behind k member direct plain
    rcases slots k member writable derived idx behind with same | apart
    · rwa [same]
    · exact apart
  · have same : k.object.address m' = k.object.address m := by simp [ODObject.address, plain]
    rwa [same]

/-- Machines with the same tables have the same pointers. -/
theorem Guarded.load_congr (guarded : providers.Guarded entries bytes)
    (same : ∀ x ∈ bytes, m'.mem x = m.mem x) {derived : Derived} {idx : Nat}
    (inside : idx < (providers.of derived).dataCount) :
    loadPointer m'.mem ((providers.of derived).slot idx) =
      loadPointer m.mem ((providers.of derived).slot idx) :=
  loadPointer_congr fun x within =>
    same x (guarded.tables derived (SdoProvider.slot_inside inside within))

theorem Guarded.clear_congr (guarded : providers.Guarded entries bytes)
    (clear : Clear entries bytes m) (same : ∀ x ∈ bytes, m'.mem x = m.mem x) :
    Clear entries bytes m' := by
  apply guarded.clear clear
  intro k _ _ derived idx behind
  rw [behind.address, behind.address]
  exact .inl (guarded.load_congr same behind.1)

/-- A request leaves the bytes as they are. -/
theorem Guarded.execute {d : ObjectDictionary 8 E} (guarded : providers.Guarded d.entries bytes)
    {c : Core E} (clear : Clear d.entries bytes c.machine) (p : CanPayload) :
    ∀ x ∈ bytes, ((port d).execute c p).2.machine.mem x = c.machine.mem x := by
  have inv : AccessInvariant (port d).dictionary.entries
      fun m : Machine E => ∀ x ∈ bytes, m.mem x = c.machine.mem x := by
    constructor
    · intro k member writable direct data m same x inside
      have apart := guarded.clear_congr clear same k member writable direct
      exact (overwrite_outside _ _ (Set.disjoint_right.mp apart inside)).trans (same x inside)
    · intro k member f call data m same x inside
      exact (guarded.untouched.readFunc k member f call data m x inside).trans (same x inside)
    · intro k member f call data m same x inside
      exact (guarded.untouched.writeFunc k member f call data m x inside).trans (same x inside)
  exact inv.execute (fun _ _ => rfl) p

end SdoProviders

namespace ProviderWork

variable {entries : List (ODEntry 8 E)} {bytes : Set Nat} {m m' : Machine E}

/-- What is registered where clients can write lies outside the bytes, and the rest of the
    application leaves them alone. -/
def Admitted (entries : List (ODEntry 8 E)) (bytes : Set Nat) : ProviderWork providers E → Prop
  | .construct _ => True
  | .registerSdoData derived idx dataobj =>
      ∀ k ∈ entries, k.object.hasWritePermission = true → providers.Behind k derived idx →
        Disjoint (range dataobj.toNat k.object.size) bytes
  | .other (.request _) => True
  | .other (.application f) => ∀ m, ∀ x ∈ bytes, (f m).mem x = m.mem x

/-- A change inside one table leaves the pointers of the others alone. -/
theorem load_elsewhere {a derived : Derived} (other : a ≠ derived) {idx : Nat}
    (inside : idx < (providers.of derived).dataCount) {mem mem' : Memory}
    (outside : ∀ x ∉ (providers.of a).table, mem' x = mem x) :
    loadPointer mem' ((providers.of derived).slot idx) =
      loadPointer mem ((providers.of derived).slot idx) :=
  loadPointer_congr fun x within => outside x fun here =>
    Set.disjoint_left.mp (providers.tables_apart a derived other) here
      (SdoProvider.slot_inside inside within)

variable [DecidableEq Derived]

/-- The effect of a piece of work on the tables and on the other bytes. -/
structure Moves (entries : List (ODEntry 8 E)) (bytes : Set Nat) (work : ProviderWork providers E)
    (m m' : Machine E) : Prop where
  slots : ∀ derived idx, idx < (providers.of derived).dataCount →
    loadPointer m'.mem ((providers.of derived).slot idx) =
      ((work.sets derived idx).map BitVec.toNat).getD
        (loadPointer m.mem ((providers.of derived).slot idx))
  apart : ∀ k ∈ entries, k.object.hasWritePermission = true → ∀ derived idx,
    providers.Behind k derived idx → ∀ pointer, work.sets derived idx = some pointer →
      Disjoint (range pointer.toNat k.object.size) bytes
  rest : ∀ x ∈ bytes, (∀ a, x ∉ (providers.of a).table) → m'.mem x = m.mem x

theorem moves_construct (guarded : providers.Guarded entries bytes) (a : Derived)
    (m : Machine E) :
    Moves entries bytes (.construct a : ProviderWork providers E) m
      ((providers.of a).construct m) where
  slots := by
    intro derived idx inside
    by_cases same : a = derived
    · subst same
      simpa [sets, SdoProvider.construct] using SdoProvider.load_fill inside m.mem
    · simp only [sets, same, if_false]
      exact load_elsewhere same inside fun x => SdoProvider.fill_outside le_rfl m.mem
  apart := by
    intro k member writable derived idx behind pointer set
    simp only [sets, Option.ite_none_right_eq_some, Option.some.injEq] at set
    rw [← set.2]
    exact guarded.dummies k member writable derived idx behind
  rest := fun x _ outside => SdoProvider.fill_outside le_rfl m.mem (outside a)

theorem moves_register (a : Derived) (i : Fin (providers.of a).dataCount) (dataobj : BitVec 32)
    (admitted : (registerSdoData a i dataobj : ProviderWork providers E).Admitted entries bytes)
    (m : Machine E) :
    Moves entries bytes (.registerSdoData a i dataobj : ProviderWork providers E) m
      ((providers.of a).registerSdoData i dataobj m) where
  slots := by
    intro derived idx inside
    by_cases same : a = derived
    · subst same
      by_cases here : i = idx
      · subst here
        simpa [sets, SdoProvider.registerSdoData] using SdoProvider.load_assign _ dataobj m.mem
      · simpa [sets, here, SdoProvider.registerSdoData] using
          SdoProvider.load_assign_other here dataobj m.mem
    · simp only [sets, same, false_and, if_false]
      exact load_elsewhere same inside fun x => SdoProvider.assign_outside i.isLt dataobj m.mem
  apart := by
    intro k member writable derived idx behind pointer set
    simp only [sets, Option.ite_none_right_eq_some, Option.some.injEq] at set
    obtain ⟨⟨rfl, rfl⟩, rfl⟩ := set
    exact admitted k member writable behind
  rest := fun x _ outside => SdoProvider.assign_outside i.isLt dataobj m.mem (outside a)

/-- Work that sets no slot leaves all the bytes alone. -/
theorem moves_still (guarded : providers.Guarded entries bytes) {work : ProviderWork providers E}
    (still : ∀ derived idx, work.sets derived idx = none)
    (same : ∀ x ∈ bytes, m'.mem x = m.mem x) : Moves entries bytes work m m' where
  slots := by
    intro derived idx inside
    rw [still]
    exact guarded.load_congr same inside
  apart := by
    intro k _ _ derived idx _ pointer set
    rw [still] at set
    exact absurd set nofun
  rest := fun x inside _ => same x inside

theorem moves {d : ObjectDictionary 8 E} (guarded : providers.Guarded d.entries bytes)
    {c : Core E} (clear : Clear d.entries bytes c.machine) (work : ProviderWork providers E)
    (admitted : work.Admitted d.entries bytes) :
    Moves d.entries bytes work c.machine (work.work.perform (port d) c).2.machine := by
  match work, admitted with
  | .construct a, _ => exact moves_construct guarded a c.machine
  | .registerSdoData a i dataobj, admitted => exact moves_register a i dataobj admitted c.machine
  | .other (.request p), _ =>
      exact moves_still guarded (fun _ _ => rfl) (guarded.execute clear p)
  | .other (.application f), admitted =>
      exact moves_still guarded (fun _ _ => rfl) (admitted c.machine)

end ProviderWork

/-- Where the pointers stand after some work. -/
structure Settled [DecidableEq Derived] (entries : List (ODEntry 8 E)) (bytes : Set Nat)
    (m₀ : Machine E) (done : List (ProviderWork providers E)) (m : Machine E) : Prop where
  slots : ∀ derived idx, idx < (providers.of derived).dataCount →
    loadPointer m.mem ((providers.of derived).slot idx) =
      ((ProviderWork.pointer derived idx done).map BitVec.toNat).getD
        (loadPointer m₀.mem ((providers.of derived).slot idx))
  clear : Clear entries bytes m
  rest : ∀ x ∈ bytes, (∀ a, x ∉ (providers.of a).table) → m.mem x = m₀.mem x

section Runs

variable [DecidableEq Derived] {entries : List (ODEntry 8 E)} {bytes : Set Nat}
  {m₀ m m' : Machine E} {done : List (ProviderWork providers E)}

theorem Settled.step (settled : Settled entries bytes m₀ done m)
    (guarded : providers.Guarded entries bytes) {work : ProviderWork providers E}
    (moves : work.Moves entries bytes m m') : Settled entries bytes m₀ (done ++ [work]) m' where
  slots := by
    intro derived idx inside
    rw [moves.slots derived idx inside, settled.slots derived idx inside,
      ProviderWork.pointer_concat]
    cases work.sets derived idx <;> rfl
  clear := by
    apply guarded.clear settled.clear
    intro k member writable derived idx behind
    rw [behind.address, behind.address, moves.slots derived idx behind.1]
    cases set : work.sets derived idx with
    | none => exact .inl rfl
    | some pointer => exact .inr (moves.apart k member writable derived idx behind pointer set)
  rest := fun x inside outside =>
    (moves.rest x inside outside).trans (settled.rest x inside outside)

/-- Any sequence of work leaves each slot with the pointer it was given last. -/
theorem settled_run {d : ObjectDictionary 8 E} (guarded : providers.Guarded d.entries bytes)
    (clear : Clear d.entries bytes m₀) (done : List (ProviderWork providers E))
    (admitted : ∀ work ∈ done, work.Admitted d.entries bytes) :
    Settled d.entries bytes m₀ done
      (Server.after (Work.perform (port d)) (.start m₀) (done.map ProviderWork.work)).machine := by
  induction done using List.reverseRecOn with
  | nil => exact ⟨fun _ _ _ => rfl, clear, fun _ _ _ => rfl⟩
  | append_singleton done work ih =>
      have settled := ih fun work member => admitted work (List.mem_append_left _ member)
      rw [List.map_append, List.map_singleton, Server.after_concat]
      exact settled.step guarded (ProviderWork.moves guarded settled.clear work
        (admitted work (List.mem_append_right _ (List.mem_singleton_self work))))

end Runs

namespace SdoProviders

/-! ## Which bytes are guarded -/

variable (providers : SdoProviders Derived)

/-- The bytes of all the tables. -/
def tables : Set Nat := ⋃ a, (providers.of a).table

theorem dummy_apart_tables (a : Derived) {size : Nat} (small : size ≤ 4) :
    Disjoint (range (providers.of a).dummyData.toNat size) providers.tables := by
  apply Set.disjoint_iUnion_right.mpr
  intro b
  apply (providers.members_apart a b).mono_left
  exact Set.Ico_subset_Ico_right (by omega)

theorem guarded_tables {entries : List (ODEntry 8 E)}
    (laid : providers.Laid entries providers.tables) :
    providers.Guarded entries providers.tables where
  toLaid := laid
  tables := fun a => Set.subset_iUnion (fun a => (providers.of a).table) a
  dummies := fun k _ _ derived _ _ => providers.dummy_apart_tables derived k.object.size_le

/-- Where clients write through no slot of a provider, its dummy is guarded as well. -/
theorem guarded_dummy {entries : List (ODEntry 8 E)} {derived : Derived}
    (laid : providers.Laid entries (providers.tables ∪ (providers.of derived).dummy))
    (readOnly : ∀ k ∈ entries, ∀ idx, providers.Behind k derived idx →
      k.object.hasWritePermission = false) :
    providers.Guarded entries (providers.tables ∪ (providers.of derived).dummy) where
  toLaid := laid
  tables := fun a =>
    (Set.subset_iUnion (fun a => (providers.of a).table) a).trans Set.subset_union_left
  dummies := by
    intro k member writable a idx behind
    have other : a ≠ derived := by
      rintro rfl
      have denied := readOnly k member idx behind
      rw [writable] at denied
      exact absurd denied nofun
    apply Set.disjoint_union_right.mpr
    constructor
    · exact providers.dummy_apart_tables a k.object.size_le
    · apply (providers.dummies_apart a derived other).mono_left
      exact Set.Ico_subset_Ico_right (by have := k.object.size_le; omega)

/-! ## A program with two providers -/

section Board

/-- One class registers a setpoint that clients write, the other a temperature. -/
def board : SdoProviders Bool where
  of
    | true => ⟨2, 0x400, 0x500, by decide⟩
    | false => ⟨1, 0x410, 0x510, by decide⟩
  tables_apart := by
    intro a b other
    apply Set.disjoint_left.mpr
    intro x
    cases a <;> cases b <;> simp [SdoProvider.table] at other ⊢ <;> omega
  dummies_apart := by
    intro a b other
    apply Set.disjoint_left.mpr
    intro x
    cases a <;> cases b <;> simp [SdoProvider.dummy] at other ⊢ <;> omega
  members_apart := by
    intro a b
    apply Set.disjoint_left.mpr
    intro x
    cases a <;> cases b <;> simp [SdoProvider.dummy, SdoProvider.table] <;> omega

def setpoint : ODEntry 8 Unit :=
  ⟨⟨0x2100, 0⟩, { parameter "setpoint" .odAccessRw .odUint16 0 0 with ptr := (nullptr, 0x404) }⟩

def temperature : ODEntry 8 Unit :=
  ⟨⟨0x2101, 0⟩, { parameter "temperature" .odAccessRo .odInt32 0 0 with ptr := (nullptr, 0x410) }⟩

def boardDictionary : ObjectDictionary 8 Unit where
  entries := [setpoint, temperature]
  accepted := by decide +kernel

def writeSetpoint : CanPayload :=
  ExpeditedSdo.toPayload { cs := SdoCsCodes.clientInitWrite, index := 0x2100, data := 5 }

def readTemperature : CanPayload :=
  ExpeditedSdo.toPayload { cs := SdoCsCodes.clientInitRead, index := 0x2101 }

/-- The tables are zero and the dummies hold their value. -/
def boardMachine : Machine Unit := ⟨fun x => if x = 0x500 ∨ x = 0x510 then 42 else 0, ()⟩

theorem board_laid (bytes : Set Nat) : board.Laid boardDictionary.entries bytes where
  behind := by
    intro k member _ _
    have entry : k = setpoint ∨ k = temperature := by simpa [boardDictionary] using member
    rcases entry with rfl | rfl
    · exact ⟨true, 1, by decide, rfl⟩
    · exact ⟨false, 0, by decide, rfl⟩
  untouched := by
    constructor
    all_goals
      intro k member f call
      have entry : k = setpoint ∨ k = temperature := by simpa [boardDictionary] using member
      rcases entry with rfl | rfl <;> cases call

theorem board_apart {bytes : Set Nat} (within : bytes ⊆ board.tables ∪ (board.of false).dummy)
    {a size : Nat} (outside : a + size ≤ 0x400 ∨ 0x514 ≤ a) : Disjoint (range a size) bytes := by
  apply Disjoint.mono_right within
  apply Set.disjoint_left.mpr
  rintro x ⟨low, high⟩ (inside | inside)
  · obtain ⟨b, first, last⟩ := Set.mem_iUnion.mp inside
    cases b
    · change 0x410 ≤ x at first
      change x < 0x410 + 4 at last
      omega
    · change 0x400 ≤ x at first
      change x < 0x400 + 8 at last
      omega
  · change 0x510 ≤ x ∧ x < 0x510 + 4 at inside
    omega

/-- Before a provider is constructed its slots are null. -/
theorem board_clear {bytes : Set Nat}
    (within : bytes ⊆ board.tables ∪ (board.of false).dummy) :
    Clear boardDictionary.entries bytes boardMachine := by
  intro k member writable _
  have entry : k = setpoint ∨ k = temperature := by simpa [boardDictionary] using member
  rcases entry with rfl | rfl
  · exact (board_apart within (.inl (by decide)) : Disjoint (range 0 2) bytes)
  · exact absurd writable (by decide)

/-- The setpoint's slot is registered again after a write of the setpoint. -/
def boardWork : List (ProviderWork board Unit) :=
  [.construct true, .construct false, .registerSdoData true ⟨1, by decide⟩ 0x600,
    .other (.request writeSetpoint), .registerSdoData true ⟨1, by decide⟩ 0x700]

theorem boardWork_admitted {bytes : Set Nat}
    (within : bytes ⊆ board.tables ∪ (board.of false).dummy) :
    ∀ work ∈ boardWork, work.Admitted boardDictionary.entries bytes := by
  intro work member
  simp only [boardWork, List.mem_cons, List.not_mem_nil, or_false] at member
  rcases member with rfl | rfl | rfl | rfl | rfl
  · trivial
  · trivial
  · exact fun k _ _ _ => board_apart within (.inr (by decide))
  · trivial
  · exact fun k _ _ _ => board_apart within (.inr (by decide))


end Board

/-! ## Access through a slot -/

variable [DecidableEq Derived]

/-- Clients never move a pointer. They read and write, through a slot, the object that was
    registered there last since its provider was constructed, or else the dummy. -/
theorem accesses_last (d : ObjectDictionary 8 E) {m : Machine E}
    (laid : providers.Laid d.entries providers.tables)
    (clear : Clear d.entries providers.tables m) (done : List (ProviderWork providers E))
    (admitted : ∀ work ∈ done, work.Admitted d.entries providers.tables) :
    let c := Server.after (Work.perform (port d)) (.start m) (done.map ProviderWork.work)
    ∀ derived idx, idx < (providers.of derived).dataCount →
      loadPointer c.machine.mem ((providers.of derived).slot idx) =
          ((ProviderWork.pointer derived idx done).map BitVec.toNat).getD
            (loadPointer m.mem ((providers.of derived).slot idx)) ∧
        ∀ k ∈ d.entries, providers.Behind k derived idx →
          ∀ object, ProviderWork.pointer derived idx done = some object → c.fault = none →
            ∀ p, (port d).requestKey (ExpeditedSdo.fromPayload p) = k.key →
              ((ExpeditedSdo.fromPayload p).cs = SdoCsCodes.clientInitRead →
                k.object.hasReadPermission = true →
                (port d).execute c p =
                  (some (Port.confirmRead (ExpeditedSdo.fromPayload p) k.object
                    (copyInto 0 (fun i => c.machine.mem (object.toNat + i))
                      k.object.size)).toPayload, c)) ∧
              ((ExpeditedSdo.fromPayload p).cs = SdoCsCodes.clientInitWrite →
                k.object.hasWritePermission = true →
                (port d).execute c p =
                  (some (Port.confirmWrite (ExpeditedSdo.fromPayload p)).toPayload,
                    .start { c.machine with
                      mem := overwrite c.machine.mem object.toNat k.object.size
                        (byte (ExpeditedSdo.fromPayload p).data) })) := by
  intro c derived idx inside
  have settled := settled_run (providers.guarded_tables laid) clear done admitted
  have slot := settled.slots derived idx inside
  refine ⟨slot, ?_⟩
  intro k member behind object last alive p names
  have address : k.object.address c.machine = object.toNat := by
    rw [behind.address]
    exact slot.trans (by rw [last]; rfl)
  constructor
  · intro command readable
    rw [(port d).execute_dispatch alive (command.trans_ne SdoCsCodes.read_ne_abort),
      read_run member behind.direct readable command names, address]
    exact congrArg (some _, ·) (by rw [← alive])
  · intro command writable
    rw [(port d).execute_dispatch alive (command.trans_ne SdoCsCodes.write_ne_abort),
      write_direct_run member behind.direct writable command names, address]
    rfl

theorem accesses_last_board :
    let c := Server.after (Work.perform (port boardDictionary)) (.start boardMachine)
      (boardWork.map ProviderWork.work)
    (port boardDictionary).execute c writeSetpoint =
      (some (Port.confirmWrite (ExpeditedSdo.fromPayload writeSetpoint)).toPayload,
        .start { c.machine with
          mem := overwrite c.machine.mem 0x700 2
            (byte (ExpeditedSdo.fromPayload writeSetpoint).data) }) :=
  ((accesses_last board boardDictionary (board_laid _) (board_clear Set.subset_union_left)
    boardWork (boardWork_admitted Set.subset_union_left) true 1 (by decide)).2 setpoint (.head _)
    ⟨by decide, rfl⟩ 0x700 rfl (by decide +kernel) writeSetpoint (by decide +kernel)).2
    (by decide +kernel) rfl

/-- A slot of a provider whose data clients only read answers the dummy's value, until an
    object is registered there. -/
theorem unregistered_read (d : ObjectDictionary 8 E) {m : Machine E} {derived : Derived}
    (laid : providers.Laid d.entries (providers.tables ∪ (providers.of derived).dummy))
    (clear : Clear d.entries (providers.tables ∪ (providers.of derived).dummy) m)
    (readOnly : ∀ k ∈ d.entries, ∀ idx, providers.Behind k derived idx →
      k.object.hasWritePermission = false)
    (initial : ∀ i < 4, m.mem ((providers.of derived).dummyData.toNat + i) = byte 42#32 i)
    (done : List (ProviderWork providers E))
    (admitted : ∀ work ∈ done,
      work.Admitted d.entries (providers.tables ∪ (providers.of derived).dummy))
    (alive : (Server.after (Work.perform (port d)) (.start m)
      (done.map ProviderWork.work)).fault = none)
    {idx : Nat} (unregistered : ProviderWork.pointer derived idx done =
      some (providers.of derived).dummyData)
    {k : ODEntry 8 E} (member : k ∈ d.entries) (behind : providers.Behind k derived idx)
    (readable : k.object.hasReadPermission = true) {p : CanPayload}
    (command : (ExpeditedSdo.fromPayload p).cs = SdoCsCodes.clientInitRead)
    (names : (port d).requestKey (ExpeditedSdo.fromPayload p) = k.key) :
    ((port d).execute (Server.after (Work.perform (port d)) (.start m)
        (done.map ProviderWork.work)) p).1 =
      some (Port.confirmRead (ExpeditedSdo.fromPayload p) k.object 42).toPayload := by
  have settled := settled_run (providers.guarded_dummy laid readOnly) clear done admitted
  generalize Server.after (Work.perform (port d)) (.start m) (done.map ProviderWork.work) = c
    at settled alive ⊢
  have address : k.object.address c.machine = (providers.of derived).dummyData.toNat := by
    rw [behind.address, settled.slots derived idx behind.1, unregistered]
    rfl
  have kept : ∀ i < k.object.size,
      c.machine.mem ((providers.of derived).dummyData.toNat + i) = byte 42#32 i := by
    intro i small
    have within := small.trans_le k.object.size_le
    have here : (providers.of derived).dummyData.toNat + i ∈ (providers.of derived).dummy :=
      ⟨by omega, by omega⟩
    rw [settled.rest _ (.inr here), initial i within]
    exact fun a there => Set.disjoint_left.mp (providers.members_apart derived a) here there
  have data : copyInto 0 (fun i => c.machine.mem ((providers.of derived).dummyData.toNat + i))
      k.object.size = 42 := by
    rw [copyInto_congr 0 kept, ODObject.size]
    cases k.object.dataType <;> rfl
  rw [(port d).execute_dispatch alive (command.trans_ne SdoCsCodes.read_ne_abort),
    read_run member behind.direct readable command names, address, data]
  rfl

theorem unregistered_read_board :
    ((port boardDictionary).execute (Server.after (Work.perform (port boardDictionary))
        (.start boardMachine) (boardWork.map ProviderWork.work)) readTemperature).1 =
      some (Port.confirmRead (ExpeditedSdo.fromPayload readTemperature)
        temperature.object 42).toPayload := by
  have readOnly : ∀ k ∈ boardDictionary.entries, ∀ idx, board.Behind k false idx →
      k.object.hasWritePermission = false := by
    rintro k member idx ⟨-, behind⟩
    have entry : k = setpoint ∨ k = temperature := by simpa [boardDictionary] using member
    rcases entry with rfl | rfl
    · have address : 0x404 = 0x410 + 4 * idx := (Prod.mk.inj behind).2
      omega
    · rfl
  have unregistered :
      ProviderWork.pointer false 0 boardWork = some (board.of false).dummyData := rfl
  exact unregistered_read board boardDictionary (board_laid _) (board_clear subset_rfl) readOnly
    (by decide +kernel) boardWork (boardWork_admitted subset_rfl) (by decide +kernel)
    unregistered (.tail _ (.head _)) ⟨by decide, rfl⟩ rfl (by decide +kernel) (by decide +kernel)

end SdoProviders

end Ucanopen.F4
