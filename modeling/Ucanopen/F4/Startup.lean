import Ucanopen.F4.Parameters

/-! # What the F4 start-up accepts, and what a lookup finds afterwards

`init_object_dictionary` sorts the application's entries and then asserts that
they are distinct and accessible. `std::sort` may order equal entries as it
likes, so it is any function that returns a sorted permutation; a dictionary
with equal entries does not pass anyway.
-/

namespace Ucanopen

open Bytes SortedSearch

variable {w : Nat} {E : Type}

/-- What `std::sort` promises under `operator<`. -/
def SortSpec (sort : List (ODEntry w E) → List (ODEntry w E)) : Prop :=
  ∀ l, (sort l).Perm l ∧ (sort l).Pairwise fun a b => b.lt a = false

/-- The strings the start-up compares. -/
def ODObject.names (o : ODObject E) : String × String × String :=
  (o.category, o.subcategory, o.name)

/-- What the assertions ask of the entries, whatever their order. -/
structure Acceptable (dictionary : List (ODEntry w E)) : Prop where
  keys : (dictionary.map ODEntry.key).Nodup
  names : (dictionary.map fun a => a.object.names).Nodup
  readable : ∀ a ∈ dictionary, a.object.hasReadPermission = true →
    a.object.ptr ≠ (nullptr, nullptr) ∨ a.object.readFunc ≠ .noAccess
  writable : ∀ a ∈ dictionary, a.object.hasWritePermission = true →
    a.object.ptr ≠ (nullptr, nullptr) ∨ a.object.writeFunc ≠ .noAccess

/-! ## The assertions -/

theorem FuncPtr.isNoAccess_eq_false {φ : Type} (f : FuncPtr φ) :
    f.isNoAccess = false ↔ f ≠ .noAccess := by
  cases f with
  | null => exact ⟨fun _ => nofun, fun _ => rfl⟩
  | noAccess => exact ⟨fun wrong => absurd wrong nofun, fun wrong => absurd rfl wrong⟩
  | func f => exact ⟨fun _ => nofun, fun _ => rfl⟩

theorem ODEntry.distinctFrom_iff (a b : ODEntry w E) :
    a.distinctFrom b = true ↔ a.key ≠ b.key ∧ a.object.names ≠ b.object.names := by
  obtain ⟨⟨i, s⟩, o⟩ := a
  obtain ⟨⟨j, t⟩, o'⟩ := b
  simp [distinctFrom, ODObject.names, Prod.ext_iff, Classical.or_iff_not_imp_left]

theorem ODEntry.accessible_iff (a : ODEntry w E) :
    a.accessible = true ↔
      (a.object.hasReadPermission = true →
        a.object.ptr ≠ (nullptr, nullptr) ∨ a.object.readFunc ≠ .noAccess) ∧
      (a.object.hasWritePermission = true →
        a.object.ptr ≠ (nullptr, nullptr) ∨ a.object.writeFunc ≠ .noAccess) := by
  simp only [accessible, ODObject.hasDirectAccess, Bool.and_eq_true, Bool.or_eq_true,
    Bool.not_eq_true', FuncPtr.isNoAccess_eq_false, bne_iff_ne]
  cases a.object.hasReadPermission <;> cases a.object.hasWritePermission <;> simp [or_comm]

/-- The nested loops, as what they check of neighbours, of pairs and of entries. -/
theorem assertionsHold_iff (l : List (ODEntry w E)) :
    assertionsHold l = true ↔
      l.IsChain (fun a b => a.lt b = true) ∧ l.Pairwise (fun a b => a.distinctFrom b = true) ∧
        ∀ a ∈ l, a.accessible = true := by
  induction l with
  | nil => simp [assertionsHold]
  | cons a rest ih =>
      simp only [assertionsHold, Bool.and_eq_true, ih, List.all_eq_true, List.pairwise_cons,
        List.mem_cons, forall_eq_or_imp]
      cases rest with
      | nil => simp
      | cons next rest =>
          simp only [List.isChain_cons_cons]
          tauto

/-- Distinct keys in sorted order increase. -/
theorem increasing_of_sorted {l : List (ODEntry w E)}
    (sorted : l.Pairwise fun a b => b.lt a = false) (keys : (l.map ODEntry.key).Nodup) :
    l.Pairwise fun a b => a.lt b = true := by
  have distinct : l.Pairwise fun a b => a.key ≠ b.key := List.pairwise_map.mp keys
  refine (sorted.and distinct).imp ?_
  rintro a b ⟨noLater, other⟩
  rw [ODEntry.lt_eq, decide_eq_false_iff_not, not_lt] at noLater
  rw [ODEntry.lt_eq, decide_eq_true_iff]
  exact lt_of_le_of_ne noLater fun same => other (ODObjectKey.rank_injective same)

/-- The assertions hold of a sorted permutation exactly when the entries are acceptable. -/
theorem assertionsHold_of_sort {dictionary sorted : List (ODEntry w E)}
    (perm : sorted.Perm dictionary) (order : sorted.Pairwise fun a b => b.lt a = false) :
    assertionsHold sorted = true ↔ Acceptable dictionary := by
  have keys := (perm.map ODEntry.key).nodup_iff
  have names := (perm.map fun a => a.object.names).nodup_iff
  rw [assertionsHold_iff]
  constructor
  · rintro ⟨_, distinct, access⟩
    have each := distinct.imp fun {a b} here => (a.distinctFrom_iff b).mp here
    refine ⟨?_, ?_, ?_, ?_⟩
    · rw [← keys]
      exact List.pairwise_map.mpr (each.imp fun here => here.1)
    · rw [← names]
      exact List.pairwise_map.mpr (each.imp fun here => here.2)
    · intro a member
      exact ((a.accessible_iff).mp (access a (perm.mem_iff.mpr member))).1
    · intro a member
      exact ((a.accessible_iff).mp (access a (perm.mem_iff.mpr member))).2
  · intro acceptable
    have distinctKeys := keys.mpr acceptable.keys
    have increasing := increasing_of_sorted order distinctKeys
    refine ⟨increasing.isChain, ?_, ?_⟩
    · have keyPairs : sorted.Pairwise fun a b => a.key ≠ b.key := List.pairwise_map.mp distinctKeys
      have namePairs : sorted.Pairwise fun a b => a.object.names ≠ b.object.names :=
        List.pairwise_map.mp (names.mpr acceptable.names)
      exact (keyPairs.and namePairs).imp fun {a b} here => (a.distinctFrom_iff b).mpr here
    · intro a member
      have member' := perm.mem_iff.mp member
      exact (a.accessible_iff).mpr ⟨acceptable.readable a member', acceptable.writable a member'⟩

/-! ## Any sort will do -/

theorem mergeSort_spec : SortSpec (w := w) (E := E) fun l => l.mergeSort fun a b => !b.lt a := by
  intro l
  have trans : ∀ a b c : ODEntry w E, (!b.lt a) = true → (!c.lt b) = true → (!c.lt a) = true := by
    intro a b c first second
    simp only [ODEntry.lt_eq, Bool.not_eq_true', decide_eq_false_iff_not, not_lt] at first second ⊢
    exact first.trans second
  have total : ∀ a b : ODEntry w E, ((!b.lt a) || (!a.lt b)) = true := by
    intro a b
    simp only [ODEntry.lt_eq, Bool.or_eq_true, Bool.not_eq_true', decide_eq_false_iff_not, not_lt]
    exact le_total _ _
  exact ⟨List.mergeSort_perm _ _,
    (List.pairwise_mergeSort trans total l).imp fun {a b} order => by simpa using order⟩

theorem initWith_eq_some {sort : List (ODEntry w E) → List (ODEntry w E)}
    {dictionary : List (ODEntry w E)} {d : ObjectDictionary w E} :
    initWith sort dictionary = some d ↔ d.entries = sort dictionary := by
  unfold initWith
  constructor
  · intro ran
    split at ran
    · cases ran
      rfl
    · cases ran
  · intro same
    obtain ⟨entries, accepted⟩ := d
    obtain rfl : entries = sort dictionary := same
    rw [dif_pos accepted]

/-- What finds exactly the entries of a list agrees with a search of the list. -/
theorem find_of_exact {dictionary : List (ODEntry w E)} {key : ODObjectKey w}
    {result : Option (ODEntry w E)}
    (found : ∀ a, result = some a ↔ a ∈ dictionary ∧ a.key = key) :
    result = dictionary.find? fun a => a.key == key := by
  cases linear : dictionary.find? (fun a => a.key == key) with
  | some a =>
      have same : a.key = key := by simpa using List.find?_some linear
      exact (found a).mpr ⟨List.mem_of_find?_eq_some linear, same⟩
  | none =>
      rw [Option.eq_none_iff_forall_ne_some]
      intro a here
      obtain ⟨member, same⟩ := (found a).mp here
      exact absurd (List.find?_eq_none.mp linear a member) (by simp [same])

theorem none_iff_of_exact {dictionary : List (ODEntry w E)} {key : ODObjectKey w}
    {result : Option (ODEntry w E)}
    (found : ∀ a, result = some a ↔ a ∈ dictionary ∧ a.key = key) :
    result = none ↔ ∀ a ∈ dictionary, a.key ≠ key := by
  rw [Option.eq_none_iff_forall_ne_some]
  constructor
  · intro none a member same
    exact none a ((found a).mpr ⟨member, same⟩)
  · intro absent a here
    obtain ⟨member, same⟩ := (found a).mp here
    exact absent a member same

/-- The start-up is complete exactly on acceptable entries, sorts them, and the
    lookup then finds what a search of the unsorted entries finds. -/
theorem F4.lookup_exact (sort : List (ODEntry 8 E) → List (ODEntry 8 E)) (spec : SortSpec sort)
    (dictionary : List (ODEntry 8 E)) :
    ((initWith sort dictionary).isSome = true ↔ Acceptable dictionary) ∧
    ∀ d, initWith sort dictionary = some d →
      d.entries.Perm dictionary ∧
      d.entries.Pairwise (fun a b =>
        a.key.index < b.key.index ∨ a.key.index = b.key.index ∧ a.key.subindex < b.key.subindex) ∧
      ∀ key,
        findOdEntry d key = dictionary.find? (fun a => a.key == key) ∧
        (∀ a, findOdEntry d key = some a ↔ a ∈ dictionary ∧ a.key = key) ∧
        (findOdEntry d key = none ↔ ∀ a ∈ dictionary, a.key ≠ key) := by
  obtain ⟨perm, order⟩ := spec dictionary
  constructor
  · rw [← assertionsHold_of_sort perm order]
    unfold initWith
    split
    · exact ⟨fun _ => ‹_›, fun _ => rfl⟩
    · exact ⟨fun none => absurd none Bool.false_ne_true, fun held => absurd held ‹_›⟩
  · intro d ran
    have entries := initWith_eq_some.mp ran
    rw [← entries] at perm order
    have found : ∀ key a, findOdEntry d key = some a ↔ a ∈ dictionary ∧ a.key = key := by
      intro key a
      rw [findOdEntry_eq_some, perm.mem_iff]
    refine ⟨perm, ?_, fun key =>
      ⟨find_of_exact (found key), found key, none_iff_of_exact (found key)⟩⟩
    refine (increasing_of_sorted order d.keys_nodup).imp fun {a b} less => ?_
    simpa [ODEntry.lt] using less

/-- The sample dictionary, in the order someone might write it down. -/
def F4.unsortedSample : List (ODEntry 8 Unit) :=
  [F4.password, F4.limit, ⟨⟨0x1011, 4⟩, F4.restoreCommand⟩, F4.serial]

theorem F4.lookup_exact_unsortedSample :
    ((initWith (fun l => l.mergeSort fun a b => !b.lt a) F4.unsortedSample).isSome = true ↔
        Acceptable F4.unsortedSample) ∧
    ∀ d, initWith (fun l => l.mergeSort fun a b => !b.lt a) F4.unsortedSample = some d →
      d.entries.Perm F4.unsortedSample ∧
      d.entries.Pairwise (fun a b =>
        a.key.index < b.key.index ∨ a.key.index = b.key.index ∧ a.key.subindex < b.key.subindex) ∧
      ∀ key,
        findOdEntry d key = F4.unsortedSample.find? (fun a => a.key == key) ∧
        (∀ a, findOdEntry d key = some a ↔ a ∈ F4.unsortedSample ∧ a.key = key) ∧
        (findOdEntry d key = none ↔ ∀ a ∈ F4.unsortedSample, a.key ≠ key) :=
  F4.lookup_exact _ mergeSort_spec F4.unsortedSample

end Ucanopen
