import Mathlib.Data.List.Pairwise
import Mathlib.Order.Lattice

/-! # Binary search in a sorted sequence

`partitionPoint` is the halving loop of `std::lower_bound` and
`std::upper_bound`, which differ in the predicate only, and `equalRange` is
`std::equal_range`. On a sequence the predicate splits into a true prefix and a
false rest, the loop finds the split; on one strictly sorted by a key, the
range of a key is the one element with that key, or empty.
-/

namespace Ucanopen.SortedSearch

variable {α κ : Type*}

/-- One round per unit of `fuel`: compare the element in the middle of the
    `count` candidates from `first` on, and keep one half of them. -/
def search (p : α → Bool) (l : List α) : (fuel first count : Nat) → Nat
  | 0, first, _ => first
  | fuel + 1, first, count =>
      if count = 0 then first
      else if (l[first + count / 2]?).any p then
        search p l fuel (first + count / 2 + 1) (count - (count / 2 + 1))
      else search p l fuel first (count / 2)

/-- The first position whose element does not satisfy `p`. -/
def partitionPoint (p : α → Bool) (l : List α) : Nat := search p l l.length 0 l.length

/-- The positions between the elements below a key and the elements above it. -/
def equalRange (below above : α → Bool) (l : List α) : Nat × Nat :=
  (partitionPoint below l, partitionPoint (fun a => !above a) l)

/-- The loop keeps the split `n` among its candidates and stops at it. -/
theorem search_eq {p : α → Bool} {l : List α} {n : Nat}
    (split : ∀ i (inside : i < l.length), p l[i] = decide (i < n)) :
    ∀ fuel first count, count ≤ fuel → first ≤ n → n ≤ first + count →
      first + count ≤ l.length → search p l fuel first count = n := by
  intro fuel
  induction fuel with
  | zero =>
      intro first count enough low high _
      simp only [search]
      omega
  | succ fuel ih =>
      intro first count enough low high bound
      simp only [search]
      by_cases none : count = 0
      · rw [if_pos none]
        omega
      · have inside : first + count / 2 < l.length := by omega
        have middle : (l[first + count / 2]?).any p = decide (first + count / 2 < n) := by
          rw [List.getElem?_eq_getElem inside, Option.any_some, split _ inside]
        rw [if_neg none, middle]
        split
        · rename_i left
          have left : first + count / 2 < n := of_decide_eq_true left
          exact ih _ _ (by omega) (by omega) (by omega) (by omega)
        · rename_i right
          have right : ¬ first + count / 2 < n := fun lt => right (decide_eq_true lt)
          exact ih _ _ (by omega) (by omega) (by omega) (by omega)

/-- A predicate that no later element satisfies unless all earlier ones do
    holds exactly of the elements before its count. -/
theorem split_at_count {p : α → Bool} {l : List α} (falling : l.Pairwise fun a b => p b → p a) :
    ∀ i (inside : i < l.length), p l[i] = decide (i < l.countP p) := by
  induction l with
  | nil => intro i inside; simp at inside
  | cons a l ih =>
      obtain ⟨head, tail⟩ := List.pairwise_cons.mp falling
      intro i inside
      cases first : p a with
      | true =>
          cases i with
          | zero => simp [first]
          | succ i => simpa [List.countP_cons, first] using ih tail i (by simpa using inside)
      | false =>
          have rest : ∀ b ∈ l, p b = false := by
            intro b member
            cases value : p b with
            | false => rfl
            | true => simpa [first] using head b member value
          have noneLeft : l.countP p = 0 := by
            rw [List.countP_eq_zero]
            exact fun b member => by simp [rest b member]
          cases i with
          | zero => simp [first, noneLeft]
          | succ i =>
              simpa [first, noneLeft] using rest _ (List.getElem_mem (by simpa using inside))

theorem partitionPoint_eq_countP {p : α → Bool} {l : List α}
    (falling : l.Pairwise fun a b => p b → p a) : partitionPoint p l = l.countP p :=
  search_eq (split_at_count falling) _ _ _ (Nat.le_refl _) (Nat.zero_le _)
    (by simpa using List.countP_le_length) (by simp)

section Sorted

variable [LinearOrder κ] {key : α → κ} {l : List α}

/-- The first bound of the range of `k` counts the elements below it. -/
theorem equalRange_fst (sorted : l.Pairwise fun a b => key a < key b) (k : κ) (above : α → Bool) :
    (equalRange (fun a => decide (key a < k)) above l).1 = l.countP fun a => decide (key a < k) :=
  partitionPoint_eq_countP (sorted.imp fun lt h => by
    simp only [decide_eq_true_eq] at h ⊢
    exact lt.trans h)

theorem equalRange_snd (sorted : l.Pairwise fun a b => key a < key b) (k : κ) (below : α → Bool) :
    (equalRange below (fun a => decide (k < key a)) l).2 =
      l.countP fun a => !decide (k < key a) :=
  partitionPoint_eq_countP (sorted.imp fun lt h => by
    simp only [Bool.not_eq_true', decide_eq_false_iff_not, not_lt] at h ⊢
    exact lt.le.trans h)

/-- When every key lies above `k`, both bounds of its range are at the start. -/
theorem counts_above {k : κ} (above : ∀ a ∈ l, k < key a) :
    l.countP (fun a => decide (key a < k)) = 0 ∧ l.countP (fun a => !decide (k < key a)) = 0 := by
  constructor
  · rw [List.countP_eq_zero]
    exact fun a member => by simpa using (above a member).le
  · rw [List.countP_eq_zero]
    exact fun a member => by simpa using above a member

/-- Looking a key up in a strictly sorted sequence: the element at the start of
    its range, unless the range is empty, is the element with that key. -/
theorem equalRange_lookup (sorted : l.Pairwise fun a b => key a < key b) (k : κ) (a : α) :
    (if (equalRange (fun a => decide (key a < k)) (fun a => decide (k < key a)) l).1 =
        (equalRange (fun a => decide (key a < k)) (fun a => decide (k < key a)) l).2 then none
      else l[(equalRange (fun a => decide (key a < k)) (fun a => decide (k < key a)) l).1]?) =
        some a ↔ a ∈ l ∧ key a = k := by
  rw [equalRange_fst sorted, equalRange_snd sorted]
  induction l with
  | nil => simp
  | cons b l ih =>
      obtain ⟨head, tail⟩ := List.pairwise_cons.mp sorted
      have ih := ih tail
      rcases lt_trichotomy (key b) k with below | same | above
      · have shift : ∀ n m : Nat, (n + 1 = m + 1) = (n = m) := fun n m => by simp
        simp only [List.countP_cons, below, not_lt_of_gt below, decide_true, decide_false,
          Bool.not_false, if_true, shift, List.getElem?_cons_succ, ih, List.mem_cons]
        constructor
        · exact fun ⟨member, found⟩ => ⟨.inr member, found⟩
        · rintro ⟨rfl | member, found⟩
          · exact absurd found below.ne
          · exact ⟨member, found⟩
      · have later : ∀ c ∈ l, k < key c := fun c member => same ▸ head c member
        obtain ⟨noneBelow, noneUpTo⟩ := counts_above later
        simp only [List.countP_cons, same, lt_irrefl, decide_false, Bool.not_false, noneBelow,
          noneUpTo, Bool.false_eq_true, if_false, if_true, Nat.zero_add, Nat.zero_ne_one,
          List.getElem?_cons_zero, Option.some.injEq, List.mem_cons]
        constructor
        · rintro rfl
          exact ⟨.inl rfl, same⟩
        · rintro ⟨rfl | member, found⟩
          · rfl
          · exact absurd found (later a member).ne'
      · have later : ∀ c ∈ l, k < key c := fun c member => above.trans (head c member)
        obtain ⟨noneBelow, noneUpTo⟩ := counts_above later
        have absent : ¬ (a ∈ b :: l ∧ key a = k) := by
          rintro ⟨member, found⟩
          rcases List.mem_cons.mp member with rfl | member
          · exact above.ne' found
          · exact (later a member).ne' found
        refine iff_of_false ?_ absent
        simp [above, not_lt_of_gt above, noneBelow, noneUpTo]

end Sorted

end Ucanopen.SortedSearch
