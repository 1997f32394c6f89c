import Mathlib.Data.List.Basic

/-! # First-in first-out queues of fixed capacity

The capacity bound is a field of the queue, so a queue that holds more than its
capacity cannot be built. `push` asks for the proof that there is room, which a
caller obtains from its own test of `full`.
-/

namespace Ucanopen

/-- A queue of at most `capacity` elements, oldest first. -/
structure BoundedQueue (α : Type*) (capacity : Nat) where
  items : List α
  bounded : items.length ≤ capacity

namespace BoundedQueue

variable {α : Type*} {n : Nat}

@[ext] theorem ext {p q : BoundedQueue α n} (same : p.items = q.items) : p = q := by
  cases p
  cases q
  simpa using same

/-- The queue right after construction. -/
def nil : BoundedQueue α n := ⟨[], n.zero_le⟩

def empty (q : BoundedQueue α n) : Bool := q.items.isEmpty

def full (q : BoundedQueue α n) : Bool := decide (q.items.length = n)

/-- Append behind the youngest element. -/
def push (q : BoundedQueue α n) (a : α) (room : q.full = false) : BoundedQueue α n :=
  ⟨q.items ++ [a], by
    have notFull : q.items.length ≠ n := by simpa [full] using room
    have bounded := q.bounded
    simp only [List.length_append, List.length_singleton]
    omega⟩

/-- The oldest element, when there is one. -/
def front? (q : BoundedQueue α n) : Option α := q.items.head?

/-- Drop the oldest element. -/
def pop (q : BoundedQueue α n) : BoundedQueue α n :=
  ⟨q.items.tail, by
    have bounded := q.bounded
    simp only [List.length_tail]
    omega⟩

@[simp] theorem items_nil : (nil : BoundedQueue α n).items = [] := rfl

@[simp] theorem items_push (q : BoundedQueue α n) (a : α) (room : q.full = false) :
    (q.push a room).items = q.items ++ [a] := rfl

@[simp] theorem items_pop (q : BoundedQueue α n) : q.pop.items = q.items.tail := rfl

@[simp] theorem full_iff (q : BoundedQueue α n) : q.full = true ↔ q.items.length = n := by
  simp [full]

/-- A queue with a front is that front followed by the queue after `pop`. -/
theorem items_of_front (q : BoundedQueue α n) {a : α} (front : q.front? = some a) :
    q.items = a :: q.pop.items :=
  (List.cons_head?_tail front).symm

theorem items_of_no_front (q : BoundedQueue α n) (front : q.front? = none) : q.items = [] :=
  List.head?_eq_none_iff.mp front

end BoundedQueue

end Ucanopen
