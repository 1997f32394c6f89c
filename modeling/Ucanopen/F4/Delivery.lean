import Ucanopen.F4.Routing
import Ucanopen.F4.Handle
import Mathlib.Data.List.Nodup

/-! # Delivery of RPDO frames

A frame passes three tests on its way to a handler: `rxattr_map_` has its
attribute if the slot has a handler, `recv` takes the first slot with the
attribute whether it has a handler or not, and `handle` calls the handlers that
are there. The constructor leaves the attributes of the slots indeterminate, so
a slot that nobody registered may take the frame of a later one.
-/

namespace Ucanopen.F4

open Ucanopen.Reception

variable {n : Nat} {α φ : Type}

/-- A frame, with the attribute and the time it is received with. -/
structure Incoming (α : Type) where
  attr : α
  frame : CanFrame
  time : Int

namespace Server

/-- A frame and the pass of `handle` after it: the server, and the handlers called. -/
def serve [DecidableEq α] (s : Server α φ) (f : Incoming α) :
    Server α φ × List (Fin 4 × CanPayload) :=
  let received := s.onFrameReceived f.attr f.frame f.time
  let pass := RpdoService.handle received.rpdoService
  ({ received with rpdoService := pass.1 }, pass.2)

/-- The frame went to the handler that is registered for it and to no other, and
    the pass left no slot unhandled. -/
def Delivered [DecidableEq α] (s : Server α φ) (f : Incoming α) : Prop :=
  (∀ i, (s.rpdoService i).attr = f.attr → (s.rpdoService i).handler.isSome = true →
    (s.serve f).2 = [(i, f.frame.payload)]) ∧
  ∀ i, ((s.serve f).1.rpdoService i).unhandled = false

/-- No slot without a handler that comes before the registered one has its attribute. -/
def Unshadowed (t : Table 4 α φ) (attr : α) : Prop :=
  ∀ i, (t i).attr = attr → (t i).handler.isSome = true →
    ∀ k < i, (t k).handler = none → (t k).attr ≠ attr

end Server

/-! ## One frame -/

/-- `std::find_if` takes the first slot. -/
theorem slotOf_first [DecidableEq α] {t : Table n α φ} {attr : α} {i : Fin n}
    (found : slotOf t attr = some i) {k : Fin n} (before : k < i) : (t k).attr ≠ attr := by
  obtain ⟨_, j, inside, here, first⟩ := List.find?_eq_some_iff_getElem.mp found
  rw [List.getElem_finRange] at here
  have earlier : (k : Nat) < j := by
    have position : (i : Nat) = j := by rw [← here]; rfl
    rw [← position]
    exact before
  have not := first k earlier
  simpa using not

theorem slotOf_of_attr [DecidableEq α] {t : Table n α φ} {attr : α} {j : Fin n}
    (has : (t j).attr = attr) : ∃ i, slotOf t attr = some i := by
  cases found : slotOf t attr with
  | some i => exact ⟨i, rfl⟩
  | none =>
      have absent := List.find?_eq_none.mp found j (List.mem_finRange j)
      exact absurd (decide_eq_true has) absent

/-- In a table where nothing is pending, storing a frame makes one slot due. -/
theorem due_store {t : Table n α φ} (idle : ∀ i, (t i).unhandled = false) (i j : Fin n)
    (frame : CanFrame) (now : Int) :
    due (store t i frame now) j = true ↔ j = i ∧ (t i).handler.isSome = true := by
  unfold due
  by_cases same : j = i
  · subst same
    simp
  · simp [same, idle j]

theorem handle_store_calls {t : Table 4 α φ} (idle : ∀ i, (t i).unhandled = false) {i : Fin 4}
    (wants : (t i).handler.isSome = true) (frame : CanFrame) (now : Int) :
    (RpdoService.handle (store t i frame now)).2 = [(i, frame.payload)] := by
  have only : (List.finRange 4).filter (due (store t i frame now)) = [i] := by
    apply List.perm_singleton.mp
    apply (List.perm_ext_iff_of_nodup ((List.nodup_finRange 4).filter _)
      (List.nodup_singleton i)).mpr
    intro j
    simp [due_store idle, wants]
  unfold RpdoService.handle
  rw [handleSlots_calls (List.nodup_finRange 4), only]
  simp

theorem handle_store_unhandled {t : Table 4 α φ} (idle : ∀ i, (t i).unhandled = false) (i j : Fin 4)
    (frame : CanFrame) (now : Int) :
    ((RpdoService.handle (store t i frame now)).1 j).unhandled = false ↔
      j = i → (t i).handler.isSome = true := by
  unfold RpdoService.handle
  rw [handleSlots_table]
  by_cases same : j = i
  · subst same
    by_cases wants : (t j).handler.isSome = true
    · simp [due_store idle, wants]
    · simp [due_store idle, wants]
  · simp [due_store idle, same, idle j]

theorem handle_store_attr (t : Table 4 α φ) (i j : Fin 4) (frame : CanFrame) (now : Int) :
    ((RpdoService.handle (store t i frame now)).1 j).attr = (t j).attr ∧
      ((RpdoService.handle (store t i frame now)).1 j).handler = (t j).handler := by
  unfold RpdoService.handle
  rw [handleSlots_table]
  by_cases same : j = i
  · subst same
    split <;> simp
  · split <;> simp [same]

namespace Server

/-- Before a frame arrives: nothing is pending, and each attribute a handler waits
    for belongs to one slot and is routed to the RPDO service. -/
structure Ready [DecidableEq α] (s : Server α φ) : Prop where
  idle : ∀ i, (s.rpdoService i).unhandled = false
  apart : ∀ i j, (s.rpdoService i).handler.isSome = true →
    (s.rpdoService j).handler.isSome = true →
    (s.rpdoService i).attr = (s.rpdoService j).attr → i = j
  routed : ∀ i, (s.rpdoService i).handler.isSome = true →
    s.receiver (s.rpdoService i).attr = some .rpdoService

namespace Ready

variable [DecidableEq α] {s : Server α φ} {f : Incoming α}

theorem serve_eq (ready : Ready s) {i j : Fin 4} (has : (s.rpdoService j).attr = f.attr)
    (wants : (s.rpdoService j).handler.isSome = true)
    (found : slotOf s.rpdoService f.attr = some i) :
    s.serve f =
      ({ s with
        rpdoService := (RpdoService.handle (store s.rpdoService i f.frame f.time)).1 },
        (RpdoService.handle (store s.rpdoService i f.frame f.time)).2) := by
  have routed := ready.routed j wants
  rw [has] at routed
  have stored : RpdoService.recv s.rpdoService f.attr f.frame f.time =
      (.stored i, store s.rpdoService i f.frame f.time) := by
    unfold RpdoService.recv recvLocked
    rw [found]
    exact if_neg (by simp [ready.idle i])
  unfold serve onFrameReceived
  simp only [routed, stored]

theorem delivered_iff (ready : Ready s) {j : Fin 4} (has : (s.rpdoService j).attr = f.attr)
    (wants : (s.rpdoService j).handler.isSome = true) :
    Delivered s f ↔ Unshadowed s.rpdoService f.attr := by
  obtain ⟨i, found⟩ := slotOf_of_attr has
  have attr := attr_of_slotOf found
  unfold Delivered
  rw [ready.serve_eq has wants found]
  constructor
  · rintro ⟨_, cleared⟩ j' has' wants' k before _
    have registered : (s.rpdoService i).handler.isSome = true :=
      (handle_store_unhandled ready.idle i i f.frame f.time).mp (cleared i) rfl
    obtain rfl := ready.apart i j' registered wants' (attr.trans has'.symm)
    exact slotOf_first found before
  · intro unshadowed
    have registered : (s.rpdoService i).handler.isSome = true := by
      rcases lt_trichotomy i j with before | rfl | after
      · cases none : (s.rpdoService i).handler with
        | none => exact absurd attr (unshadowed j has wants i before none)
        | some handler => rfl
      · exact wants
      · exact absurd has (slotOf_first found after)
    constructor
    · intro j' has' wants'
      obtain rfl := ready.apart i j' registered wants' (attr.trans has'.symm)
      exact handle_store_calls ready.idle registered f.frame f.time
    · intro k
      exact (handle_store_unhandled ready.idle i k f.frame f.time).mpr fun _ => registered

/-- A listed frame changes neither attributes nor handlers nor routes. -/
theorem serve_kept (ready : Ready s) {j : Fin 4} (has : (s.rpdoService j).attr = f.attr)
    (wants : (s.rpdoService j).handler.isSome = true) :
    (∀ i, ((s.serve f).1.rpdoService i).attr = (s.rpdoService i).attr ∧
      ((s.serve f).1.rpdoService i).handler = (s.rpdoService i).handler) ∧
    (s.serve f).1.rxattrMap = s.rxattrMap := by
  obtain ⟨i, found⟩ := slotOf_of_attr has
  rw [ready.serve_eq has wants found]
  exact ⟨fun k => handle_store_attr s.rpdoService i k f.frame f.time, rfl⟩

theorem next (ready : Ready s) {j : Fin 4} (has : (s.rpdoService j).attr = f.attr)
    (wants : (s.rpdoService j).handler.isSome = true) (delivered : Delivered s f) :
    Ready (s.serve f).1 := by
  obtain ⟨kept, map⟩ := ready.serve_kept has wants
  refine ⟨delivered.2, ?_, ?_⟩
  · intro i k
    rw [(kept i).1, (kept i).2, (kept k).1, (kept k).2]
    exact ready.apart i k
  · intro i
    unfold receiver
    rw [(kept i).1, (kept i).2, map]
    exact ready.routed i

theorem delivered_all_iff (ready : Ready s) {frames : List (Incoming α)}
    (listed : ∀ f ∈ frames, f.attr ∈ RpdoService.getRxAttr s.rpdoService) :
    Run.StepsMeet (fun s f => (s.serve f).1) Delivered s frames ↔
      ∀ f ∈ frames, Unshadowed s.rpdoService f.attr := by
  induction frames generalizing s with
  | nil => exact ⟨fun _ _ => nofun, fun _ => trivial⟩
  | cons f frames ih =>
      obtain ⟨j, has, wants⟩ := mem_rpdo_attrs.mp (listed f (.head _))
      obtain ⟨kept, _⟩ := ready.serve_kept (f := f) has wants
      have listed' : ∀ g ∈ frames, g.attr ∈ RpdoService.getRxAttr (s.serve f).1.rpdoService := by
        intro g member
        obtain ⟨k, has', wants'⟩ := mem_rpdo_attrs.mp (listed g (.tail _ member))
        rw [← (kept k).1] at has'
        rw [← (kept k).2] at wants'
        exact mem_rpdo_attrs.mpr ⟨k, has', wants'⟩
      have same : ∀ a, Unshadowed (s.serve f).1.rpdoService a ↔ Unshadowed s.rpdoService a := by
        intro a
        simp only [Unshadowed, (kept _).1, (kept _).2]
      rw [List.forall_mem_cons]
      constructor
      · rintro ⟨delivered, later⟩
        have rest := (ih (ready.next has wants delivered) listed').mp later
        exact ⟨(ready.delivered_iff has wants).mp delivered,
          fun g member => (same _).mp (rest g member)⟩
      · rintro ⟨unshadowed, rest⟩
        have delivered := (ready.delivered_iff has wants).mpr unshadowed
        refine ⟨delivered, (ih (ready.next has wants delivered) listed').mpr ?_⟩
        intro g member
        exact (same _).mpr (rest g member)

end Ready

/-! ## After the first start -/

/-- The attributes of the slots with a handler differ. -/
def Apart (t : Table 4 α φ) : Prop :=
  ∀ i j, (t i).handler.isSome = true → (t j).handler.isSome = true → (t i).attr = (t j).attr → i = j

theorem apart_step {s : Server α φ} {returned : List α} (owned : Owned s returned)
    (apart : Apart s.rpdoService) (c : Call α φ) (fresh : (returned ++ c.attr?.toList).Nodup) :
    Apart (s.step c).rpdoService := by
  cases c with
  | registerRpdo rpdo attr timeout handler now =>
      have isNew : attr ∉ returned := fun old =>
        (List.nodup_append.mp fresh).2.2 attr old attr (by simp [Call.attr?]) rfl
      have other : ∀ i, (s.rpdoService i).handler.isSome = true → (s.rpdoService i).attr ≠ attr :=
        fun i wants same => isNew (owned.mem attr .rpdoService ⟨i, same, wants⟩)
      intro i j wants wants' same
      by_cases first : i = rpdo
      · by_cases second : j = rpdo
        · exact first.trans second.symm
        · simp only [step, RpdoService.registerRpdo, first, Function.update_self,
            Function.update_of_ne second] at wants' same
          exact absurd same.symm (other j wants')
      · by_cases second : j = rpdo
        · simp only [step, RpdoService.registerRpdo, second, Function.update_self,
            Function.update_of_ne first] at wants same
          exact absurd same (other i wants)
        · simp only [step, RpdoService.registerRpdo, Function.update_of_ne first,
            Function.update_of_ne second] at wants wants' same
          exact apart i j wants wants' same
  | _ => exact apart

theorem apart_run {s : Server α φ} {returned : List α} (owned : Owned s returned)
    (apart : Apart s.rpdoService) {calls : List (Call α φ)}
    (fresh : (returned ++ attrs calls).Nodup) : Apart (Run.run step s calls).rpdoService := by
  induction calls generalizing s returned with
  | nil => exact apart
  | cons c calls ih =>
      rw [attrs_cons, ← List.append_assoc] at fresh
      have first := List.Nodup.of_append_left fresh
      exact ih (owned.step c first) (apart_step owned apart c first) fresh

theorem registered_run {s : Server α φ} (registered : RpdoService.Registered s.rpdoService)
    (calls : List (Call α φ)) : RpdoService.Registered (Run.run step s calls).rpdoService := by
  apply Run.invariant (fun s : Server α φ => RpdoService.Registered s.rpdoService) registered
  intro s c before
  cases c with
  | registerRpdo rpdo attr timeout handler now => exact .register rpdo attr timeout handler now before
  | _ => exact before

theorem ready_of_start [DecidableEq α] (attr : Fin 4 → α) (frame : Fin 4 → CanFrame)
    (rsdoRxattr : α) (node : NodeId) {calls : List (Call α φ)} (first : .start ∉ calls)
    (fresh : (rsdoRxattr :: attrs calls).Nodup) :
    Ready (Run.run step (init attr frame rsdoRxattr node) calls).start := by
  have owned := (Owned.init (φ := φ) attr frame rsdoRxattr node).run calls fresh
  have built : (Run.run step (init attr frame rsdoRxattr node) calls).start.rxattrMap =
      (Run.run step (init attr frame rsdoRxattr node) calls).routes :=
    if_pos (by simp [map_before_start (s := init attr frame rsdoRxattr node) rfl first])
  refine ⟨(registered_run (.init attr frame) calls).idle, ?_, ?_⟩
  · exact apart_run (.init attr frame rsdoRxattr node) (fun _ _ wants => absurd wants nofun) fresh
  · intro i wants
    have holds : (Run.run step (init attr frame rsdoRxattr node) calls).Holds
        ((Run.run step (init attr frame rsdoRxattr node) calls).rpdoService i).attr .rpdoService :=
      ⟨i, rfl, wants⟩
    exact receiver_eq_some built holds fun owner holds' => owned.unique _ _ _ holds' holds

/-- After the first start, every frame of a sequence that is listed for the RPDO
    service reaches the handler registered for it exactly when no slot without a
    handler comes before that handler's slot with the same attribute. -/
theorem delivered_iff_unshadowed [DecidableEq α] (attr : Fin 4 → α) (frame : Fin 4 → CanFrame)
    (rsdoRxattr : α) (node : NodeId) (calls : List (Call α φ)) (first : .start ∉ calls)
    (fresh : (rsdoRxattr :: attrs calls).Nodup) (frames : List (Incoming α)) :
    let s := (Run.run step (init attr frame rsdoRxattr node) calls).start
    (∀ f ∈ frames, f.attr ∈ RpdoService.getRxAttr s.rpdoService) →
      (Run.StepsMeet (fun s f => (s.serve f).1) Delivered s frames ↔
        ∀ f ∈ frames, Unshadowed s.rpdoService f.attr) := by
  intro s listed
  exact (ready_of_start attr frame rsdoRxattr node first fresh).delivered_all_iff listed

section Shadowed

/-- RPDO2 is registered and got the attribute 7. -/
def secondRpdo : List (Call Nat Unit) := [.registerRpdo rpdo2 7 100 (some ()) 0]

/-- The server after its first start, when the slot of RPDO1 happened to contain
    `leftover`. -/
def withLeftover (leftover : Nat) : Server Nat Unit :=
  (Run.run step (init (fun _ => leftover) (fun _ => ⟨0, 0, 0⟩) 5 ⟨1⟩) secondRpdo).start

/-- A frame for RPDO2. -/
def forRpdo2 : Incoming Nat := ⟨7, ⟨0x301, 8, 1⟩, 0⟩

/-- RPDO1 takes the frame of RPDO2, and keeps it. -/
theorem shadowed_not_delivered :
    forRpdo2.attr ∈ RpdoService.getRxAttr (withLeftover 7).rpdoService ∧
      (withLeftover 7).receiver forRpdo2.attr = some .rpdoService ∧
      ((withLeftover 7).serve forRpdo2).2 = [] ∧
      (((withLeftover 7).serve forRpdo2).1.rpdoService 0).unhandled = true := by
  decide +kernel

theorem delivered_iff_unshadowed_secondRpdo :
    Run.StepsMeet (fun s f => (s.serve f).1) Delivered (withLeftover 0) [forRpdo2, forRpdo2] ↔
      ∀ f ∈ [forRpdo2, forRpdo2], Unshadowed (withLeftover 0).rpdoService f.attr :=
  delivered_iff_unshadowed (fun _ => 0) (fun _ => ⟨0, 0, 0⟩) 5 ⟨1⟩ secondRpdo
    (by simp [secondRpdo]) (by decide) [forRpdo2, forRpdo2] (by decide +kernel)

end Shadowed

end Server

end Ucanopen.F4
