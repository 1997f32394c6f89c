import Mathlib.Data.List.Basic

/-! # Programs with a state that may stop for good

A program reads and changes a state and either returns a value or stops with a
fault; `EStateM` keeps the state in both cases. Two runs of such programs agree
when they return the same value, or stop with the same fault, in related states.
-/

namespace Ucanopen.Exec

variable {ε σ α β : Type}

/-- The state a program ends in, whether it returned or stopped. -/
def final : EStateM.Result ε σ α → σ
  | .ok _ s => s
  | .error _ s => s

@[simp] theorem final_ok (a : α) (s : σ) : final (.ok a s : EStateM.Result ε σ α) = s := rfl

@[simp] theorem final_error (e : ε) (s : σ) :
    final (.error e s : EStateM.Result ε σ α) = s := rfl

/-- The result with its value replaced. -/
def mapResult (f : α → β) : EStateM.Result ε σ α → EStateM.Result ε σ β
  | .ok a s => .ok (f a) s
  | .error e s => .error e s

@[simp] theorem final_mapResult (f : α → β) (r : EStateM.Result ε σ α) :
    final (mapResult f r) = final r := by
  cases r <;> rfl

theorem mapResult_mapResult {γ : Type} (g : β → γ) (f : α → β) (r : EStateM.Result ε σ α) :
    mapResult g (mapResult f r) = mapResult (g ∘ f) r := by
  cases r <;> rfl

theorem mapResult_injective {f : α → β} (injective : Function.Injective f) :
    Function.Injective (mapResult f : EStateM.Result ε σ α → EStateM.Result ε σ β) := by
  intro r r' same
  cases r with
  | ok a s =>
      cases r' with
      | ok b t =>
          obtain ⟨value, rfl⟩ := EStateM.Result.ok.inj same
          rw [injective value]
      | error => exact absurd same nofun
  | error e s =>
      cases r' with
      | ok => exact absurd same nofun
      | error f t =>
          obtain ⟨rfl, rfl⟩ := EStateM.Result.error.inj same
          rfl

/-- The program returned, with whatever value. -/
def Returns : EStateM.Result ε σ α → Prop
  | .ok _ _ => True
  | .error _ _ => False

theorem Returns.mapResult {f : α → β} {r : EStateM.Result ε σ α} (returns : Returns r) :
    Returns (mapResult f r) := by
  cases r with
  | ok a s => trivial
  | error e s => exact returns.elim

/-- A program followed by a pure computation. -/
theorem run_map_pure (x : EStateM ε σ α) (f : α → β) (s : σ) :
    (x >>= fun a => pure (f a)).run s = mapResult f (x.run s) := by
  rw [EStateM.run_bind]
  cases x.run s <;> rfl

/-- Two results agree: the same value or the same fault, in related states. -/
def Agree (R : σ → σ → Prop) : EStateM.Result ε σ α → EStateM.Result ε σ α → Prop
  | .ok a s, .ok b t => a = b ∧ R s t
  | .error e s, .error f t => e = f ∧ R s t
  | _, _ => False

namespace Agree

variable {R : σ → σ → Prop} {s t : σ}

theorem pure (a : α) (related : R s t) :
    Agree R ((Pure.pure a : EStateM ε σ α).run s) ((Pure.pure a : EStateM ε σ α).run t) :=
  ⟨rfl, related⟩

theorem throw (e : ε) (related : R s t) :
    Agree R ((MonadExcept.throw e : EStateM ε σ α).run s)
      ((MonadExcept.throw e : EStateM ε σ α).run t) :=
  ⟨rfl, related⟩

/-- The second parts need only agree after runs of the first parts. -/
theorem bind {x y : EStateM ε σ α} {f g : α → EStateM ε σ β}
    (first : Agree R (x.run s) (y.run t))
    (next : ∀ a s' t', x.run s = .ok a s' → y.run t = .ok a t' → R s' t' →
      Agree R ((f a).run s') ((g a).run t')) :
    Agree R ((x >>= f).run s) ((y >>= g).run t) := by
  rw [EStateM.run_bind, EStateM.run_bind]
  cases left : x.run s with
  | ok a s' =>
      cases right : y.run t with
      | ok b t' =>
          rw [left, right] at first
          obtain ⟨rfl, related⟩ := first
          exact next a s' t' left right related
      | error =>
          rw [left, right] at first
          exact first.elim
  | error =>
      cases right : y.run t with
      | ok =>
          rw [left, right] at first
          exact first.elim
      | error =>
          rw [left, right] at first
          exact first

end Agree

/-- Wherever the first program returns, the second returns the same. -/
def Refines (x y : EStateM ε σ α) : Prop := ∀ s a s', x.run s = .ok a s' → y.run s = .ok a s'

namespace Refines

theorem refl (x : EStateM ε σ α) : Refines x x := fun _ _ _ ran => ran

theorem throw (e : ε) (y : EStateM ε σ α) : Refines (MonadExcept.throw e) y :=
  fun _ _ _ ran => absurd ran nofun

theorem bind {x y : EStateM ε σ α} {f g : α → EStateM ε σ β} (first : Refines x y)
    (next : ∀ a, Refines (f a) (g a)) : Refines (x >>= f) (y >>= g) := by
  intro s b s' ran
  rw [EStateM.run_bind] at ran ⊢
  cases left : x.run s with
  | ok a t =>
      rw [left] at ran
      rw [first s a t left]
      exact next a t b s' ran
  | error e t =>
      rw [left] at ran
      exact absurd ran nofun

end Refines

end Ucanopen.Exec
