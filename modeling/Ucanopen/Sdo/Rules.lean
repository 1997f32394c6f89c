import Ucanopen.Sdo.Steps

/-! # Two runs of one SDO request

A request reaches the machine through four elementary accesses of an entry: a
load, a store, a call of its read function and a call of its write function,
each behind the permission test of its path. Two runs of a request agree when
these do. The accesses may rely on a guard that they need not preserve; it has
to hold where a request starts and where it runs a restore.
-/

namespace Ucanopen

open Bytes Exec

variable {w : Nat} {E : Type}

/-- A relation between machines under which each access an entry admits agrees. -/
structure AccessRelation (entries : List (ODEntry w E)) (Guard R : Machine E → Machine E → Prop) :
    Prop where
  load : ∀ a ∈ entries, a.object.hasReadPermission = true → a.object.hasDirectAccess = true →
    ∀ data s t, Guard s t → R s t → Agree R ((a.object.load data).run s) ((a.object.load data).run t)
  store : ∀ a ∈ entries, a.object.hasWritePermission = true → a.object.hasDirectAccess = true →
    ∀ data s t, Guard s t → R s t →
      Agree R ((a.object.store data).run s) ((a.object.store data).run t)
  readFunc : ∀ a ∈ entries, ∀ f, a.object.readFunc = .func f → ∀ data s t, R s t →
    (f data s).1 = (f data t).1 ∧ R (f data s).2 (f data t).2
  writeFunc : ∀ a ∈ entries, ∀ f, a.object.writeFunc = .func f → ∀ data s t, R s t →
    (f data s).1 = (f data t).1 ∧ R (f data s).2 (f data t).2

namespace AccessRelation

variable {port : Port w E} {Guard R : Machine E → Machine E → Prop} {s t : Machine E}

theorem read (rel : AccessRelation port.dictionary.entries Guard R) {a : ODEntry w E}
    (member : a ∈ port.dictionary.entries) (permission : a.object.hasReadPermission = true)
    (data : ExpeditedSdoData) (guard : Guard s t) (related : R s t) :
    Agree R ((a.object.read data).run s) ((a.object.read data).run t) := by
  unfold ODObject.read
  cases direct : a.object.hasDirectAccess with
  | true =>
      apply Agree.bind (rel.load a member permission direct data s t guard related)
      intro data s' t' _ _ related
      exact .pure _ related
  | false =>
      simp only [Bool.false_eq_true, if_false]
      cases call : a.object.readFunc with
      | null => exact .throw _ related
      | noAccess => exact .pure _ related
      | func f => exact rel.readFunc a member f call data s t related

theorem write (rel : AccessRelation port.dictionary.entries Guard R) {a : ODEntry w E}
    (member : a ∈ port.dictionary.entries) (permission : a.object.hasWritePermission = true)
    (data : ExpeditedSdoData) (guard : Guard s t) (related : R s t) :
    Agree R ((a.object.write data).run s) ((a.object.write data).run t) := by
  unfold ODObject.write
  cases direct : a.object.hasDirectAccess with
  | true =>
      apply Agree.bind (rel.store a member permission direct data s t guard related)
      intro _ s' t' _ _ related
      exact .pure _ related
  | false =>
      simp only [Bool.false_eq_true, if_false]
      cases call : a.object.writeFunc with
      | null => exact .throw _ related
      | noAccess => exact .pure _ related
      | func f => exact rel.writeFunc a member f call data s t related

theorem restore (rel : AccessRelation port.dictionary.entries Guard R) (key : ODObjectKey w)
    (guard : Guard s t) (related : R s t) :
    Agree R ((port.restoreDefaultParameter key).run s)
      ((port.restoreDefaultParameter key).run t) := by
  unfold Port.restoreDefaultParameter
  cases found : port.find key with
  | none => exact .pure _ related
  | some a =>
      have member := ((port.find_eq_some key a).mp found).1
      cases value : a.object.defaultValue with
      | none =>
          simp only [value]
          exact .pure _ related
      | some defaultValue =>
          simp only [value]
          cases permission : a.object.hasWritePermission with
          | false => exact .pure _ related
          | true => exact rel.write member permission defaultValue guard related

theorem writeOrRestore (rel : AccessRelation port.dictionary.entries Guard R) {a : ODEntry w E}
    (member : a ∈ port.dictionary.entries) (permission : a.object.hasWritePermission = true)
    (data : ExpeditedSdoData) (guard : Guard s t) (related : R s t)
    (restores : ∀ s' t', (a.object.write data).run s = .ok .dataStoreError s' →
      (a.object.write data).run t = .ok .dataStoreError t' →
      a.key = restoreDefaultParameterKey w → Guard s' t') :
    Agree R ((port.writeOrRestore a data).run s) ((port.writeOrRestore a data).run t) := by
  apply Agree.bind (rel.write member permission data guard related)
  intro code s' t' left right related
  split
  · rename_i refused
    obtain ⟨rfl, key⟩ := refused
    exact rel.restore _ (restores s' t' left right key) related
  · exact .pure _ related

theorem dispatch (rel : AccessRelation port.dictionary.entries Guard R) (p : CanPayload)
    (guard : Guard s t) (related : R s t)
    (restores : ∀ key s' t', port.RestoreRun s p key s' → port.RestoreRun t p key t' →
      Guard s' t') :
    Agree R ((port.dispatch (ExpeditedSdo.fromPayload p)).run s)
      ((port.dispatch (ExpeditedSdo.fromPayload p)).run t) := by
  unfold Port.dispatch
  cases found : port.find (port.requestKey (ExpeditedSdo.fromPayload p)) with
  | none => exact .pure _ related
  | some a =>
      have member := ((port.find_eq_some _ a).mp found).1
      dsimp only
      by_cases reads : (ExpeditedSdo.fromPayload p).cs = SdoCsCodes.clientInitRead
      · rw [if_pos reads]
        unfold Port.readExpedited
        cases permission : a.object.hasReadPermission with
        | false => exact .pure _ related
        | true =>
            apply Agree.bind (rel.read member permission _ guard related)
            intro outcome s' t' _ _ related
            dsimp only
            split <;> exact .pure _ related
      · rw [if_neg reads]
        by_cases writes : (ExpeditedSdo.fromPayload p).cs = SdoCsCodes.clientInitWrite
        · rw [if_pos writes]
          unfold Port.writeExpedited
          cases permission : a.object.hasWritePermission with
          | false => exact .pure _ related
          | true =>
              refine .bind (rel.writeOrRestore member permission _ guard related ?_) ?_
              · intro s' t' left right key
                exact restores _ s' t' ⟨a, found, writes, permission, key, left, rfl⟩
                  ⟨a, found, writes, permission, key, right, rfl⟩
              · intro code s' t' _ _ related
                split <;> exact .pure _ related
        · rw [if_neg writes]
          exact .pure _ related

/-- Two runs of a request agree when every elementary access agrees. -/
theorem handleRequest (rel : AccessRelation port.dictionary.entries Guard R) (p : CanPayload)
    (guard : Guard s t) (related : R s t)
    (restores : ∀ key s' t', port.RestoreRun s p key s' → port.RestoreRun t p key t' →
      Guard s' t') :
    Agree R ((port.handleRequest p).run s) ((port.handleRequest p).run t) := by
  unfold Port.handleRequest
  dsimp only
  split
  · exact .pure _ related
  · apply Agree.bind (rel.dispatch p guard related restores)
    intro outcome s' t' _ _ related
    exact .pure _ related

end AccessRelation

end Ucanopen
