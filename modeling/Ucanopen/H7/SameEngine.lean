import Ucanopen.Sdo.Execute
import Ucanopen.F4.Parameters

/-! # The SDO engines of the two ports

The F4 and the H7 engine are given the same dictionary, with the keys widened
from 8 to 16 bits of subindex. They execute every request alike, except for a
restore whose fourth data byte is not zero: the H7 key takes that byte into the
subindex, the F4 key leaves it out.
-/

namespace Ucanopen.H7

open Bytes Exec

variable {E : Type}

def widenKey (key : ODObjectKey 8) : ODObjectKey 16 := ⟨key.index, key.subindex.setWidth 16⟩

theorem widenKey_injective : Function.Injective widenKey := by
  intro a b same
  obtain ⟨index, subindex⟩ := a
  obtain ⟨index', subindex'⟩ := b
  obtain ⟨rfl, wide⟩ := ODObjectKey.mk.inj same
  have narrow := congrArg (BitVec.setWidth 8) wide
  simp only [BitVec.setWidth_setWidth_of_le _ (by decide : 8 ≤ 16), BitVec.setWidth_eq] at narrow
  rw [narrow]

def widen (a : ODEntry 8 E) : ODEntry 16 E := ⟨widenKey a.key, a.object⟩

theorem byte_of_argKey {data : ExpeditedSdoData} {key : ODObjectKey 8}
    (narrow : argKey data = widenKey key) : byte data 3 = 0 := by
  have high := congrArg BitVec.toNat (congrArg ODObjectKey.subindex narrow)
  have small := key.subindex.isLt
  simp only [argKey, widenKey, BitVec.extractLsb'_toNat, BitVec.toNat_setWidth,
    Nat.shiftRight_eq_div_pow] at high
  apply BitVec.eq_of_toNat_eq
  simp only [byte, BitVec.extractLsb'_toNat, Nat.shiftRight_eq_div_pow, BitVec.ofNat_eq_ofNat,
    BitVec.toNat_ofNat]
  omega

/-- When the fourth data byte is zero, the two ports read the same key. -/
theorem argKey_of_byte {data : ExpeditedSdoData} (zero : byte data 3 = 0) :
    argKey data = widenKey (F4.argKey data) := by
  have high := congrArg BitVec.toNat zero
  simp only [byte, BitVec.extractLsb'_toNat, Nat.shiftRight_eq_div_pow, BitVec.ofNat_eq_ofNat,
    BitVec.toNat_ofNat] at high
  apply congrArg (ODObjectKey.mk _)
  apply BitVec.eq_of_toNat_eq
  simp only [F4.argKey, BitVec.extractLsb'_toNat, BitVec.toNat_setWidth, Nat.shiftRight_eq_div_pow]
  omega

/-! ## Responses -/

/-- The response to a write says which code it ended with. -/
theorem encode_injective (d : ObjectDictionary 8 E) (rsdo : ExpeditedSdo) :
    Function.Injective fun code =>
      some ((F4.port d).encode rsdo
        (code, if code = .noError then Port.confirmWrite rsdo else {})) := by
  have abort : ∀ code, code ≠ .noError →
      (F4.port d).encode rsdo (code, if code = .noError then Port.confirmWrite rsdo else {}) =
        (AbortSdo.of rsdo.index rsdo.subindex code).toPayload := by
    intro code failed
    cases code with
    | noError => exact absurd rfl failed
    | _ => rfl
  have confirmation : ∀ code, code ≠ .noError →
      (Port.confirmWrite rsdo).toPayload ≠ (AbortSdo.of rsdo.index rsdo.subindex code).toPayload := by
    intro code _ same
    have cs := congrArg (fun p => (ExpeditedSdo.fromPayload p).cs) same
    simp only [ExpeditedSdo.fromPayload_toPayload, AbortSdo.cs_of_fromPayload] at cs
    exact absurd cs SdoCsCodes.confirmation_ne_abort
  intro a b same
  have same := Option.some.inj same
  by_cases failed : a = .noError
  · by_cases failed' : b = .noError
    · rw [failed, failed']
    · subst failed
      rw [abort b failed'] at same
      exact absurd same (confirmation b failed')
  · by_cases failed' : b = .noError
    · subst failed'
      rw [abort a failed] at same
      exact absurd same.symm (confirmation a failed)
    · rw [abort a failed, abort b failed'] at same
      have code := congrArg AbortSdo.errorCode (AbortSdo.toPayload_injective same)
      exact SdoAbortCode.toUnderlying_injective code

/-! ## Requests -/

/-- The restore of `b` does on `m` just what the restore of a missing object does:
    the function of `b` answers so, and changes nothing. -/
def AnswersNotFound (b : ODEntry 8 E) (m : Machine E) : Prop :=
  ∃ value f, b.object.defaultValue = some value ∧ b.object.hasWritePermission = true ∧
    b.object.hasDirectAccess = false ∧ b.object.writeFunc = .func f ∧
    f value m = (.objectNotFound, m)

theorem restore_notFound_iff {d : ObjectDictionary 8 E} {key : ODObjectKey 8} {b : ODEntry 8 E}
    (found : (F4.port d).find key = some b) (m : Machine E) :
    ((F4.port d).restoreDefaultParameter key).run m = .ok .objectNotFound m ↔
      AnswersNotFound b m := by
  have ends := (F4.port d).restored key m
  obtain ⟨r, ran⟩ : ∃ r, ((F4.port d).restoreDefaultParameter key).run m = r := ⟨_, rfl⟩
  rw [ran] at ends ⊢
  cases ends with
  | absent missing => exact absurd (found.symm.trans missing) nofun
  | noDefault b' found' missing =>
      obtain rfl := Option.some.inj (found.symm.trans found')
      refine ⟨nofun, ?_⟩
      rintro ⟨value, f, default, _⟩
      exact absurd (missing.symm.trans default) nofun
  | denied b' value found' default permission =>
      obtain rfl := Option.some.inj (found.symm.trans found')
      refine ⟨nofun, ?_⟩
      rintro ⟨_, f, _, permission', _⟩
      exact absurd (permission.symm.trans permission') nofun
  | written b' value found' default permission ends =>
      obtain rfl := Option.some.inj (found.symm.trans found')
      cases ends with
      | direct direct =>
          refine ⟨nofun, ?_⟩
          rintro ⟨_, f, _, _, indirect, _⟩
          exact absurd (direct.symm.trans indirect) nofun
      | null indirect null =>
          refine ⟨nofun, ?_⟩
          rintro ⟨_, f, _, _, _, call, _⟩
          exact absurd (null.symm.trans call) nofun
      | noAccess indirect stub =>
          refine ⟨nofun, ?_⟩
          rintro ⟨_, f, _, _, _, call, _⟩
          exact absurd (stub.symm.trans call) nofun
      | func f indirect call =>
          constructor
          · intro same
            obtain ⟨code, machine⟩ := EStateM.Result.ok.inj same
            exact ⟨value, f, default, permission, indirect, call, Prod.ext code machine⟩
          · rintro ⟨value', f', default', _, _, call', answer⟩
            obtain rfl := Option.some.inj (default.symm.trans default')
            obtain rfl := FuncPtr.func.inj (call.symm.trans call')
            rw [answer]

/-- The request runs no restore whose fourth data byte is set and whose first three
    name an object of the dictionary, unless that object answers as a missing one. -/
def SameKey (d : ObjectDictionary 8 E) (m : Machine E) (p : CanPayload) : Prop :=
  ∀ key m', (F4.port d).RestoreRun m p key m' →
    byte (ExpeditedSdo.fromPayload p).data 3 ≠ 0 →
      ∀ b, (F4.port d).find key = some b → AnswersNotFound b m'

theorem sameKey_of_byte (d : ObjectDictionary 8 E) (m : Machine E) {p : CanPayload}
    (zero : byte (ExpeditedSdo.fromPayload p).data 3 = 0) : SameKey d m p := by
  intro key m' _ set
  exact absurd zero set

section Engines

variable (binaryFind : List (ODEntry 16 E) → ODObjectKey 16 → Option (ODEntry 16 E))
  (spec : BinaryFindSpec binaryFind) {d : ObjectDictionary 8 E} {d' : ObjectDictionary 16 E}
  (same : d'.entries = d.entries.map widen)

include same

theorem find_widen (key : ODObjectKey 8) :
    (port binaryFind spec d').find (widenKey key) = ((F4.port d).find key).map widen := by
  apply Option.ext
  intro a
  rw [(port binaryFind spec d').find_eq_some, Option.map_eq_some_iff]
  change a ∈ d'.entries ∧ a.key = widenKey key ↔ _
  rw [same, List.mem_map]
  constructor
  · rintro ⟨⟨b, member, rfl⟩, key'⟩
    exact ⟨b, ((F4.port d).find_eq_some key b).mpr ⟨member, widenKey_injective key'⟩, rfl⟩
  · rintro ⟨b, found, rfl⟩
    obtain ⟨member, rfl⟩ := ((F4.port d).find_eq_some key b).mp found
    exact ⟨⟨b, member, rfl⟩, rfl⟩

/-- A key with a wider subindex is not in the dictionary. -/
theorem find_wide {key : ODObjectKey 16} (wide : ∀ k, key ≠ widenKey k) :
    (port binaryFind spec d').find key = none := by
  cases found : (port binaryFind spec d').find key with
  | none => rfl
  | some a =>
      obtain ⟨member, rfl⟩ := ((port binaryFind spec d').find_eq_some key a).mp found
      change a ∈ d'.entries at member
      rw [same] at member
      obtain ⟨b, _, rfl⟩ := List.mem_map.mp member
      exact absurd rfl (wide b.key)

theorem restore_widen (key : ODObjectKey 8) :
    (port binaryFind spec d').restoreDefaultParameter (widenKey key) =
      (F4.port d).restoreDefaultParameter key := by
  unfold Port.restoreDefaultParameter
  rw [find_widen binaryFind spec same]
  cases (F4.port d).find key <;> rfl

omit same in
theorem writeOrRestore_widen {a : ODEntry 8 E} {data : ExpeditedSdoData} {m : Machine E}
    (plain : ∀ m', (a.object.write data).run m = .ok .dataStoreError m' →
      a.key ≠ restoreDefaultParameterKey 8) :
    ((port binaryFind spec d').writeOrRestore (widen a) data).run m =
      ((F4.port d).writeOrRestore a data).run m := by
  have restoreKey : restoreDefaultParameterKey 16 = widenKey (restoreDefaultParameterKey 8) := rfl
  have sameWrite : (widen a).object.write data = a.object.write data := rfl
  unfold Port.writeOrRestore
  rw [EStateM.run_bind, EStateM.run_bind, sameWrite]
  cases ran : (a.object.write data).run m with
  | error f m' => rfl
  | ok code m' =>
      have here : ¬ (code = .dataStoreError ∧ a.key = restoreDefaultParameterKey 8) := by
        rintro ⟨rfl, key⟩
        exact plain m' ran key
      have there : ¬ (code = .dataStoreError ∧ (widen a).key = restoreDefaultParameterKey 16) := by
        rintro ⟨refused, key⟩
        exact here ⟨refused, widenKey_injective (key.trans restoreKey)⟩
      simp only [if_neg here, if_neg there]

/-- Without a restore, the two engines execute a request alike. -/
theorem dispatch_widen {m : Machine E} {p : CanPayload}
    (plain : ∀ key m', ¬ (F4.port d).RestoreRun m p key m') :
    ((port binaryFind spec d').dispatch (ExpeditedSdo.fromPayload p)).run m =
      ((F4.port d).dispatch (ExpeditedSdo.fromPayload p)).run m := by
  have names : (port binaryFind spec d').requestKey (ExpeditedSdo.fromPayload p) =
      widenKey ((F4.port d).requestKey (ExpeditedSdo.fromPayload p)) := rfl
  unfold Port.dispatch
  rw [names, find_widen binaryFind spec same]
  cases found : (F4.port d).find ((F4.port d).requestKey (ExpeditedSdo.fromPayload p)) with
  | none => rfl
  | some a =>
      simp only [Option.map_some]
      by_cases reads : (ExpeditedSdo.fromPayload p).cs = SdoCsCodes.clientInitRead
      · simp only [if_pos reads]
        rfl
      · by_cases writes : (ExpeditedSdo.fromPayload p).cs = SdoCsCodes.clientInitWrite
        · simp only [if_neg reads, if_pos writes]
          cases permission : a.object.hasWritePermission with
          | false =>
              unfold Port.writeExpedited
              rw [if_pos permission, if_pos (show (widen a).object.hasWritePermission = false from
                permission)]
          | true =>
              rw [(F4.port d).writeExpedited_run permission,
                (port binaryFind spec d').writeExpedited_run
                  (show (widen a).object.hasWritePermission = true from permission),
                writeOrRestore_widen binaryFind spec]
              intro m' refused key
              exact plain _ m' ⟨a, found, writes, permission, key, refused, rfl⟩
        · simp only [if_neg reads, if_neg writes]

/-- The engines run the same restores, each with its own key. -/
theorem restoreRun_widen {m m' : Machine E} {p : CanPayload} {key : ODObjectKey 8}
    (restores : (F4.port d).RestoreRun m p key m') :
    key = F4.argKey (ExpeditedSdo.fromPayload p).data ∧
      (port binaryFind spec d').RestoreRun m p (argKey (ExpeditedSdo.fromPayload p).data) m' := by
  obtain ⟨a, found, command, permission, isRestore, refused, rfl⟩ := restores
  refine ⟨rfl, widen a, ?_, command, permission, congrArg widenKey isRestore, refused, rfl⟩
  have names : (port binaryFind spec d').requestKey (ExpeditedSdo.fromPayload p) =
      widenKey ((F4.port d).requestKey (ExpeditedSdo.fromPayload p)) := rfl
  rw [names, find_widen binaryFind spec same, found]
  rfl

omit same in
/-- The ports build the same frame for the same outcome. -/
theorem encode_widen (rsdo : ExpeditedSdo) (outcome : SdoAbortCode × ExpeditedSdo) :
    (port binaryFind spec d').encode rsdo outcome = (F4.port d).encode rsdo outcome := by
  obtain ⟨code, tsdo⟩ := outcome
  cases code <;> rfl

/-- The two ports restore alike, on `m`, what the request data names. -/
theorem restore_iff (data : ExpeditedSdoData) (m : Machine E) :
    ((F4.port d).restoreDefaultParameter (F4.argKey data)).run m =
        ((port binaryFind spec d').restoreDefaultParameter (argKey data)).run m ↔
      (byte data 3 ≠ 0 →
        ∀ b, (F4.port d).find (F4.argKey data) = some b → AnswersNotFound b m) := by
  by_cases zero : byte data 3 = 0
  · rw [argKey_of_byte zero, restore_widen binaryFind spec same]
    exact ⟨fun _ set => absurd zero set, fun _ => rfl⟩
  · have missing : ((port binaryFind spec d').restoreDefaultParameter (argKey data)).run m =
        .ok .objectNotFound m := by
      have none := find_wide binaryFind spec same fun k wide => zero (byte_of_argKey wide)
      unfold Port.restoreDefaultParameter
      rw [none]
      rfl
    rw [missing]
    cases found : (F4.port d).find (F4.argKey data) with
    | none =>
        have missing' : ((F4.port d).restoreDefaultParameter (F4.argKey data)).run m =
            .ok .objectNotFound m := by
          unfold Port.restoreDefaultParameter
          rw [found]
          rfl
        exact ⟨fun _ _ b absent => absurd absent nofun, fun _ => missing'⟩
    | some b =>
        rw [restore_notFound_iff found m]
        constructor
        · rintro answers _ b' ⟨⟩
          exact answers
        · intro answers
          exact answers zero b rfl

/-- The two engines execute a request alike exactly under `SameKey`. -/
theorem execute_iff (m : Machine E) (p : CanPayload) :
    (F4.port d).execute (.start m) p = (port binaryFind spec d').execute (.start m) p ↔
      SameKey d m p := by
  rw [Port.execute_eq_iff]
  by_cases abort : (ExpeditedSdo.fromPayload p).cs = SdoCsCodes.abort
  · have ignored : (F4.port d).handleRequest p = pure none := if_pos abort
    have ignored' : (port binaryFind spec d').handleRequest p = pure none := if_pos abort
    rw [ignored, ignored']
    refine ⟨fun _ key m' restores => ?_, fun _ => rfl⟩
    obtain ⟨_, _, command, _⟩ := restores
    exact absurd (command.symm.trans abort) SdoCsCodes.write_ne_abort
  rw [Port.handleRequest_run _ abort, Port.handleRequest_run _ abort]
  have frames : ∀ outcome, (port binaryFind spec d').encode (ExpeditedSdo.fromPayload p) outcome =
      (F4.port d).encode (ExpeditedSdo.fromPayload p) outcome :=
    encode_widen binaryFind spec (ExpeditedSdo.fromPayload p)
  simp only [frames]
  by_cases restores : ∃ key m', (F4.port d).RestoreRun m p key m'
  · obtain ⟨key, m', restores⟩ := restores
    obtain ⟨rfl, restores'⟩ := restoreRun_widen binaryFind spec same restores
    rw [Port.dispatch_of_restoreRun restores, Port.dispatch_of_restoreRun restores',
      mapResult_mapResult, mapResult_mapResult]
    have answers := encode_injective d (ExpeditedSdo.fromPayload p)
    refine (mapResult_injective answers).eq_iff.trans ((restore_iff binaryFind spec same _ m').trans ?_)
    constructor
    · intro meets key m'' other
      obtain ⟨rfl, rfl⟩ := other.unique restores
      exact meets
    · intro meets
      exact meets _ m' restores
  · have plain : ∀ key m', ¬ (F4.port d).RestoreRun m p key m' :=
      fun key m' run => restores ⟨key, m', run⟩
    rw [dispatch_widen binaryFind spec same plain]
    exact ⟨fun _ key m' run => absurd run (plain key m'), fun _ => rfl⟩

/-- After undefined behaviour, neither engine executes anything. -/
theorem execute_core_iff (c : Core E) (p : CanPayload) :
    (F4.port d).execute c p = (port binaryFind spec d').execute c p ↔
      (c.fault = none → SameKey d c.machine p) := by
  obtain ⟨m, fault⟩ := c
  cases fault with
  | some f => exact ⟨fun _ => nofun, fun _ => rfl⟩
  | none =>
      exact (execute_iff binaryFind spec same m p).trans
        ⟨fun meets _ => meets, fun meets => meets rfl⟩

end Engines

/-- On the same memory, the engines answer a request alike and leave the same
    memory exactly under `SameKey`; and they go through a sequence of requests
    alike exactly as long as every request meets it. -/
theorem engines_agree_iff
    (binaryFind : List (ODEntry 16 E) → ODObjectKey 16 → Option (ODEntry 16 E))
    (spec : BinaryFindSpec binaryFind) {d : ObjectDictionary 8 E} {d' : ObjectDictionary 16 E}
    (same : d'.entries = d.entries.map widen) (m : Machine E) :
    (∀ p, (F4.port d).execute (.start m) p = (port binaryFind spec d').execute (.start m) p ↔
      SameKey d m p) ∧
    ∀ requests,
      (∀ served, served <+: requests →
        Server.answers (F4.port d).execute (.start m) served =
            Server.answers (port binaryFind spec d').execute (.start m) served ∧
          (F4.port d).serve (.start m) served =
            (port binaryFind spec d').serve (.start m) served) ↔
        Run.StepsMeet (fun c p => ((F4.port d).execute c p).2)
          (fun c p => c.fault = none → SameKey d c.machine p) (.start m) requests :=
  ⟨execute_iff binaryFind spec same m,
    Server.answers_congr_iff (execute_core_iff binaryFind spec same) (.start m)⟩

/-! ## A dictionary on both ports -/

section Sample

open F4 (sample blank restoreLimit writeLimit)

def sampleWide : ObjectDictionary 16 Unit where
  entries := sample.entries.map widen
  accepted := by decide +kernel

theorem engines_agree_iff_sample :
    (F4.port sample).execute (.start blank) restoreLimit =
        (port equalRangeFind equalRangeFind_spec sampleWide).execute (.start blank) restoreLimit ∧
    ∀ served, served <+: [writeLimit, restoreLimit] →
      Server.answers (F4.port sample).execute (.start blank) served =
          Server.answers (port equalRangeFind equalRangeFind_spec sampleWide).execute
            (.start blank) served ∧
        (F4.port sample).serve (.start blank) served =
          (port equalRangeFind equalRangeFind_spec sampleWide).serve (.start blank) served := by
  have same : sampleWide.entries = sample.entries.map widen := rfl
  obtain ⟨one, many⟩ := engines_agree_iff equalRangeFind equalRangeFind_spec same blank
  have first : ∀ m, SameKey sample m writeLimit := fun m => sameKey_of_byte _ m (by decide +kernel)
  have second : ∀ m, SameKey sample m restoreLimit :=
    fun m => sameKey_of_byte _ m (by decide +kernel)
  exact ⟨(one restoreLimit).mpr (second blank),
    (many [writeLimit, restoreLimit]).mpr ⟨fun _ => first _, fun _ => second _, trivial⟩⟩

/-- `restoreLimit` with its fourth data byte set. -/
def restorePadded : CanPayload :=
  ExpeditedSdo.toPayload
    { cs := SdoCsCodes.clientInitWrite, index := 0x1011, subindex := 4, data := 0x01012000 }

/-- F4 restores the limit and confirms; H7 finds no such object. -/
theorem restorePadded_differs :
    ((F4.port sample).execute (.start blank) restorePadded).1 =
        some (Port.confirmWrite (ExpeditedSdo.fromPayload restorePadded)).toPayload ∧
      ((F4.port sample).execute (.start blank) restorePadded).2.machine.mem 0x100 = 7 ∧
      ((port equalRangeFind equalRangeFind_spec sampleWide).execute (.start blank)
          restorePadded).1 = some (AbortSdo.of 0x1011 4 .objectNotFound).toPayload ∧
      ((port equalRangeFind equalRangeFind_spec sampleWide).execute (.start blank)
          restorePadded).2.machine.mem 0x100 = 0 ∧
      ¬ (F4.port sample).execute (.start blank) restorePadded =
        (port equalRangeFind equalRangeFind_spec sampleWide).execute (.start blank)
          restorePadded := by
  have here : ((F4.port sample).execute (.start blank) restorePadded).2.machine.mem 0x100 = 7 := by
    decide +kernel
  have there : ((port equalRangeFind equalRangeFind_spec sampleWide).execute (.start blank)
      restorePadded).2.machine.mem 0x100 = 0 := by
    decide +kernel
  refine ⟨by decide +kernel, here, by decide +kernel, there, fun same => ?_⟩
  rw [same, there] at here
  exact absurd here (by decide)

end Sample

end Ucanopen.H7
