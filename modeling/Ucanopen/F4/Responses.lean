import Ucanopen.F4.Writes

/-! # Which response a request gets

Every request that is executed to its end is answered with one frame, which
carries the request's index and subindex. It is a confirmation when all of
lookup, command, permission and access succeed, and otherwise the abort frame of
the first of them that failed.
-/

namespace Ucanopen.F4

open Bytes Exec

variable {E : Type} (d : ObjectDictionary 8 E) (m : Machine E) (rsdo : ExpeditedSdo)

/-- The request reads an object that can be read: directly, or by a function that
    reported no error. -/
def ReadOk : Prop :=
  rsdo.cs = SdoCsCodes.clientInitRead ∧
    ∃ a ∈ d.entries, a.key = ⟨rsdo.index, rsdo.subindex⟩ ∧ a.object.hasReadPermission = true ∧
      (a.object.hasDirectAccess = true ∨
        ∃ data m', (a.object.readFunc.callRead 0).run m = .ok (.noError, data) m')

/-- The request writes an object that can be written: directly, or by a function
    that reported no error, or by a restore that did. -/
def WriteOk : Prop :=
  rsdo.cs = SdoCsCodes.clientInitWrite ∧
    ∃ a ∈ d.entries, a.key = ⟨rsdo.index, rsdo.subindex⟩ ∧ a.object.hasWritePermission = true ∧
      (a.object.hasDirectAccess = true ∨
        (∃ m', (a.object.writeFunc.callWrite rsdo.data).run m = .ok .noError m') ∨
        a.key = restoreDefaultParameterKey 8 ∧
          ∃ m' m'', (a.object.writeFunc.callWrite rsdo.data).run m = .ok .dataStoreError m' ∧
            ((port d).restoreDefaultParameter (argKey rsdo.data)).run m' = .ok .noError m'')

/-- Why a request is refused, the earlier reasons first. -/
inductive Refused : SdoAbortCode → Prop
  | absent (missing : ∀ a ∈ d.entries, a.key ≠ ⟨rsdo.index, rsdo.subindex⟩) :
      Refused .objectNotFound
  | command (a : ODEntry 8 E) (member : a ∈ d.entries)
      (key : a.key = ⟨rsdo.index, rsdo.subindex⟩)
      (notRead : rsdo.cs ≠ SdoCsCodes.clientInitRead)
      (notWrite : rsdo.cs ≠ SdoCsCodes.clientInitWrite) : Refused .invalidCs
  | writeOnly (a : ODEntry 8 E) (member : a ∈ d.entries)
      (key : a.key = ⟨rsdo.index, rsdo.subindex⟩) (command : rsdo.cs = SdoCsCodes.clientInitRead)
      (permission : a.object.hasReadPermission = false) : Refused .readAccessWo
  | readOnly (a : ODEntry 8 E) (member : a ∈ d.entries)
      (key : a.key = ⟨rsdo.index, rsdo.subindex⟩) (command : rsdo.cs = SdoCsCodes.clientInitWrite)
      (permission : a.object.hasWritePermission = false) : Refused .writeAccessRo
  | readFunc (a : ODEntry 8 E) (member : a ∈ d.entries)
      (key : a.key = ⟨rsdo.index, rsdo.subindex⟩) (command : rsdo.cs = SdoCsCodes.clientInitRead)
      (permission : a.object.hasReadPermission = true)
      (indirect : a.object.hasDirectAccess = false) (code : SdoAbortCode)
      (data : ExpeditedSdoData) (m' : Machine E)
      (returned : (a.object.readFunc.callRead 0).run m = .ok (code, data) m') : Refused code
  | writeFunc (a : ODEntry 8 E) (member : a ∈ d.entries)
      (key : a.key = ⟨rsdo.index, rsdo.subindex⟩) (command : rsdo.cs = SdoCsCodes.clientInitWrite)
      (permission : a.object.hasWritePermission = true)
      (indirect : a.object.hasDirectAccess = false) (code : SdoAbortCode) (m' : Machine E)
      (returned : (a.object.writeFunc.callWrite rsdo.data).run m = .ok code m')
      (plain : code = .dataStoreError → a.key ≠ restoreDefaultParameterKey 8) : Refused code
  | restore (a : ODEntry 8 E) (member : a ∈ d.entries)
      (key : a.key = ⟨rsdo.index, rsdo.subindex⟩) (command : rsdo.cs = SdoCsCodes.clientInitWrite)
      (permission : a.object.hasWritePermission = true)
      (indirect : a.object.hasDirectAccess = false)
      (isRestore : a.key = restoreDefaultParameterKey 8) (m' : Machine E)
      (refused : (a.object.writeFunc.callWrite rsdo.data).run m = .ok .dataStoreError m')
      (code : SdoAbortCode) (m'' : Machine E)
      (returned : ((port d).restoreDefaultParameter (argKey rsdo.data)).run m' = .ok code m'') :
      Refused code

variable {d m rsdo}

/-! ## Confirmations -/

theorem ReadOk.dispatch (ok : ReadOk d m rsdo) :
    ∃ (o : ODObject E) (data : ExpeditedSdoData) (m' : Machine E),
      ((port d).dispatch rsdo).run m = .ok (.noError, Port.confirmRead rsdo o data) m' := by
  obtain ⟨command, a, member, key, permission, access⟩ := ok
  have found : (port d).find ((port d).requestKey rsdo) = some a :=
    Port.find_of_member member key.symm
  have read : ∃ data m', (a.object.read 0).run m = .ok (.noError, data) m' := by
    cases direct : a.object.hasDirectAccess with
    | true =>
        rw [ODObject.read_run_direct direct]
        exact ⟨_, _, rfl⟩
    | false =>
        rw [ODObject.read_indirect direct]
        exact access.resolve_left (by simp [direct])
  obtain ⟨data, m', read⟩ := read
  refine ⟨a.object, data, m', ?_⟩
  rw [(port d).dispatch_read found command permission, read]
  rfl

theorem WriteOk.dispatch (ok : WriteOk d m rsdo) :
    ∃ m', ((port d).dispatch rsdo).run m = .ok (.noError, Port.confirmWrite rsdo) m' := by
  obtain ⟨command, a, member, key, permission, access⟩ := ok
  have found : (port d).find ((port d).requestKey rsdo) = some a :=
    Port.find_of_member member key.symm
  have stored : ∃ m', ((port d).writeOrRestore a rsdo.data).run m = .ok .noError m' := by
    unfold Port.writeOrRestore
    cases direct : a.object.hasDirectAccess with
    | true =>
        rw [EStateM.run_bind, ODObject.write_run_direct direct]
        exact ⟨_, rfl⟩
    | false =>
        rw [EStateM.run_bind, ODObject.write_indirect direct]
        obtain wrong | ⟨m', returned⟩ | ⟨isRestore, m', m'', refused, returned⟩ := access
        · exact absurd (direct.symm.trans wrong) nofun
        · rw [returned]
          exact ⟨m', rfl⟩
        · rw [refused]
          dsimp only
          rw [if_pos ⟨rfl, isRestore⟩]
          exact ⟨m'', returned⟩
  obtain ⟨m', stored⟩ := stored
  refine ⟨m', ?_⟩
  rw [(port d).dispatch_write found command permission, stored]
  rfl

/-! ## The outcome of a command -/

/-- The ways a command ends that returns. -/
inductive Outcome (d : ObjectDictionary 8 E) (m : Machine E) (rsdo : ExpeditedSdo) :
    SdoAbortCode × ExpeditedSdo → Prop
  | read (o : ODObject E) (data : ExpeditedSdoData) (ok : ReadOk d m rsdo) :
      Outcome d m rsdo (.noError, Port.confirmRead rsdo o data)
  | write (ok : WriteOk d m rsdo) : Outcome d m rsdo (.noError, Port.confirmWrite rsdo)
  | refused (code : SdoAbortCode) (tsdo : ExpeditedSdo) (failed : code ≠ .noError)
      (reason : Refused d m rsdo code) : Outcome d m rsdo (code, tsdo)

theorem outcome_of_fetched {a : ODEntry 8 E} (member : a ∈ d.entries)
    (key : a.key = ⟨rsdo.index, rsdo.subindex⟩) (command : rsdo.cs = SdoCsCodes.clientInitRead)
    (permission : a.object.hasReadPermission = true) {code : SdoAbortCode}
    {data : ExpeditedSdoData} {m' : Machine E}
    (read : (a.object.read 0).run m = .ok (code, data) m') :
    Outcome d m rsdo
      (code, if code = .noError then Port.confirmRead rsdo a.object data else { data := data }) := by
  by_cases ok : code = .noError
  · subst ok
    rw [if_pos rfl]
    refine .read a.object data ⟨command, a, member, key, permission, ?_⟩
    cases direct : a.object.hasDirectAccess with
    | true => exact .inl rfl
    | false =>
        rw [ODObject.read_indirect direct] at read
        exact .inr ⟨data, m', read⟩
  · rw [if_neg ok]
    cases direct : a.object.hasDirectAccess with
    | true =>
        rw [ODObject.read_run_direct direct] at read
        exact absurd (congrArg Prod.fst (EStateM.Result.ok.inj read).1).symm ok
    | false =>
        rw [ODObject.read_indirect direct] at read
        exact .refused code _ ok (.readFunc a member key command permission direct code data m' read)

theorem outcome_of_stored {a : ODEntry 8 E} (member : a ∈ d.entries)
    (key : a.key = ⟨rsdo.index, rsdo.subindex⟩) (command : rsdo.cs = SdoCsCodes.clientInitWrite)
    (permission : a.object.hasWritePermission = true) {code : SdoAbortCode} {m' : Machine E}
    (stored : ((port d).writeOrRestore a rsdo.data).run m = .ok code m') :
    Outcome d m rsdo (code, if code = .noError then Port.confirmWrite rsdo else {}) := by
  unfold Port.writeOrRestore at stored
  rw [EStateM.run_bind] at stored
  have confirm : ∀ ok : WriteOk d m rsdo, Outcome d m rsdo
      (.noError, if SdoAbortCode.noError = .noError then Port.confirmWrite rsdo else {}) :=
    fun ok => .write ok
  cases direct : a.object.hasDirectAccess with
  | true =>
      rw [ODObject.write_run_direct direct] at stored
      obtain ⟨rfl, _⟩ := EStateM.Result.ok.inj stored
      exact confirm ⟨command, a, member, key, permission, .inl direct⟩
  | false =>
      rw [ODObject.write_indirect direct] at stored
      cases returned : (a.object.writeFunc.callWrite rsdo.data).run m with
      | error f m₁ =>
          rw [returned] at stored
          exact absurd stored nofun
      | ok code₁ m₁ =>
          rw [returned] at stored
          dsimp only at stored
          by_cases restores : code₁ = .dataStoreError ∧ a.key = restoreDefaultParameterKey 8
          · obtain ⟨rfl, isRestore⟩ := restores
            rw [if_pos ⟨rfl, isRestore⟩] at stored
            by_cases ok : code = .noError
            · subst ok
              exact confirm ⟨command, a, member, key, permission,
                .inr (.inr ⟨isRestore, m₁, m', returned, stored⟩)⟩
            · exact .refused code _ ok
                (.restore a member key command permission direct isRestore m₁ returned code m' stored)
          · rw [if_neg restores] at stored
            obtain ⟨rfl, _⟩ := EStateM.Result.ok.inj stored
            by_cases ok : code₁ = .noError
            · subst ok
              exact confirm ⟨command, a, member, key, permission, .inr (.inl ⟨m₁, returned⟩)⟩
            · exact .refused code₁ _ ok
                (.writeFunc a member key command permission direct code₁ m₁ returned
                  fun refused isRestore => restores ⟨refused, isRestore⟩)

theorem outcome_of_dispatch {outcome : SdoAbortCode × ExpeditedSdo} {m' : Machine E}
    (ran : ((port d).dispatch rsdo).run m = .ok outcome m') : Outcome d m rsdo outcome := by
  have ends := (port d).dispatched rsdo m
  obtain ⟨r, same⟩ : ∃ r, ((port d).dispatch rsdo).run m = r := ⟨_, rfl⟩
  rw [same] at ends ran
  cases ends with
  | absent missing =>
      obtain ⟨rfl, _⟩ := EStateM.Result.ok.inj ran
      refine .refused _ _ nofun (.absent fun a member key => ?_)
      have found : (port d).find ((port d).requestKey rsdo) = some a :=
        Port.find_of_member member key.symm
      exact absurd (missing.symm.trans found) nofun
  | command a found notRead notWrite =>
      obtain ⟨rfl, _⟩ := EStateM.Result.ok.inj ran
      exact .refused _ _ nofun
        (.command a (Port.member_of_find found) (Port.key_of_find found) notRead notWrite)
  | readDenied a found command permission =>
      obtain ⟨rfl, _⟩ := EStateM.Result.ok.inj ran
      exact .refused _ _ nofun
        (.writeOnly a (Port.member_of_find found) (Port.key_of_find found) command permission)
  | writeDenied a found command permission =>
      obtain ⟨rfl, _⟩ := EStateM.Result.ok.inj ran
      exact .refused _ _ nofun
        (.readOnly a (Port.member_of_find found) (Port.key_of_find found) command permission)
  | read a found command permission ends =>
      have reads := ((port d).dispatch_read found command permission m).symm.trans (same.trans ran)
      cases read : (a.object.read 0).run m with
      | error f m₁ =>
          rw [read] at reads
          exact absurd reads nofun
      | ok result m₁ =>
          rw [read] at reads
          obtain ⟨rfl, rfl⟩ := EStateM.Result.ok.inj reads
          exact outcome_of_fetched (Port.member_of_find found) (Port.key_of_find found) command
            permission read
  | write a found command permission ends =>
      have writes :=
        ((port d).dispatch_write found command permission m).symm.trans (same.trans ran)
      cases stored : ((port d).writeOrRestore a rsdo.data).run m with
      | error f m₁ =>
          rw [stored] at writes
          exact absurd writes nofun
      | ok code m₁ =>
          rw [stored] at writes
          obtain ⟨rfl, rfl⟩ := EStateM.Result.ok.inj writes
          exact outcome_of_stored (Port.member_of_find found) (Port.key_of_find found) command
            permission stored

/-! ## The response -/

theorem SdoAbortCode.toUnderlying_ne_zero {code : SdoAbortCode} (failed : code ≠ .noError) :
    code.toUnderlying ≠ 0 := fun zero => failed (SdoAbortCode.toUnderlying_injective zero)

/-- What a response says, against what the request was. -/
def Matched (d : ObjectDictionary 8 E) (m : Machine E) (rsdo : ExpeditedSdo) (r : CanPayload) :
    Prop :=
  (ExpeditedSdo.fromPayload r).index = rsdo.index ∧
    (ExpeditedSdo.fromPayload r).subindex = rsdo.subindex ∧
    ((ExpeditedSdo.fromPayload r).cs = SdoCsCodes.serverInitRead ↔ ReadOk d m rsdo) ∧
    ((ExpeditedSdo.fromPayload r).cs = SdoCsCodes.serverInitWrite ↔ WriteOk d m rsdo) ∧
    (WriteOk d m rsdo → (ExpeditedSdo.fromPayload r).data = 0) ∧
    (¬ ReadOk d m rsdo → ¬ WriteOk d m rsdo → ∃ code,
      AbortSdo.fromPayload r = AbortSdo.of rsdo.index rsdo.subindex code ∧
        code.toUnderlying ≠ 0 ∧ Refused d m rsdo code)

theorem ReadOk.not_writeOk (ok : ReadOk d m rsdo) : ¬ WriteOk d m rsdo :=
  fun wrong => SdoCsCodes.write_ne_read (wrong.1.symm.trans ok.1)

theorem matched_read (o : ODObject E) (data : ExpeditedSdoData) (ok : ReadOk d m rsdo) :
    Matched d m rsdo ((port d).encode rsdo (.noError, Port.confirmRead rsdo o data)) := by
  have decoded : ExpeditedSdo.fromPayload
      ((port d).encode rsdo (.noError, Port.confirmRead rsdo o data)) =
      Port.confirmRead rsdo o data := ExpeditedSdo.fromPayload_toPayload _
  unfold Matched
  rw [decoded]
  have confirmsRead : (Port.confirmRead rsdo o data).cs = SdoCsCodes.serverInitRead := rfl
  refine ⟨rfl, rfl, ⟨fun _ => ok, fun _ => confirmsRead⟩, ⟨?_, ?_⟩, ?_, ?_⟩
  · intro wrong
    exact absurd wrong SdoCsCodes.read_ne_confirmation
  · intro wrong
    exact absurd wrong ok.not_writeOk
  · intro wrong
    exact absurd wrong ok.not_writeOk
  · intro wrong
    exact absurd ok wrong

theorem matched_write (ok : WriteOk d m rsdo) :
    Matched d m rsdo ((port d).encode rsdo (.noError, Port.confirmWrite rsdo)) := by
  have notRead : ¬ ReadOk d m rsdo := fun wrong => wrong.not_writeOk ok
  have decoded : ExpeditedSdo.fromPayload
      ((port d).encode rsdo (.noError, Port.confirmWrite rsdo)) = Port.confirmWrite rsdo :=
    ExpeditedSdo.fromPayload_toPayload _
  unfold Matched
  rw [decoded]
  have confirmsWrite : (Port.confirmWrite rsdo).cs = SdoCsCodes.serverInitWrite := rfl
  refine ⟨rfl, rfl, ⟨?_, ?_⟩, ⟨fun _ => ok, fun _ => confirmsWrite⟩, fun _ => rfl, ?_⟩
  · intro wrong
    exact absurd wrong.symm SdoCsCodes.read_ne_confirmation
  · intro wrong
    exact absurd wrong notRead
  · intro _ wrong
    exact absurd ok wrong

theorem matched_refused {code : SdoAbortCode} (tsdo : ExpeditedSdo) (failed : code ≠ .noError)
    (reason : Refused d m rsdo code) (notRead : ¬ ReadOk d m rsdo)
    (notWrite : ¬ WriteOk d m rsdo) :
    Matched d m rsdo ((port d).encode rsdo (code, tsdo)) := by
  have encoded : (port d).encode rsdo (code, tsdo) =
      (AbortSdo.of rsdo.index rsdo.subindex code).toPayload := encode_failure d _ tsdo failed
  obtain ⟨index, subindex⟩ := AbortSdo.key_of_fromPayload (.of rsdo.index rsdo.subindex code)
  have cs : (ExpeditedSdo.fromPayload
      (AbortSdo.of rsdo.index rsdo.subindex code).toPayload).cs = SdoCsCodes.abort :=
    AbortSdo.cs_of_fromPayload _
  unfold Matched
  rw [encoded, cs, AbortSdo.fromPayload_toPayload]
  refine ⟨index, subindex, ⟨?_, ?_⟩, ⟨?_, ?_⟩, ?_, ?_⟩
  · intro wrong
    exact absurd wrong.symm SdoCsCodes.read_ne_abort
  · intro wrong
    exact absurd wrong notRead
  · intro wrong
    exact absurd wrong.symm SdoCsCodes.confirmation_ne_abort
  · intro wrong
    exact absurd wrong notWrite
  · intro wrong
    exact absurd wrong notWrite
  · intro _ _
    exact ⟨code, rfl, SdoAbortCode.toUnderlying_ne_zero failed, reason⟩

theorem ReadOk.code {outcome : SdoAbortCode × ExpeditedSdo} {m' : Machine E}
    (ok : ReadOk d m rsdo) (ran : ((port d).dispatch rsdo).run m = .ok outcome m') :
    outcome.1 = .noError := by
  obtain ⟨o, data, m'', confirmed⟩ := ok.dispatch
  have same := EStateM.Result.ok.inj (ran.symm.trans confirmed)
  exact congrArg Prod.fst same.1

theorem WriteOk.code {outcome : SdoAbortCode × ExpeditedSdo} {m' : Machine E}
    (ok : WriteOk d m rsdo) (ran : ((port d).dispatch rsdo).run m = .ok outcome m') :
    outcome.1 = .noError := by
  obtain ⟨m'', confirmed⟩ := ok.dispatch
  have same := EStateM.Result.ok.inj (ran.symm.trans confirmed)
  exact congrArg Prod.fst same.1

theorem matched_of_dispatch {outcome : SdoAbortCode × ExpeditedSdo} {m' : Machine E}
    (ran : ((port d).dispatch rsdo).run m = .ok outcome m') :
    Matched d m rsdo ((port d).encode rsdo outcome) := by
  cases outcome_of_dispatch ran with
  | read o data ok => exact matched_read o data ok
  | write ok => exact matched_write ok
  | refused code tsdo failed reason =>
      have notRead : ¬ ReadOk d m rsdo := fun ok => failed (ok.code ran)
      have notWrite : ¬ WriteOk d m rsdo := fun ok => failed (ok.code ran)
      exact matched_refused tsdo failed reason notRead notWrite

/-- A request other than an abort frame is answered unless it reaches undefined
    behaviour. The answer carries its index and subindex; it confirms a read, or a
    write, exactly when that succeeded, and otherwise gives the reason. -/
theorem response_matches (d : ObjectDictionary 8 E) (m : Machine E) (p : CanPayload)
    (request : (ExpeditedSdo.fromPayload p).cs ≠ SdoCsCodes.abort) :
    (((port d).execute (.start m) p).1 = none ↔
      ((port d).execute (.start m) p).2.fault ≠ none) ∧
    ∀ r, ((port d).execute (.start m) p).1 = some r →
      let rsdo := ExpeditedSdo.fromPayload p
      let tsdo := ExpeditedSdo.fromPayload r
      tsdo.index = rsdo.index ∧ tsdo.subindex = rsdo.subindex ∧
        (tsdo.cs = SdoCsCodes.serverInitRead ↔ ReadOk d m rsdo) ∧
        (tsdo.cs = SdoCsCodes.serverInitWrite ↔ WriteOk d m rsdo) ∧
        (WriteOk d m rsdo → tsdo.data = 0) ∧
        (¬ ReadOk d m rsdo → ¬ WriteOk d m rsdo → ∃ code,
          AbortSdo.fromPayload r = AbortSdo.of rsdo.index rsdo.subindex code ∧
            code.toUnderlying ≠ 0 ∧ Refused d m rsdo code) := by
  rw [(port d).execute_dispatch rfl request, Core.start_machine]
  cases ran : ((port d).dispatch (ExpeditedSdo.fromPayload p)).run m with
  | error f m' =>
      exact ⟨⟨fun _ => nofun, fun _ => rfl⟩, fun r response => absurd response nofun⟩
  | ok outcome m' =>
      refine ⟨⟨nofun, fun wrong => absurd rfl wrong⟩, fun r response => ?_⟩
      obtain rfl := Option.some.inj response
      exact matched_of_dispatch ran

theorem response_matches_sample :
    (((port sample).execute (.start blank) restoreSerial).1 = none ↔
      ((port sample).execute (.start blank) restoreSerial).2.fault ≠ none) ∧
    ∀ r, ((port sample).execute (.start blank) restoreSerial).1 = some r →
      let rsdo := ExpeditedSdo.fromPayload restoreSerial
      let tsdo := ExpeditedSdo.fromPayload r
      tsdo.index = rsdo.index ∧ tsdo.subindex = rsdo.subindex ∧
        (tsdo.cs = SdoCsCodes.serverInitRead ↔ ReadOk sample blank rsdo) ∧
        (tsdo.cs = SdoCsCodes.serverInitWrite ↔ WriteOk sample blank rsdo) ∧
        (WriteOk sample blank rsdo → tsdo.data = 0) ∧
        (¬ ReadOk sample blank rsdo → ¬ WriteOk sample blank rsdo → ∃ code,
          AbortSdo.fromPayload r = AbortSdo.of rsdo.index rsdo.subindex code ∧
            code.toUnderlying ≠ 0 ∧ Refused sample blank rsdo code) :=
  response_matches sample blank restoreSerial (by decide +kernel)

end Ucanopen.F4
