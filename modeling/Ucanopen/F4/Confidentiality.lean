import Ucanopen.F4.Parameters
import Ucanopen.Sdo.Rules

/-! # Write-only objects stay confidential

Two servers that differ only in the bytes of write-only objects cannot be told
apart on the bus, and nothing that is sent makes them differ anywhere else.
-/

namespace Ucanopen.F4

open Bytes Exec

variable {E : Type}

/-- The bytes of a set of entries. -/
def secretBytes (secret : Set (ODEntry 8 E)) (m : Machine E) : Set Nat :=
  ⋃ a ∈ secret, a.object.bytes m

/-- The machines differ in these bytes at most. -/
def SameBut (bytes : Set Nat) (s t : Machine E) : Prop :=
  s.env = t.env ∧ AgreeOutside bytes s.mem t.mem

/-- Neither results nor effects of the application's functions depend on the bytes. -/
structure Independent (entries : List (ODEntry 8 E)) (bytes : Set Nat) : Prop where
  readFunc : ∀ a ∈ entries, ∀ f, a.object.readFunc = .func f →
    ∀ data s t, SameBut bytes s t →
      (f data s).1 = (f data t).1 ∧ SameBut bytes (f data s).2 (f data t).2
  writeFunc : ∀ a ∈ entries, ∀ f, a.object.writeFunc = .func f →
    ∀ data s t, SameBut bytes s t →
      (f data s).1 = (f data t).1 ∧ SameBut bytes (f data s).2 (f data t).2

/-- Every access a dictionary admits keeps the difference where it is. -/
theorem accesses_confidential {entries : List (ODEntry 8 E)} {m : Machine E} {bytes : Set Nat}
    (apart : ∀ b ∈ entries, b.object.hasReadPermission = true →
      b.object.hasDirectAccess = true → Disjoint (b.object.bytes m) bytes)
    (independent : Independent entries bytes) :
    AccessRelation entries (fun s t => FixedAddresses entries m s ∧ FixedAddresses entries m t)
      (SameBut bytes) where
  load := by
    intro a member permission direct data s t fixed same
    rw [ODObject.load_run direct, ODObject.load_run direct, fixed.1 a member direct,
      fixed.2 a member direct]
    refine ⟨copyInto_congr data fun i small => same.2 _ fun inside => ?_, same⟩
    exact Set.disjoint_left.mp (apart a member permission direct) (a.object.mem_bytes m small) inside
  store := by
    intro a member permission direct data s t fixed same
    rw [ODObject.store_run direct, ODObject.store_run direct, fixed.1 a member direct,
      fixed.2 a member direct]
    exact ⟨rfl, same.1, same.2.overwrite _ _ _⟩
  readFunc := independent.readFunc
  writeFunc := independent.writeFunc

/-- Whatever set of objects no readable object overlaps, its content does not
    reach the bus, and differences in it do not spread. -/
theorem write_only_confidential (d : ObjectDictionary 8 E) (secret : Set (ODEntry 8 E))
    (m m' : Machine E)
    (apart : ∀ b ∈ d.entries, b.object.hasReadPermission = true →
      b.object.hasDirectAccess = true → Disjoint (b.object.bytes m) (secretBytes secret m))
    (independent : Independent d.entries (secretBytes secret m))
    (differ : SameBut (secretBytes secret m) m m') (requests : List CanPayload)
    (fixed : (port d).Throughout (FixedAddresses d.entries m) (.start m) requests)
    (fixed' : (port d).Throughout (FixedAddresses d.entries m) (.start m') requests) :
    Server.responses (port d).execute (.start m) requests =
        Server.responses (port d).execute (.start m') requests ∧
      SameBut (secretBytes secret m) ((port d).serve (.start m) requests).machine
        ((port d).serve (.start m') requests).machine := by
  have rel : AccessRelation (port d).dictionary.entries _ _ :=
    accesses_confidential apart independent
  obtain ⟨answers, final⟩ := rel.answers (.start m) (.start m') rfl differ fixed fixed'
  exact ⟨congrArg (List.filterMap id) answers, final⟩

section Sample

/-- The blank machine with another password. -/
def blank' : Machine Unit := ⟨Function.update (fun _ => 0) 0x300 42, ()⟩

def writePassword : CanPayload :=
  ExpeditedSdo.toPayload { cs := SdoCsCodes.clientInitWrite, index := 0x2002, data := 9 }

def readPassword : CanPayload :=
  ExpeditedSdo.toPayload { cs := SdoCsCodes.clientInitRead, index := 0x2002 }

theorem mem_password {x : Nat} (inside : x ∈ secretBytes {password} blank) :
    0x300 ≤ x ∧ x < 0x300 + 1 := by
  have only : x ∈ password.object.bytes blank := by simpa [secretBytes] using inside
  exact only

theorem write_only_confidential_sample :
    Server.responses (port sample).execute (.start blank)
          [readPassword, writeLimit, writePassword, readLimit] =
        Server.responses (port sample).execute (.start blank')
          [readPassword, writeLimit, writePassword, readLimit] ∧
      SameBut (secretBytes {password} blank)
        ((port sample).serve (.start blank)
          [readPassword, writeLimit, writePassword, readLimit]).machine
        ((port sample).serve (.start blank')
          [readPassword, writeLimit, writePassword, readLimit]).machine :=
  write_only_confidential sample {password} blank blank'
    (by
      intro b member permission direct
      rcases sample_cases member with rfl | rfl | rfl | rfl
      · exact absurd direct (by decide)
      · exact Set.disjoint_left.mpr fun x inLimit inPassword => by
          have high : x < 0x100 + 2 := inLimit.2
          have low := (mem_password inPassword).1
          omega
      · exact Set.disjoint_left.mpr fun x inSerial inPassword => by
          have high : x < 0x200 + 4 := inSerial.2
          have low := (mem_password inPassword).1
          omega
      · exact absurd permission (by decide))
    { readFunc := by
        intro b member f call
        rcases sample_cases member with rfl | rfl | rfl | rfl <;> exact absurd call nofun
      writeFunc := by
        intro b member f call data s t same
        rcases sample_cases member with rfl | rfl | rfl | rfl
        · cases call
          exact ⟨rfl, same⟩
        all_goals exact absurd call nofun }
    ⟨rfl, by
      intro x outside
      apply Eq.symm
      apply Function.update_of_ne
      rintro rfl
      apply outside
      apply Set.mem_biUnion (Set.mem_singleton password)
      exact ⟨by decide, by decide⟩⟩
    [readPassword, writeLimit, writePassword, readLimit] (.of_forall _ (sample_fixed blank) _ _)
    (.of_forall _ (sample_fixed blank) _ _)

end Sample

end Ucanopen.F4
