/-
  File:      CacheDirectory/Model/Identity.lean
  Subject:   IDENTITIES AND GENERATIONS (strong_type.hpp, generation.hpp).

  Every identity and every generation wraps one 64-bit word under a tag of its own, so no two
  kinds convert into each other. A default-constructed value holds zero, which is the null
  identity. The tags stand for the types `NAMETag` the macros `DCD_IDENTITY_TYPE` and `DCD_GEN`
  declare; the identities no part of the directory uses are left out.
-/
import Mathlib.Logic.Basic

namespace CacheDirectory

/-- `detail::StrongValue<Tag>`. -/
structure StrongValue (Tag : Type) where
  value : UInt64 := 0

namespace StrongValue

variable {Tag : Type}

theorem ext {a b : StrongValue Tag} (h : a.value = b.value) : a = b := by
  cases a
  cases b
  cases h
  rfl

instance : DecidableEq (StrongValue Tag) := fun a b =>
  if h : a.value = b.value then .isTrue (ext h)
  else .isFalse fun e => h (congrArg StrongValue.value e)

instance : Inhabited (StrongValue Tag) := ⟨{}⟩

def isNull (a : StrongValue Tag) : Bool := a.value == 0

@[simp] theorem isNull_mk (v : UInt64) : (⟨v⟩ : StrongValue Tag).isNull = (v == 0) := rfl

/-- `std::to_string` of the wrapped word. -/
def str (a : StrongValue Tag) : String := toString a.value.toNat

end StrongValue

inductive DirectoryRecordIdTag
inductive StateIdTag
inductive CacheIdTag
inductive CacheEntryIdTag
inductive ReplicaIdTag
inductive LocationIdTag
inductive NodeIdTag
inductive WorkerIdTag
inductive WorkerBootIdTag
inductive DeviceIdTag
inductive StorageBackendIdTag
inductive StorageTierIdTag
inductive CompatibilityIdTag
inductive ProvenanceIdTag
inductive LeaseIdTag
inductive ObservationIdTag
inductive QueryIdTag
inductive TombstoneIdTag

abbrev DirectoryRecordId := StrongValue DirectoryRecordIdTag
abbrev StateId := StrongValue StateIdTag
abbrev CacheId := StrongValue CacheIdTag
abbrev CacheEntryId := StrongValue CacheEntryIdTag
abbrev ReplicaId := StrongValue ReplicaIdTag
abbrev LocationId := StrongValue LocationIdTag
abbrev NodeId := StrongValue NodeIdTag
abbrev WorkerId := StrongValue WorkerIdTag
abbrev WorkerBootId := StrongValue WorkerBootIdTag
abbrev DeviceId := StrongValue DeviceIdTag
abbrev StorageBackendId := StrongValue StorageBackendIdTag
abbrev StorageTierId := StrongValue StorageTierIdTag
abbrev CompatibilityId := StrongValue CompatibilityIdTag
abbrev ProvenanceId := StrongValue ProvenanceIdTag
abbrev LeaseId := StrongValue LeaseIdTag
abbrev ObservationId := StrongValue ObservationIdTag
abbrev QueryId := StrongValue QueryIdTag
abbrev TombstoneId := StrongValue TombstoneIdTag

inductive CoordinatorEpochTag
inductive DirectoryGenerationTag
inductive RecordGenerationTag
inductive StateGenerationTag
inductive CacheGenerationTag
inductive EntryGenerationTag
inductive ReplicaGenerationTag
inductive LocationGenerationTag
inductive LeaseGenerationTag
inductive ObservationGenerationTag
inductive PolicyGenerationTag

abbrev CoordinatorEpoch := StrongValue CoordinatorEpochTag
abbrev DirectoryGeneration := StrongValue DirectoryGenerationTag
abbrev RecordGeneration := StrongValue RecordGenerationTag
abbrev StateGeneration := StrongValue StateGenerationTag
abbrev CacheGeneration := StrongValue CacheGenerationTag
abbrev EntryGeneration := StrongValue EntryGenerationTag
abbrev ReplicaGeneration := StrongValue ReplicaGenerationTag
abbrev LocationGeneration := StrongValue LocationGenerationTag
abbrev LeaseGeneration := StrongValue LeaseGenerationTag
abbrev ObservationGeneration := StrongValue ObservationGenerationTag
abbrev PolicyGeneration := StrongValue PolicyGenerationTag

end CacheDirectory
