import Sar.Core.Error

/-!
# Resource limits

`ResourceLimits` is the single configuration every parser is given. The checks are one guard
(`atMost`) applied to a limit and its message; `checkArchiveSize` differs from the others in
that a limit of zero switches it off, and `allocationLen` adds the platform's allocation bound.
Limits are natural numbers: a configuration of the code is one whose values are at most
`u64::MAX`.
-/

namespace Sar

open Except (rejectIf)

/-- `sar_core::ResourceLimits`. -/
structure ResourceLimits where
  maxArchiveSize : ℕ
  maxEntryCount : ℕ
  maxLfhHeaderBytes : ℕ
  maxPathBytes : ℕ
  maxGlobalFlagsBytes : ℕ
  maxKmsPayloadBytes : ℕ
  maxTlvBytes : ℕ
  maxTlvCount : ℕ
  maxCdBytes : ℕ
  maxDecodedEntrySize : ℕ
  maxInMemoryBuffer : ℕ
  maxTotalPipelineMemory : ℕ
  maxSparseMapBytes : ℕ
  maxSparseDescriptors : ℕ
  maxFragmentCount : ℕ
  maxFragmentGroupSpan : ℕ
  maxLossTolerantGap : ℕ
  maxActiveStreams : ℕ
  maxSessionMetadataBytes : ℕ
  maxSessionStatusMessageBytes : ℕ
  maxSessionFragmentBufferBytes : ℕ
  maxSessionMemoryBytes : ℕ
  maxFecValueBytes : ℕ
  maxRecoveryProtectedRange : ℕ
  maxRepairWorkingSet : ℕ
  maxCdcChunkCount : ℕ
  maxCdcMetadataBytes : ℕ
  maxBsdiffControlBytes : ℕ
  maxBsdiffDiffBytes : ℕ
  maxBsdiffExtraBytes : ℕ
  maxBsdiffControlTriples : ℕ
  maxVcdiffWindowCount : ℕ
  maxVcdiffInstructionCount : ℕ
  maxVcdiffOutputSize : ℕ
  useRuntimeMemoryBudget : Bool

namespace ResourceLimits

/-- `ResourceLimits::default`. -/
def default : ResourceLimits where
  maxArchiveSize := 16 * 1024 * 1024 * 1024
  maxEntryCount := 1000000
  maxLfhHeaderBytes := 1024 * 1024
  maxPathBytes := 65535
  maxGlobalFlagsBytes := 65535
  maxKmsPayloadBytes := 64 * 1024
  maxTlvBytes := 1024 * 1024
  maxTlvCount := 1024
  maxCdBytes := 256 * 1024 * 1024
  maxDecodedEntrySize := 1024 * 1024 * 1024
  maxInMemoryBuffer := 1024 * 1024 * 1024
  maxTotalPipelineMemory := 2 * 1024 * 1024 * 1024
  maxSparseMapBytes := 8 * 1024 * 1024
  maxSparseDescriptors := 524288
  maxFragmentCount := 65535
  maxFragmentGroupSpan := 1024 * 1024 * 1024
  maxLossTolerantGap := 1024 * 1024 * 1024
  maxActiveStreams := 1024
  maxSessionMetadataBytes := 1024 * 1024
  maxSessionStatusMessageBytes := 4 * 1024
  maxSessionFragmentBufferBytes := 64 * 1024 * 1024
  maxSessionMemoryBytes := 64 * 1024 * 1024
  maxFecValueBytes := 256 * 1024 * 1024
  maxRecoveryProtectedRange := 16 * 1024 * 1024 * 1024
  maxRepairWorkingSet := 2 * 1024 * 1024 * 1024
  maxCdcChunkCount := 1000000
  maxCdcMetadataBytes := 50 * 1024 * 1024
  maxBsdiffControlBytes := 64 * 1024 * 1024
  maxBsdiffDiffBytes := 1024 * 1024 * 1024
  maxBsdiffExtraBytes := 1024 * 1024 * 1024
  maxBsdiffControlTriples := 4000000
  maxVcdiffWindowCount := 1000000
  maxVcdiffInstructionCount := 10000000
  -- zero defers to `maxDecodedEntrySize`
  maxVcdiffOutputSize := 0
  useRuntimeMemoryBudget := false

/-- `ResourceLimits::unlimited`. -/
def unlimited : ResourceLimits where
  maxArchiveSize := u64Max
  maxEntryCount := u64Max
  maxLfhHeaderBytes := u64Max
  maxPathBytes := u64Max
  maxGlobalFlagsBytes := u64Max
  maxKmsPayloadBytes := u64Max
  maxTlvBytes := u64Max
  maxTlvCount := u64Max
  maxCdBytes := u64Max
  maxDecodedEntrySize := u64Max
  maxInMemoryBuffer := u64Max
  maxTotalPipelineMemory := u64Max
  maxSparseMapBytes := u64Max
  maxSparseDescriptors := u64Max
  maxFragmentCount := u64Max
  maxFragmentGroupSpan := u64Max
  maxLossTolerantGap := u64Max
  maxActiveStreams := u64Max
  maxSessionMetadataBytes := u64Max
  maxSessionStatusMessageBytes := u64Max
  maxSessionFragmentBufferBytes := u64Max
  maxSessionMemoryBytes := u64Max
  maxFecValueBytes := u64Max
  maxRecoveryProtectedRange := u64Max
  maxRepairWorkingSet := u64Max
  maxCdcChunkCount := u64Max
  maxCdcMetadataBytes := u64Max
  maxBsdiffControlBytes := u64Max
  maxBsdiffDiffBytes := u64Max
  maxBsdiffExtraBytes := u64Max
  maxBsdiffControlTriples := u64Max
  maxVcdiffWindowCount := u64Max
  maxVcdiffInstructionCount := u64Max
  maxVcdiffOutputSize := u64Max
  useRuntimeMemoryBudget := false

/-- The guard every limit check is an instance of. -/
def atMost (limit : ℕ) (msg : String) (value : ℕ) : Result Unit :=
  rejectIf (value > limit) (.limitExceeded msg)

@[simp]
theorem atMost_eq_ok_iff {limit value : ℕ} {msg : String} {u : Unit} :
    atMost limit msg value = .ok u ↔ value ≤ limit := by
  simp [atMost]

theorem atMost_of_le {limit value : ℕ} (msg : String) (h : value ≤ limit) :
    atMost limit msg value = .ok () := by
  simp [h]

variable (limits : ResourceLimits)

/-- `check_archive_size`: a limit of zero means no limit. -/
def checkArchiveSize (value : ℕ) : Result Unit :=
  rejectIf (limits.maxArchiveSize > 0 ∧ value > limits.maxArchiveSize)
    (.limitExceeded "archive size exceeds configured limit")

/-- `check_entry_count`. -/
def checkEntryCount := atMost limits.maxEntryCount "CD entry count exceeds configured limit"

/-- `check_lfh_header_bytes`. -/
def checkLfhHeaderBytes :=
  atMost limits.maxLfhHeaderBytes "LFH header size exceeds configured limit"

/-- `check_path_bytes`. -/
def checkPathBytes := atMost limits.maxPathBytes "path length exceeds configured limit"

/-- `check_global_flags_bytes`. -/
def checkGlobalFlagsBytes :=
  atMost limits.maxGlobalFlagsBytes "global flags size exceeds configured limit"

/-- `check_kms_payload_bytes`. -/
def checkKmsPayloadBytes :=
  atMost limits.maxKmsPayloadBytes "KMS payload size exceeds configured limit"

/-- `check_tlv_bytes`. -/
def checkTlvBytes := atMost limits.maxTlvBytes "TLV value size exceeds configured limit"

/-- `check_tlv_count`. -/
def checkTlvCount := atMost limits.maxTlvCount "TLV count exceeds configured limit"

/-- `check_cd_bytes`. -/
def checkCdBytes := atMost limits.maxCdBytes "Central Dictionary size exceeds configured limit"

/-- `check_decoded_entry_size`. -/
def checkDecodedEntrySize :=
  atMost limits.maxDecodedEntrySize "decoded entry size exceeds configured limit"

/-- `check_in_memory_buffer`. -/
def checkInMemoryBuffer :=
  atMost limits.maxInMemoryBuffer "in-memory buffer size exceeds configured limit"

/-- `check_total_pipeline_memory`. -/
def checkTotalPipelineMemory :=
  atMost limits.maxTotalPipelineMemory "total pipeline memory exceeds configured limit"

/-- `check_allocation_bytes`. -/
def checkAllocationBytes (bytes : ℕ) : Result Unit := do
  limits.checkInMemoryBuffer bytes
  limits.checkTotalPipelineMemory bytes

/-- `allocation_len`: the length of a buffer about to be allocated. -/
def allocationLen (bytes : ℕ) (context : String) : Result ℕ := do
  limits.checkAllocationBytes bytes
  rejectIf (bytes > isizeMax) (.overflow context)
  pure bytes

/-- `check_sparse_map_bytes`. -/
def checkSparseMapBytes :=
  atMost limits.maxSparseMapBytes "sparse map size exceeds configured limit"

/-- `check_sparse_descriptor_count`. -/
def checkSparseDescriptorCount :=
  atMost limits.maxSparseDescriptors "sparse descriptor count exceeds configured limit"

/-- `check_active_streams`. -/
def checkActiveStreams (count : ℕ) : Result Unit :=
  rejectIf (count > limits.maxActiveStreams)
    (.tooManyStreams "active stream count exceeds configured limit")

/-- `check_session_metadata_bytes`. -/
def checkSessionMetadataBytes :=
  atMost limits.maxSessionMetadataBytes "session metadata exceeds configured limit"

/-- `check_session_status_message_bytes`. -/
def checkSessionStatusMessageBytes :=
  atMost limits.maxSessionStatusMessageBytes "session status message exceeds configured limit"

/-- `check_session_fragment_buffer_bytes`. -/
def checkSessionFragmentBufferBytes :=
  atMost limits.maxSessionFragmentBufferBytes "session fragment buffer exceeds configured limit"

/-- `check_session_memory_bytes`. -/
def checkSessionMemoryBytes :=
  atMost limits.maxSessionMemoryBytes "session memory exceeds configured limit"

/-- `check_fec_value_bytes`. -/
def checkFecValueBytes :=
  atMost limits.maxFecValueBytes "FEC value size exceeds configured limit"

/-- `check_recovery_protected_range`. -/
def checkRecoveryProtectedRange :=
  atMost limits.maxRecoveryProtectedRange "recovery protected range exceeds configured limit"

/-- `check_repair_working_set`. -/
def checkRepairWorkingSet :=
  atMost limits.maxRepairWorkingSet "repair working set exceeds configured limit"

/-- `check_cdc_metadata_bytes`. -/
def checkCdcMetadataBytes :=
  atMost limits.maxCdcMetadataBytes "CDC metadata size exceeds configured limit"

/-- An allocation is accepted exactly below both memory limits and the platform's bound. -/
theorem allocationLen_eq_ok_iff {limits : ResourceLimits} {bytes n : ℕ} {context : String} :
    limits.allocationLen bytes context = .ok n ↔
      n = bytes ∧ bytes ≤ limits.maxInMemoryBuffer ∧ bytes ≤ limits.maxTotalPipelineMemory ∧
        bytes ≤ isizeMax := by
  simp only [allocationLen, checkAllocationBytes, checkInMemoryBuffer, checkTotalPipelineMemory,
    Except.bind_eq_ok_iff, atMost_eq_ok_iff, Except.rejectIf_eq_ok_iff, Except.pure_eq_ok,
    Except.ok.injEq]
  constructor
  · rintro ⟨-, ⟨-, h1, h2⟩, -, h3, rfl⟩
    exact ⟨rfl, h1, h2, by omega⟩
  · rintro ⟨rfl, h1, h2, h3⟩
    exact ⟨(), ⟨(), h1, h2⟩, (), by omega, rfl⟩

end ResourceLimits

end Sar
