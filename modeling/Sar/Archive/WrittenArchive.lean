import Sar.Archive.Reader
import Sar.Archive.WriterRuns

/-!
# A written archive

A finished archive is the Global Header, the sealed entries one after the other, and the index
of an indexed archive (`Archived`). `archived_of_run` finds these parts in what a run of the
writer leaves.
-/

namespace Sar

open Except (rejectIf liftError okOr)
open Stateful LittleEndian

namespace ArchiveWriter

/-! ### A finished archive -/

/-- What a finished archive consists of. -/
structure Archived (backend : Backend) (w : ArchiveWriter) (calls : List Call)
    (headerBytes : Bytes) (stored : List Sealed) (index file : Bytes) : Prop where
  holds : w.Holds headerBytes stored
  seals : List.Forall₂ (SealsCall backend w) calls stored
  indexOf : w.IndexOf index
  file_eq : file = w.writer ++ index

variable {backend : Backend} {w : ArchiveWriter} {calls : List Call} {headerBytes : Bytes}
  {stored : List Sealed} {index file : Bytes}

/-- `finish` makes a finished archive of the entries that are in the sink. -/
theorem Begun.archived {w₁ finished : ArchiveWriter} {summary : ArchiveSummary}
    (hbegun : w₁.Begun stored) (hseals : List.Forall₂ (SealsCall backend w₁) calls stored)
    (h : ArchiveWriter.finish w₁ = (.ok summary, finished)) :
    ∃ w headerBytes index,
      Archived backend w calls headerBytes stored index finished.writer ∧
        w.settings = w₁.settings ∧
        summary = ⟨stored.length, finished.writer.length, !w.flags.noIndex⟩ := by
  obtain ⟨w, headerBytes, index, -, hopened, hholds, hindex, hwriter, hsummary⟩ := hbegun.finish h
  refine ⟨w, headerBytes, index, ⟨hholds, ?_, hindex, hwriter⟩, hopened.settings_eq, hsummary⟩
  rcases hopened with ⟨-, rfl⟩ | ⟨hwritten, -⟩
  · exact hseals
  · -- without a Global Header no entry was written
    rcases hbegun with ⟨-, rfl⟩ | ⟨_, hholds₁⟩
    · obtain rfl := List.forall₂_nil_right_iff.mp hseals
      exact .nil
    · cases hwritten.symm.trans hholds₁.headerWritten

/-- Calls that all succeed, with the final `finish`, leave a finished archive. -/
theorem archived_of_run {start finished : ArchiveWriter} {summary : ArchiveSummary}
    (hstart : start.Fresh)
    (h : (do runCalls backend calls; finish : WriterM ArchiveSummary) start =
      (.ok summary, finished)) :
    ∃ w headerBytes stored index,
      Archived backend w calls headerBytes stored index finished.writer ∧
        w.settings = start.settings ∧
        summary = ⟨stored.length, finished.writer.length, !w.flags.noIndex⟩ := by
  obtain ⟨_, w₁, hcalls, hfinish⟩ := andThen_eq_ok_iff.mp h
  obtain ⟨stored, hbegun, hseals, hsettings, -⟩ := Begun.runCalls (.inl ⟨hstart, rfl⟩) hcalls
  rw [List.nil_append] at hbegun
  obtain ⟨w, headerBytes, index, harchived, hsame, hsummary⟩ := hbegun.archived hseals hfinish
  exact ⟨w, headerBytes, stored, index, harchived, hsame.trans hsettings, hsummary⟩

/-- The length of what stands in front of the index. -/
theorem Archived.length_writer (h : Archived backend w calls headerBytes stored index file) :
    w.writer.length ≤ u64Max :=
  h.holds.position ▸ h.holds.position_le

/-! ### What the settings say -/

/-- A configuration under which an archive was written: the writer still has the settings that
the constructor gave it. -/
structure WrittenUnder (backend : Backend) (options : ArchiveWriterOptions)
    (compression : CompressionSettings) (keyProvider : Option KeyProvider) (cdMetadata : List Tlv)
    (encryption : Option ResolvedEncryption) (w : ArchiveWriter) : Prop where
  configured : Configured backend options keyProvider cdMetadata encryption
  settings_eq : w.settings = (initial options compression encryption cdMetadata).settings

variable {options : ArchiveWriterOptions} {compression : CompressionSettings}
  {keyProvider : Option KeyProvider} {cdMetadata : List Tlv}
  {encryption : Option ResolvedEncryption}

/-- The flags, apart from the width of the size fields. -/
theorem WrittenUnder.flags_eq
    (h : WrittenUnder backend options compression keyProvider cdMetadata encryption w) :
    { w.flags with size64Bit := false } =
      { flagsOfOptions options compression cdMetadata with size64Bit := false } :=
  (congrArg flags h.settings_eq :)

end ArchiveWriter

end Sar
