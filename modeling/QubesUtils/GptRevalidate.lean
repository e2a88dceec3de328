/-
The assertion of `create_new_gpt` about the header that it has just made.  The
size of the header is copied, and only the old sector size has bounded it.
-/
import QubesUtils.GptReadBack

namespace QubesUtils

open ByteCodec

/-- `check_gpt_header` accepts the header. -/
def Revalidates (crc32 : List UInt8 → UInt32) (geo : Geometry)
    (target : UInt64) (new : GPT) : Prop :=
  ∃ tableBytes, checkGptHeader crc32 new.header target geo.sectorSize
    geo.sectors = .ok tableBytes ∧ tableBytes ≠ 0

/-- A new header is accepted exactly if its size fits into the new sectors. -/
theorem gptAdjustSectors_revalidates_iff (crc32 : List UInt8 → UInt32)
    (geo : Geometry) (disk : Disk) (sectorOffset target : UInt64)
    (gpt new : GPT) (buffer : List UInt8)
    (hsource : SourceTable crc32 geo disk sectorOffset gpt)
    (hadjust : gptAdjustSectors crc32 target geo.sectorSize geo.sectors gpt =
      .ok (new, buffer)) :
    Revalidates crc32 geo target new ↔
      gpt.header.headerSize ≤ geo.sectorSize := by
  have hlayout := hsource.layout
  obtain ⟨a, hnew⟩ := gptAdjustSectors_newTable hlayout hadjust
  constructor
  · rintro ⟨tableBytes, hcheck, hne⟩
    have haccepted := (checkGptHeader_eq_ok_iff hne).mp hcheck
    rw [← hnew.header.headerSize]
    exact haccepted.headerSizeHigh
  · intro hheaderSize
    have haccepted := hnew.headerAccepted hlayout hheaderSize
    exact ⟨_, (checkGptHeader_eq_ok_iff haccepted.tableBytes_ne_zero).mpr
      haccepted, haccepted.tableBytes_ne_zero⟩

theorem gptAdjustSectors_revalidates_iff_sample :
    ∃ new buffer, gptAdjustSectors zlibCrc32 5 4096 6 sampleGpt =
        .ok (new, buffer) ∧
      Revalidates zlibCrc32 sampleGeometry 5 new := by
  have hrun : (gptAdjustSectors zlibCrc32 5 4096 6 sampleGpt).isOk := by
    decide +kernel
  cases hadjust : gptAdjustSectors zlibCrc32 5 4096 6 sampleGpt with
  | error stop =>
      rw [hadjust] at hrun
      cases hrun
  | ok result =>
      exact ⟨result.1, result.2, rfl,
        (gptAdjustSectors_revalidates_iff zlibCrc32 sampleGeometry sampleDisk
          1 5 sampleGpt result.1 result.2 sampleSource hadjust).mpr
          (by decide)⟩

/-! A device of six large sectors, written by a system with large sectors,
whose header says that it has 1000 bytes. -/

def largeEntry : GPTPartitionEntry :=
  { sampleEntry with startingLBA := 3, endingLBA := 3 }

def largeHeader : GPTHeader :=
  let header := { sampleHeader with
    headerSize := 1000
    headerCRC32 := 0
    alternateLBA := 5
    lastUsableLBA := 4
    partitionEntryArrayCRC32 :=
      zlibCrc32 (gptPartitionEntryCodec.put largeEntry) }
  { header with headerCRC32 := zlibCrc32 (gptHeaderCodec.put header) }

def largeGpt : GPT := ⟨largeHeader, 1, [largeEntry], 4096⟩

def largeDisk : Disk where
  sectorSize := 512
  size := 24576
  byte i :=
    if i < 4096 then (mbrCodec.put sampleMbr).getD i 0
    else if i < 8192 then
      (gptHeaderCodec.put largeHeader).getD (i - 4096) 0
    else (gptPartitionEntryCodec.put largeEntry).getD (i - 8192) 0

def largeGeometry : Geometry where
  size := 24576
  sectorSize := 512
  oldSectorSize := 4096
  sizes := Or.inl ⟨rfl, rfl⟩
  aligned := sampleGeometry.aligned
  offT := sampleGeometry.offT

theorem largeSource :
    SourceTable zlibCrc32 largeGeometry largeDisk 1 largeGpt where
  size := rfl
  location := Or.inl rfl
  read := by decide +kernel
  myLBA := rfl
  ordered := by
    intro entry hentry _
    rw [List.mem_singleton.mp hentry]
    decide

/-- Its table can be converted, and the new header is refused. -/
theorem largeHeader_refused :
    SourceTable zlibCrc32 largeGeometry largeDisk 1 largeGpt ∧
      ∃ new buffer, gptAdjustSectors zlibCrc32 1 512 48 largeGpt =
          .ok (new, buffer) ∧
        checkGptHeader zlibCrc32 new.header 1 512 48 = .ok 0 := by
  have hrun : (gptAdjustSectors zlibCrc32 1 512 48 largeGpt >>=
      fun result => checkGptHeader zlibCrc32 result.1.header 1 512 48) =
      .ok 0 := by
    decide +kernel
  obtain ⟨result, hadjust, hcheck⟩ := bind_eq_ok.mp hrun
  exact ⟨largeSource, result.1, result.2, hadjust, hcheck⟩

end QubesUtils
