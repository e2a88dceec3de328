/-
The new table describes the old partitions: every used entry keeps its slot,
its identity and its bytes, and lies between the two new entry arrays.
-/
import QubesUtils.GptAdjusted

namespace QubesUtils

open ByteCodec

/-- The bytes written for the entries. -/
def Adjustment.buffer {geo : Geometry} {gpt : GPT} (a : Adjustment geo gpt) :
    List UInt8 :=
  gptPartitionEntryCodec.putAll a.entries ++
    zeros (a.tableBytes.toNat - a.count.toNat * 128)

/-- One of the two tables that a conversion computes. -/
structure NewTable (crc32 : List UInt8 → UInt32) {geo : Geometry} {gpt : GPT}
    (a : Adjustment geo gpt) (target : UInt64) (new : GPT)
    (buffer : List UInt8) : Prop where
  sixSectors : 6 ≤ geo.sectors
  location : target = 1 ∨ target = geo.sectors - 1
  header : HeaderLayout geo gpt target a.count a.tableBytes new.header
  entries : new.entries = a.entries
  length : a.entries.length = a.count.toNat
  buffer : buffer = a.buffer
  arrayChecksum : new.header.partitionEntryArrayCRC32 =
    crc32 (gptPartitionEntryCodec.putAll a.entries)
  headerChecksum : new.header.headerCRC32 =
    crc32 (gptHeaderCodec.put { new.header with headerCRC32 := 0 })

section

variable {crc32 : List UInt8 → UInt32} {geo : Geometry} {gpt new : GPT}
  {sectorOffset target : UInt64} {buffer : List UInt8}

theorem Adjustment.length_entries (h : SourceLayout geo sectorOffset gpt)
    (a : Adjustment geo gpt) : a.entries.length = a.count.toNat := by
  have hcount := (newEntriesCount_ok h (checkRoom_ok h a.room) a.counted).2.1
  rw [Adjustment.entries, List.length_map, List.length_take, h.count]
  omega

theorem newHeader_unsigned {sectorSize : UInt32}
    {sectors size tableBytes : UInt64} {count : UInt32} {header : GPTHeader}
    (hheader : newHeader gpt target sectorSize sectors size tableBytes
      count = .ok header) : header.headerCRC32 = 0 := by
  simp only [newHeader, bind_eq_ok, pure, Except.pure, Except.ok.injEq]
    at hheader
  obtain ⟨_, _, rfl⟩ := hheader
  rfl

/-- The whole result of `gpt_adjust_sectors`. -/
theorem gptAdjustSectors_newTable (h : SourceLayout geo sectorOffset gpt)
    (hadjust : gptAdjustSectors crc32 target geo.sectorSize geo.sectors gpt =
      .ok (new, buffer)) :
    ∃ a : Adjustment geo gpt, NewTable crc32 a target new buffer := by
  obtain ⟨hsix, hlocation, a, header, hheader, _, hfixup⟩ :=
    gptAdjustSectors_ok hadjust
  have hlayout := a.layout h
  have hnew := newHeader_layout h hlayout hheader
  have hlength := a.length_entries h
  have hbytes : (gptPartitionTableBytes header).toNat =
      a.count.toNat * 128 := by
    have hcount := a.count.toNat_lt
    rw [gptPartitionTableBytes, hnew.count, hnew.entrySize,
      toNat_mul_of_lt]
    · rfl
    · simp only [UInt32.toNat_toUInt64, UInt32.reduceToNat]
      omega
  have hput : (gptPartitionEntryCodec.putAll a.entries).length =
      a.count.toNat * 128 := by
    rw [Codec.length_putAll, hlength]
    rfl
  have hle : gptPartitionTableBytes header ≤ a.tableBytes := by
    rw [UInt64.le_iff_toNat_le, hbytes, hlayout.table, roundUp]
    rcases geo.size_cases with h | h
    · rw [h]
      omega
    · rw [h]
      omega
  simp only [fixupGpt, bind_eq_ok, assertC_eq_ok, exists_const, pure,
    Except.pure, Except.ok.injEq, Prod.mk.injEq] at hfixup
  obtain ⟨_, rfl, rfl⟩ := hfixup
  refine ⟨a, hsix, hlocation, ⟨hnew.signature, hnew.revision, hnew.headerSize,
    hnew.diskGUID, hnew.count, hnew.entrySize, hnew.myLBA,
    hnew.alternateLBA, hnew.partitionEntryLBA, hnew.firstUsableLow,
    hnew.firstUsableHigh, hnew.lastUsableLow, hnew.lastUsableHigh⟩, rfl,
    hlength, ?_, ?_, ?_⟩
  · rw [Adjustment.buffer, zeros, UInt64.toNat_sub_of_le _ _ hle, hbytes]
  · rw [hbytes, List.take_of_length_le (Nat.le_of_eq hput)]
  · simp only [newHeader_unsigned hheader]

/-! Entries. -/

/-- Every used entry lies in whole sectors of the new size. -/
theorem adjustEntry_used (h : SourceLayout geo sectorOffset gpt)
    (a : Adjustment geo gpt) {entry : GPTPartitionEntry}
    (hentry : entry ∈ gpt.entries) (hused : Used entry) :
    firstByte (adjustEntry gpt.sectorSize geo.sectorSize entry)
        geo.sectorSize = firstByte entry geo.oldSectorSize ∧
      behindByte (adjustEntry gpt.sectorSize geo.sectorSize entry)
        geo.sectorSize = behindByte entry geo.oldSectorSize := by
  have hnot : ¬ unusedEntry entry = true := by
    rw [hused]
    decide
  obtain ⟨hfirst, hbehind⟩ := (a.layout h).aligned entry hentry hused
  have hlt := (h.ranged entry hentry hused).2.1
  rw [adjustEntry, if_neg hnot, firstByte, behindByte]
  simp only
  have hstart : (startByteOffset entry gpt.sectorSize /
      geo.sectorSize.toUInt64).toNat =
      firstByte entry geo.oldSectorSize / geo.sectorSize.toNat := by
    rw [UInt64.toNat_div, UInt32.toNat_toUInt64, h.toNat_start hentry hused]
  have hend : (endByteOffset entry gpt.sectorSize /
      geo.sectorSize.toUInt64).toNat =
      behindByte entry geo.oldSectorSize / geo.sectorSize.toNat := by
    rw [UInt64.toNat_div, UInt32.toNat_toUInt64, h.toNat_end hentry hused]
  have hpositive : 1 ≤ behindByte entry geo.oldSectorSize /
      geo.sectorSize.toNat := by
    rcases geo.size_cases with h | h
    · rw [h] at hbehind ⊢
      omega
    · rw [h] at hbehind ⊢
      omega
  have hlast : (endByteOffset entry gpt.sectorSize /
      geo.sectorSize.toUInt64 - 1).toNat + 1 =
      behindByte entry geo.oldSectorSize / geo.sectorSize.toNat := by
    rw [UInt64.toNat_sub_of_le _ _ (UInt64.le_iff_toNat_le.mpr (by
      rw [hend, UInt64.toNat_one]
      exact hpositive)), hend, UInt64.toNat_one]
    omega
  rw [hstart, hlast]
  exact ⟨Nat.div_mul_cancel (Nat.dvd_of_mod_eq_zero hfirst),
    Nat.div_mul_cancel (Nat.dvd_of_mod_eq_zero hbehind)⟩

theorem adjustEntry_identity (oldSectorSize sectorSize : UInt32)
    (entry : GPTPartitionEntry) :
    let new := adjustEntry oldSectorSize sectorSize entry
    new.partitionTypeGUID = entry.partitionTypeGUID ∧
      new.uniquePartitionGUID = entry.uniquePartitionGUID ∧
      new.attributes = entry.attributes ∧
      new.partitionName = entry.partitionName ∧
      (Used new ↔ Used entry) := by
  rw [adjustEntry]
  by_cases hunused : unusedEntry entry = true
  · rw [if_pos hunused]
    exact ⟨rfl, rfl, rfl, rfl, Iff.rfl⟩
  · rw [if_neg hunused]
    exact ⟨rfl, rfl, rfl, rfl, Iff.rfl⟩

/-- A used entry is among those that are kept. -/
theorem slot_lt_count (h : SourceLayout geo sectorOffset gpt)
    (a : Adjustment geo gpt) {i : Nat} {entry : GPTPartitionEntry}
    (hentry : gpt.entries[i]? = some entry) (hused : Used entry) :
    i < a.count.toNat := by
  have hkeeps := UInt32.le_iff_toNat_le.mp (a.layout h).keeps
  obtain ⟨before, last, after, heq, _, hafter, hcount⟩ := h.used
  by_contra hout
  have hsplit : before ++ last :: after = (before ++ [last]) ++ after := by
    simp
  rw [heq, hsplit, List.getElem?_append_right (by simp; omega)] at hentry
  exact hafter entry (List.mem_of_getElem? hentry) hused

theorem NewTable.getElem?_entries {a : Adjustment geo gpt}
    (hnew : NewTable crc32 a target new buffer) (i : Nat) :
    new.entries[i]? = if i < a.count.toNat
      then gpt.entries[i]?.map (adjustEntry gpt.sectorSize geo.sectorSize)
      else none := by
  rw [hnew.entries, Adjustment.entries, List.getElem?_map,
    List.getElem?_take]
  split
  · rfl
  · rfl

/-- A used entry of the new table lies in its usable range. -/
theorem NewTable.inRange (h : SourceLayout geo sectorOffset gpt)
    {a : Adjustment geo gpt} (hnew : NewTable crc32 a target new buffer)
    {entry : GPTPartitionEntry} (hentry : entry ∈ gpt.entries)
    (hused : Used entry) :
    InRange new.header
      (adjustEntry gpt.sectorSize geo.sectorSize entry) := by
  obtain ⟨hfirst, hbehind⟩ := adjustEntry_used h a hentry hused
  have hlow := hnew.header.firstUsableHigh entry hentry hused
  have hhigh := hnew.header.lastUsableLow entry hentry hused
  have hpositive : 0 < geo.sectorSize.toNat := by
    rcases geo.size_cases with h | h
    · omega
    · omega
  rw [← hfirst, firstByte] at hlow
  rw [← hbehind, behindByte] at hhigh
  have hlow' := Nat.le_of_mul_le_mul_right hlow hpositive
  have hhigh' := Nat.le_of_mul_le_mul_right hhigh hpositive
  exact ⟨UInt64.le_iff_toNat_le.mpr hlow',
    UInt64.le_iff_toNat_le.mpr (by omega)⟩

theorem Adjustment.length_buffer (h : SourceLayout geo sectorOffset gpt)
    (a : Adjustment geo gpt) : a.buffer.length = a.tableBytes.toNat := by
  have htable := (a.layout h).table
  have hle : a.count.toNat * 128 ≤ a.tableBytes.toNat := by
    rw [htable, roundUp]
    rcases geo.size_cases with h | h
    · rw [h]
      omega
    · rw [h]
      omega
  have hput : (gptPartitionEntryCodec.putAll a.entries).length =
      a.count.toNat * 128 := by
    rw [Codec.length_putAll, a.length_entries h]
    rfl
  rw [Adjustment.buffer, List.length_append, hput, zeros,
    List.length_replicate]
  omega

end

/-- The conversion keeps the partitions: each used entry stays in its slot
with its identity and its bytes, no slot becomes used, the used entries are
in the new usable range, and that range lies between the new arrays, which
take the bytes behind the primary header and in front of the backup header. -/
theorem gptAdjustSectors_preserves (crc32 : List UInt8 → UInt32)
    (geo : Geometry) (disk : Disk) (sectorOffset target : UInt64)
    (gpt new : GPT) (buffer : List UInt8)
    (hsource : SourceTable crc32 geo disk sectorOffset gpt)
    (hadjust : gptAdjustSectors crc32 target geo.sectorSize geo.sectors gpt =
      .ok (new, buffer)) :
    (∀ (i : Nat) (entry : GPTPartitionEntry),
      gpt.entries[i]? = some entry → Used entry →
      ∃ entry', new.entries[i]? = some entry' ∧ Used entry' ∧
        entry'.partitionTypeGUID = entry.partitionTypeGUID ∧
        entry'.uniquePartitionGUID = entry.uniquePartitionGUID ∧
        entry'.attributes = entry.attributes ∧
        entry'.partitionName = entry.partitionName ∧
        firstByte entry' geo.sectorSize =
          firstByte entry geo.oldSectorSize ∧
        behindByte entry' geo.sectorSize =
          behindByte entry geo.oldSectorSize ∧
        InRange new.header entry') ∧
    (∀ (i : Nat) (entry' : GPTPartitionEntry),
      new.entries[i]? = some entry' → Used entry' →
      ∃ entry, gpt.entries[i]? = some entry ∧ Used entry) ∧
    2 * geo.sectorSize.toNat + buffer.length ≤
      new.header.firstUsableLBA.toNat * geo.sectorSize.toNat ∧
    (new.header.lastUsableLBA.toNat + 1) * geo.sectorSize.toNat ≤
      geo.size.toNat - geo.sectorSize.toNat - buffer.length ∧
    new.header.partitionEntryLBA.toNat * geo.sectorSize.toNat =
      if target = 1 then 2 * geo.sectorSize.toNat
      else geo.size.toNat - geo.sectorSize.toNat - buffer.length := by
  have hlayout := hsource.layout
  obtain ⟨a, hnew⟩ := gptAdjustSectors_newTable hlayout hadjust
  have hheader := hnew.header
  have hlength : buffer.length = a.tableBytes.toNat := by
    rw [hnew.buffer, a.length_buffer hlayout]
  refine ⟨?_, ?_, ?_, ?_, ?_⟩
  · intro i entry hentry hused
    have hslot := slot_lt_count hlayout a hentry hused
    have hmem := List.mem_of_getElem? hentry
    obtain ⟨htype, hunique, hattributes, hname, husedIff⟩ :=
      adjustEntry_identity gpt.sectorSize geo.sectorSize entry
    obtain ⟨hfirst, hbehind⟩ := adjustEntry_used hlayout a hmem hused
    refine ⟨adjustEntry gpt.sectorSize geo.sectorSize entry, ?_,
      husedIff.mpr hused, htype, hunique, hattributes, hname, hfirst,
      hbehind, hnew.inRange hlayout hmem hused⟩
    rw [hnew.getElem?_entries, if_pos hslot, hentry]
    rfl
  · intro i entry' hentry' hused'
    rw [hnew.getElem?_entries] at hentry'
    split at hentry'
    · obtain ⟨entry, hentry, rfl⟩ := Option.map_eq_some_iff.mp hentry'
      exact ⟨entry, hentry, (adjustEntry_identity _ _ entry).2.2.2.2.mp
        hused'⟩
    · cases hentry'
  · rw [hlength]
    have hlow := hheader.firstUsableLow
    omega
  · rw [hlength]
    have hhigh := hheader.lastUsableHigh
    omega
  · rw [hlength]
    exact hheader.partitionEntryLBA

theorem gptAdjustSectors_preserves_sample :
    ∃ new buffer, gptAdjustSectors zlibCrc32 1 sampleGeometry.sectorSize
        sampleGeometry.sectors sampleGpt = .ok (new, buffer) ∧
      (∃ entry', new.entries[0]? = some entry' ∧ Used entry' ∧
        entry'.partitionTypeGUID = sampleEntry.partitionTypeGUID ∧
        entry'.uniquePartitionGUID = sampleEntry.uniquePartitionGUID ∧
        entry'.attributes = sampleEntry.attributes ∧
        entry'.partitionName = sampleEntry.partitionName ∧
        firstByte entry' 4096 = firstByte sampleEntry 512 ∧
        behindByte entry' 4096 = behindByte sampleEntry 512 ∧
        InRange new.header entry') ∧
      (∀ (i : Nat) (entry' : GPTPartitionEntry),
        new.entries[i]? = some entry' → Used entry' →
        ∃ entry, sampleGpt.entries[i]? = some entry ∧ Used entry) ∧
      2 * 4096 + buffer.length ≤
        new.header.firstUsableLBA.toNat * 4096 ∧
      (new.header.lastUsableLBA.toNat + 1) * 4096 ≤
        24576 - 4096 - buffer.length ∧
      new.header.partitionEntryLBA.toNat * 4096 = 2 * 4096 := by
  have hok : (gptAdjustSectors zlibCrc32 1 sampleGeometry.sectorSize
      sampleGeometry.sectors sampleGpt).isOk = true := by
    decide +kernel
  cases hadjust : gptAdjustSectors zlibCrc32 1 sampleGeometry.sectorSize
    sampleGeometry.sectors sampleGpt with
  | error stop =>
      rw [hadjust] at hok
      cases hok
  | ok result =>
      obtain ⟨hkept, hnone, hfirst, hlast, hentries⟩ :=
        gptAdjustSectors_preserves zlibCrc32 sampleGeometry sampleDisk 1 1
          sampleGpt result.1 result.2 sampleSource hadjust
      exact ⟨result.1, result.2, rfl,
        hkept 0 sampleEntry rfl (by rw [Used]; decide), hnone, hfirst, hlast,
        hentries⟩

end QubesUtils
