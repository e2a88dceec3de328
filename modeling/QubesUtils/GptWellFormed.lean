/-
The entries of an accepted primary table, and the assertions of
`gpt_adjust_sectors` about them.  Start and end of an entry are bounded by the
header, each on its own; that the end is not in front of the start is not
checked.
-/
import QubesUtils.GptPreserve

namespace QubesUtils

open ByteCodec

/-- The computation returns, or exits with `EXIT_CONSTRAINT`. -/
def Constrained {α : Type} (x : Except Stop α) : Prop :=
  (∃ a, x = .ok a) ∨ ∃ failure, x = .error (.errx failure) ∧
    failure.code = EXIT_CONSTRAINT

theorem Constrained.ok {α : Type} {x : Except Stop α} {a : α}
    (h : x = .ok a) : Constrained x :=
  Or.inl ⟨a, h⟩

theorem Constrained.bind {α β : Type} {x : Except Stop α}
    {f : α → Except Stop β} (hx : Constrained x)
    (hf : ∀ a, x = .ok a → Constrained (f a)) : Constrained (x >>= f) := by
  rcases hx with ⟨a, rfl⟩ | ⟨failure, rfl, hcode⟩
  · exact hf a rfl
  · exact Or.inr ⟨failure, rfl, hcode⟩

theorem Constrained.assertC {condition : Prop} [Decidable condition]
    (h : condition) : Constrained (QubesUtils.assertC condition) :=
  .ok ((assertC_eq_ok (u := ())).mpr h)

theorem Constrained.ite {α : Type} {condition : Prop} [Decidable condition]
    {failure : Failure} {x : Except Stop α}
    (hcode : failure.code = EXIT_CONSTRAINT)
    (hx : ¬ condition → Constrained x) :
    Constrained (if condition then .error (.errx failure) else x) := by
  by_cases h : condition
  · rw [if_pos h]
    exact Or.inr ⟨failure, rfl, hcode⟩
  · rw [if_neg h]
    exact hx h

theorem scanEntries_constrained (oldSectorSize sectorSize : UInt32)
    (entries : List GPTPartitionEntry) :
    ∀ i extent, Constrained
      (scanEntries oldSectorSize sectorSize entries i extent) := by
  induction entries with
  | nil => exact fun _ _ => .ok rfl
  | cons entry entries ih =>
      intro i extent
      rw [scanEntries]
      by_cases hunused : unusedEntry entry = true
      · rw [if_pos hunused]
        exact ih _ _
      · rw [if_neg hunused]
        refine Constrained.bind (.ite rfl fun _ => .ite rfl fun _ => ?_)
          fun _ _ => ih _ _
        exact .ok rfl

section

variable {crc32 : List UInt8 → UInt32} {geo : Geometry} {gpt : GPT}
  {sectorOffset target : UInt64}

/-- The used entries span a part of the device. -/
theorem SourceLayout.extent (h : SourceLayout geo sectorOffset gpt)
    {extent : UsedExtent}
    (hscan : scanEntries gpt.sectorSize geo.sectorSize
      (gpt.entries.take gpt.usedEntries.toNat) 0
      ⟨0xFFFFFFFFFFFFFFFF, 0, 0xFFFFFFFF, 0xFFFFFFFF⟩ = .ok extent) :
    extent.firstStartByteOffset.toNat < extent.lastEndByteOffset.toNat ∧
      extent.lastEndByteOffset.toNat ≤ geo.size.toNat := by
  obtain ⟨hall, _, _, _, hlast⟩ := scanEntries_ok hscan
  obtain ⟨entry, hentry, hused⟩ := h.exists_used
  obtain ⟨_, _, hfirst, hbehind⟩ :=
    hall entry (h.mem_take hentry hused) hused
  rw [h.toNat_start hentry hused] at hfirst
  rw [h.toNat_end hentry hused] at hbehind
  have hlt := (h.ranged entry hentry hused).2.1
  refine ⟨by omega, ?_⟩
  rcases hlast with hzero | ⟨other, hother, hotherUsed, heq⟩
  · rw [hzero]
    exact Nat.zero_le _
  · have hmem := List.mem_of_mem_take hother
    have hbound := (h.ranged other hmem hotherUsed).2.2
    have hlastUsable := h.lastUsable
    rw [heq, h.toNat_end hmem hotherUsed]
    omega

theorem checkRoom_constrained (h : SourceLayout geo sectorOffset gpt)
    {extent : UsedExtent}
    (hlt : extent.firstStartByteOffset.toNat <
      extent.lastEndByteOffset.toNat)
    (hinside : extent.lastEndByteOffset.toNat ≤ geo.size.toNat) :
    Constrained (checkRoom gpt geo.sectorSize geo.size extent) := by
  refine Constrained.bind (.assertC (UInt64.lt_iff_toNat_lt.mpr hlt))
    fun _ _ => ?_
  have hused := h.shape.usedEntries_le
  have hsmall := h.small
  refine Constrained.bind (Or.inl (requiredBytes_total geo.blockSize
    h.entrySize (by omega))) fun _ _ => ?_
  refine Constrained.bind (.assertC (UInt64.le_iff_toNat_le.mpr hinside))
    fun _ _ => ?_
  exact .ite rfl fun _ => .ite rfl fun _ => .ok rfl

theorem newHeader_constrained (h : SourceLayout geo sectorOffset gpt)
    {count : UInt32} {tableBytes : UInt64}
    (htable : tableBytes.toNat ≤ geo.size.toNat) :
    Constrained (newHeader gpt target geo.sectorSize geo.sectors geo.size
      tableBytes count) := by
  have hoff := geo.offT
  have hlast := h.lastUsable
  obtain ⟨entry, hentry, hused⟩ := h.exists_used
  obtain ⟨hfirst, hlt, hle⟩ := h.ranged entry hentry hused
  have hsector : geo.sectorSize.toNat ≤ 4096 := by
    rcases geo.size_cases with h | h
    · omega
    · omega
  have hproduct : (gpt.header.firstUsableLBA *
      gpt.sectorSize.toUInt64).toNat = gpt.header.firstUsableLBA.toNat *
        geo.oldSectorSize.toNat := by
    rw [h.sectorSize, toNat_mul_of_lt, UInt32.toNat_toUInt64]
    rw [UInt32.toNat_toUInt64]
    omega
  have hbytes : (tableBytes + 2 * geo.sectorSize.toUInt64).toNat =
      tableBytes.toNat + 2 * geo.sectorSize.toNat := by
    rw [toNat_add_of_lt (by rw [twice_toNat]; omega), twice_toNat]
  refine Constrained.bind (Or.inl (roundToNextSector_total geo.blockSize ?_))
    fun _ _ => .ok rfl
  rw [toNat_maxC, hproduct, hbytes]
  omega

theorem fixupGpt_constrained {new : GPT} {tableBytes : UInt64}
    (hbytes : (gptPartitionTableBytes new.header).toNat ≤ 1048576) :
    Constrained (fixupGpt crc32 new tableBytes) := by
  refine Constrained.bind (.assertC ?_) fun _ _ => .ok rfl
  have hmax : (0xFFFFFFFF : UInt64).toNat = 4294967295 := rfl
  rw [UInt64.le_iff_toNat_le, hmax]
  omega

/-- With entries that end behind their start no assertion fails. -/
theorem gptAdjustSectors_constrained
    (h : SourceLayout geo sectorOffset gpt) (hsix : 6 ≤ geo.sectors)
    (htarget : target = 1 ∨ target = geo.sectors - 1) :
    Constrained (gptAdjustSectors crc32 target geo.sectorSize geo.sectors
      gpt) := by
  rw [gptAdjustSectors, geo.size_eq, h.entrySize]
  refine Constrained.bind (.assertC hsix) fun _ _ => ?_
  refine Constrained.bind (.assertC (h.sectorSize ▸ geo.oldBlockSize.valid))
    fun _ _ => ?_
  refine Constrained.bind (.assertC geo.blockSize.valid) fun _ _ => ?_
  refine Constrained.bind (.assertC htarget) fun _ _ => ?_
  refine Constrained.bind (.assertC (by decide)) fun _ _ => ?_
  refine Constrained.bind (scanEntries_constrained _ _ _ _ _)
    fun extent hscan => ?_
  obtain ⟨hlt, hinside⟩ := h.extent hscan
  refine Constrained.bind (checkRoom_constrained h hlt hinside)
    fun _ hroom => ?_
  obtain ⟨_, hbackup, hprimary⟩ :=
    (checkRoom_eq_ok_iff h.shape geo.blockSize).mp hroom
  have hused : gpt.usedEntries.toNat * 128 ≤
      roundUp (gpt.usedEntries.toNat * 128) geo.sectorSize.toNat := by
    rw [roundUp]
    rcases geo.size_cases with h | h
    · rw [h]
      omega
    · rw [h]
      omega
  have hlimit := h.small
  have hcounted : ∃ count, newEntriesCount gpt geo.sectorSize geo.size
      extent = .ok count := by
    refine ⟨UInt32.ofNat (min
        (min (geo.size.toNat - geo.sectorSize.toNat -
            extent.lastEndByteOffset.toNat)
          (extent.firstStartByteOffset.toNat -
            2 * geo.sectorSize.toNat) / 128)
        gpt.header.numberOfPartitionEntries.toNat),
      (newEntriesCount_eq_ok_iff h.shape geo.blockSize (by omega)
        (by omega)).mpr ⟨by omega, by omega,
          UInt32.toNat_ofNat_of_lt' ?_⟩⟩
    change _ < 2 ^ 32
    omega
  refine Constrained.bind (Or.inl hcounted) fun count hcount => ?_
  obtain ⟨_, hle, hback, _⟩ := newEntriesCount_ok h
    (checkRoom_ok h hroom) hcount
  refine Constrained.bind (Or.inl (requiredBytes_total geo.blockSize
    h.entrySize (by omega))) fun tableBytes hrequired => ?_
  have hbytes := requiredBytes_toNat h.entrySize hrequired
  have hfits : tableBytes.toNat ≤ geo.size.toNat := by
    rw [hbytes]
    have haligned := geo.aligned
    refine roundUp_le_of_aligned geo.size_cases (by omega) ?_
    rcases geo.size_cases with h | h
    · rw [h]
      omega
    · rw [h]
      omega
  refine Constrained.bind (newHeader_constrained h hfits)
    fun header hheader => ?_
  refine Constrained.bind (.assertC (UInt32.le_iff_toNat_le.mpr hle))
    fun _ _ => fixupGpt_constrained ?_
  simp only [newHeader, bind_eq_ok, pure, Except.pure, Except.ok.injEq]
    at hheader
  obtain ⟨_, _, rfl⟩ := hheader
  simp only [gptPartitionTableBytes, h.entrySize]
  rw [toNat_mul_of_lt]
  · simp only [UInt32.toNat_toUInt64, UInt32.reduceToNat]
    omega
  · simp only [UInt32.toNat_toUInt64, UInt32.reduceToNat]
    omega

end

/-- What is said of the entries of an accepted table, and of the conversion to
the other sector size. -/
structure WellFormed (crc32 : List UInt8 → UInt32) (geo : Geometry)
    (gpt : GPT) : Prop where
  ordered : ∀ entry ∈ gpt.entries, Used entry →
    gpt.header.firstUsableLBA ≤ entry.startingLBA ∧
      entry.startingLBA ≤ entry.endingLBA ∧
      entry.endingLBA ≤ gpt.header.lastUsableLBA
  usedEntries : ∃ before last after, gpt.entries = before ++ last :: after ∧
    Used last ∧ (∀ entry ∈ after, ¬ Used entry) ∧
    gpt.usedEntries.toNat = before.length + 1
  adjusts : ∀ target, target = 1 ∨ target = geo.sectors - 1 →
    Constrained (gptAdjustSectors crc32 target geo.sectorSize geo.sectors
      gpt)

/-- The entries of an accepted primary table are well formed exactly if no
used entry ends in front of its start. -/
theorem readAndCheckGpt_wellFormed_iff (crc32 : List UInt8 → UInt32)
    (geo : Geometry) (disk : Disk) (gpt : GPT) (hsize : disk.size = geo.size)
    (hsix : 6 ≤ geo.sectors)
    (hread : readAndCheckGpt crc32 disk 1 geo.oldSectorSize geo.oldSectors =
      .ok (some gpt)) :
    WellFormed crc32 geo gpt ↔ ∀ entry ∈ gpt.entries, Used entry →
      entry.startingLBA ≤ entry.endingLBA := by
  have hfound : FoundTable crc32 geo disk 1 gpt :=
    ⟨hsize, Or.inl rfl, hread⟩
  constructor
  · exact fun h entry hentry hused => (h.ordered entry hentry hused).2.1
  · intro hordered
    have hlayout := hfound.layout hordered fun hne => absurd rfl hne
    refine ⟨fun entry hentry hused => ?_, hlayout.used, fun target htarget =>
      gptAdjustSectors_constrained hlayout hsix htarget⟩
    obtain ⟨hstart, hend⟩ := hfound.accepted.ranged entry hentry hused
    exact ⟨hstart, hordered entry hentry hused, hend⟩

theorem readAndCheckGpt_wellFormed_iff_sample :
    WellFormed zlibCrc32 sampleGeometry sampleGpt := by
  refine (readAndCheckGpt_wellFormed_iff zlibCrc32 sampleGeometry sampleDisk
    sampleGpt rfl (by decide) sample_read).mpr ?_
  intro entry hentry _
  rw [List.mem_singleton.mp hentry]
  decide

/-! The same device with a partition that ends in front of its start. -/

def crossedEntry : GPTPartitionEntry :=
  { sampleEntry with startingLBA := 40, endingLBA := 31 }

def crossedHeader : GPTHeader :=
  let header := { sampleHeader with
    headerCRC32 := 0
    partitionEntryArrayCRC32 :=
      zlibCrc32 (gptPartitionEntryCodec.put crossedEntry) }
  { header with headerCRC32 := zlibCrc32 (gptHeaderCodec.put header) }

def crossedGpt : GPT := ⟨crossedHeader, 1, [crossedEntry], 512⟩

def crossedDisk : Disk where
  sectorSize := 4096
  size := 24576
  byte i :=
    if i < 512 then (mbrCodec.put sampleMbr).getD i 0
    else if i < 1024 then
      (gptHeaderCodec.put crossedHeader).getD (i - 512) 0
    else (gptPartitionEntryCodec.put crossedEntry).getD (i - 1024) 0

/-- It is accepted, and the conversion fails an assertion. -/
theorem crossedEntry_aborts :
    readAndCheckGpt zlibCrc32 crossedDisk 1 512 48 =
        .ok (some crossedGpt) ∧
      crossedEntry.endingLBA < crossedEntry.startingLBA ∧
      gptAdjustSectors zlibCrc32 1 4096 6 crossedGpt = .error .abort := by
  refine ⟨by decide +kernel, by decide, by decide +kernel⟩

end QubesUtils
