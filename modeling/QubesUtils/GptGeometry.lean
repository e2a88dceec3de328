/-
A device under both sector sizes, and where the table that was read lies on
it: all byte offsets as exact numbers.
-/
import QubesUtils.GptAccepted
import QubesUtils.Crc32

namespace QubesUtils

open ByteCodec

/-- A device size that both sector sizes divide, and the two sector sizes:
the one to write and the one that was read. -/
structure Geometry where
  size : UInt64
  sectorSize : UInt32
  oldSectorSize : UInt32
  sizes : (sectorSize = 512 ∧ oldSectorSize = 4096) ∨
    (sectorSize = 4096 ∧ oldSectorSize = 512)
  aligned : size.toNat % 4096 = 0
  offT : size.toNat < 2 ^ 63

namespace Geometry

def sectors (geo : Geometry) : UInt64 := geo.size / geo.sectorSize.toUInt64

def oldSectors (geo : Geometry) : UInt64 :=
  geo.size / geo.oldSectorSize.toUInt64

variable (geo : Geometry)

theorem toNat_sizes :
    (geo.sectorSize.toNat = 512 ∧ geo.oldSectorSize.toNat = 4096) ∨
      (geo.sectorSize.toNat = 4096 ∧ geo.oldSectorSize.toNat = 512) := by
  rcases geo.sizes with ⟨h, h'⟩ | ⟨h, h'⟩
  · rw [h, h']
    exact Or.inl ⟨rfl, rfl⟩
  · rw [h, h']
    exact Or.inr ⟨rfl, rfl⟩

theorem blockSize : BlockSize geo.sectorSize := by
  rcases geo.sizes with ⟨h, _⟩ | ⟨h, _⟩
  · exact Or.inl h
  · exact Or.inr h

theorem oldBlockSize : BlockSize geo.oldSectorSize := by
  rcases geo.sizes with ⟨_, h⟩ | ⟨_, h⟩
  · exact Or.inr h
  · exact Or.inl h

theorem toNat_sectors :
    geo.sectors.toNat = geo.size.toNat / geo.sectorSize.toNat := by
  rw [sectors, UInt64.toNat_div, UInt32.toNat_toUInt64]

theorem toNat_oldSectors :
    geo.oldSectors.toNat = geo.size.toNat / geo.oldSectorSize.toNat := by
  rw [oldSectors, UInt64.toNat_div, UInt32.toNat_toUInt64]

/-- The sectors cover the device exactly. -/
theorem sectors_mul :
    geo.sectors.toNat * geo.sectorSize.toNat = geo.size.toNat := by
  have haligned := geo.aligned
  rw [toNat_sectors]
  rcases geo.toNat_sizes with ⟨h, _⟩ | ⟨h, _⟩
  · rw [h]
    omega
  · rw [h]
    omega

theorem oldSectors_mul :
    geo.oldSectors.toNat * geo.oldSectorSize.toNat = geo.size.toNat := by
  have haligned := geo.aligned
  rw [toNat_oldSectors]
  rcases geo.toNat_sizes with ⟨_, h⟩ | ⟨_, h⟩
  · rw [h]
    omega
  · rw [h]
    omega

theorem toNat_sectors_sub_one (hsize : 4096 ≤ geo.size.toNat) :
    (geo.sectors - 1).toNat = geo.sectors.toNat - 1 := by
  have hone : 1 ≤ geo.sectors.toNat := by
    rw [toNat_sectors]
    rcases geo.toNat_sizes with ⟨h, _⟩ | ⟨h, _⟩
    · rw [h]
      omega
    · rw [h]
      omega
  exact UInt64.toNat_sub_of_le _ _ (UInt64.le_iff_toNat_le.mpr hone)

theorem toNat_oldSectors_sub_one (hsize : 4096 ≤ geo.size.toNat) :
    (geo.oldSectors - 1).toNat = geo.oldSectors.toNat - 1 := by
  have hone : 1 ≤ geo.oldSectors.toNat := by
    rw [toNat_oldSectors]
    rcases geo.toNat_sizes with ⟨_, h⟩ | ⟨_, h⟩
    · rw [h]
      omega
    · rw [h]
      omega
  exact UInt64.toNat_sub_of_le _ _ (UInt64.le_iff_toNat_le.mpr hone)

theorem nonempty (hsix : 6 ≤ geo.oldSectors.toNat) :
    4096 ≤ geo.size.toNat := by
  have haligned := geo.aligned
  have hmul := geo.oldSectors_mul
  rcases geo.toNat_sizes with ⟨_, h⟩ | ⟨_, h⟩
  · rw [h] at hmul
    omega
  · rw [h] at hmul
    omega

end Geometry

theorem checkSizes_eq_ok_iff {sectorSize : UInt32} {size sectors : UInt64} :
    checkSizes sectorSize size = .ok sectors ↔
      BlockSize sectorSize ∧ size.toNat < 2 ^ 63 ∧
        size % sectorSize.toUInt64 = 0 ∧ 6 ≤ sectors ∧
        sectors = size / sectorSize.toUInt64 := by
  have hblock : ¬ (sectorSize ≠ 512 ∧ sectorSize ≠ 4096) ↔
      BlockSize sectorSize := by
    rw [not_and_or, Decidable.not_not, Decidable.not_not, BlockSize]
  simp only [checkSizes, ite_error_eq_ok, hblock, Nat.not_le, ne_eq,
    Decidable.not_not, UInt64.not_lt, Except.ok.injEq]
  constructor
  · rintro ⟨hsize, hoff, haligned, hsix, rfl⟩
    exact ⟨hsize, hoff, haligned, hsix, rfl⟩
  · rintro ⟨hsize, hoff, haligned, hsix, rfl⟩
    exact ⟨hsize, hoff, haligned, hsix, rfl⟩

/-- Where `main` tries the other sector size, its numbers are those of a
geometry. -/
theorem checkSizes_geometry {sectorSize : UInt32} {size sectors : UInt64}
    (h : checkSizes sectorSize size = .ok sectors)
    (haligned : ¬ size % 4096 ≠ 0) :
    ∃ geo : Geometry, geo.size = size ∧ geo.sectorSize = sectorSize ∧
      geo.sectors = sectors ∧
      geo.oldSectorSize = (if sectorSize = 4096 then 512 else 4096) ∧
      geo.oldSectors =
        if sectorSize = 4096 then sectors <<< 3 else sectors >>> 3 := by
  obtain ⟨hblock, hoff, _, hsix, hsectors⟩ := checkSizes_eq_ok_iff.mp h
  have hmod : size.toNat % 4096 = 0 := by
    have hnat := congrArg UInt64.toNat (Decidable.not_not.mp haligned)
    rw [UInt64.toNat_mod] at hnat
    exact hnat
  rcases hblock with rfl | rfl
  · refine ⟨⟨size, 512, 4096, Or.inl ⟨rfl, rfl⟩, hmod, hoff⟩, rfl, rfl,
      hsectors.symm, rfl, ?_⟩
    rw [hsectors, Geometry.oldSectors, if_neg (by decide),
      ← UInt64.toNat_inj, UInt64.toNat_shiftRight, UInt64.toNat_div,
      UInt64.toNat_div, Nat.shiftRight_eq_div_pow]
    change size.toNat / 4096 = size.toNat / 512 / 8
    omega
  · refine ⟨⟨size, 4096, 512, Or.inr ⟨rfl, rfl⟩, hmod, hoff⟩, rfl, rfl,
      hsectors.symm, rfl, ?_⟩
    rw [hsectors, Geometry.oldSectors, if_pos rfl, ← UInt64.toNat_inj,
      UInt64.toNat_shiftLeft, UInt64.toNat_div, UInt64.toNat_div,
      Nat.shiftLeft_eq]
    change size.toNat / 512 = size.toNat / 4096 * 8 % 2 ^ 64
    omega

/-- The accepted table that the conversion starts from: it stands where it
was read, and no used entry ends before it starts. -/
structure SourceTable (crc32 : List UInt8 → UInt32) (geo : Geometry)
    (disk : Disk) (sectorOffset : UInt64) (gpt : GPT) : Prop where
  size : disk.size = geo.size
  location : sectorOffset = 1 ∨ sectorOffset = geo.oldSectors - 1
  read : readAndCheckGpt crc32 disk sectorOffset geo.oldSectorSize
    geo.oldSectors = .ok (some gpt)
  myLBA : gpt.header.myLBA = sectorOffset
  ordered : ∀ entry ∈ gpt.entries, Used entry →
    entry.startingLBA ≤ entry.endingLBA

/-- A table that was found, whatever it says. -/
structure FoundTable (crc32 : List UInt8 → UInt32) (geo : Geometry)
    (disk : Disk) (sectorOffset : UInt64) (gpt : GPT) : Prop where
  size : disk.size = geo.size
  location : sectorOffset = 1 ∨ sectorOffset = geo.oldSectors - 1
  read : readAndCheckGpt crc32 disk sectorOffset geo.oldSectorSize
    geo.oldSectors = .ok (some gpt)

/-- The bytes `[first, behind)` of an entry. -/
def firstByte (entry : GPTPartitionEntry) (sectorSize : UInt32) : Nat :=
  entry.startingLBA.toNat * sectorSize.toNat

def behindByte (entry : GPTPartitionEntry) (sectorSize : UInt32) : Nat :=
  (entry.endingLBA.toNat + 1) * sectorSize.toNat

/-- Where the parts of the source table are. -/
structure SourceLayout (geo : Geometry) (sectorOffset : UInt64) (gpt : GPT) :
    Prop where
  nonempty : 4096 ≤ geo.size.toNat
  sectorSize : gpt.sectorSize = geo.oldSectorSize
  revision : gpt.header.revision = 0x00010000
  headerSize : 92 ≤ gpt.header.headerSize
  entrySize : gpt.header.sizeOfPartitionEntry = 128
  count : gpt.entries.length = gpt.header.numberOfPartitionEntries.toNat
  small : gpt.header.numberOfPartitionEntries.toNat * 128 ≤ 1048576
  firstUsable : 3 ≤ gpt.header.firstUsableLBA.toNat
  lastUsable : (gpt.header.lastUsableLBA.toNat + 1) *
    geo.oldSectorSize.toNat + geo.oldSectorSize.toNat ≤ geo.size.toNat
  ranged : ∀ entry ∈ gpt.entries, Used entry →
    gpt.header.firstUsableLBA.toNat * geo.oldSectorSize.toNat ≤
        firstByte entry geo.oldSectorSize ∧
      firstByte entry geo.oldSectorSize <
        behindByte entry geo.oldSectorSize ∧
      behindByte entry geo.oldSectorSize ≤
        (gpt.header.lastUsableLBA.toNat + 1) * geo.oldSectorSize.toNat
  used : ∃ before last after, gpt.entries = before ++ last :: after ∧
    Used last ∧ (∀ entry ∈ after, ¬ Used entry) ∧
    gpt.usedEntries.toNat = before.length + 1
  primary : sectorOffset = 1 →
    gpt.header.partitionEntryLBA.toNat = 2 ∧
    2 * geo.oldSectorSize.toNat +
        roundUp (gpt.header.numberOfPartitionEntries.toNat * 128)
          geo.oldSectorSize.toNat ≤
      gpt.header.firstUsableLBA.toNat * geo.oldSectorSize.toNat
  backup : sectorOffset ≠ 1 →
    (gpt.header.lastUsableLBA.toNat + 1) * geo.oldSectorSize.toNat ≤
      gpt.header.partitionEntryLBA.toNat * geo.oldSectorSize.toNat ∧
    gpt.header.partitionEntryLBA.toNat * geo.oldSectorSize.toNat +
        roundUp (gpt.header.numberOfPartitionEntries.toNat * 128)
          geo.oldSectorSize.toNat ≤
      geo.size.toNat - geo.oldSectorSize.toNat

section

variable {crc32 : List UInt8 → UInt32} {geo : Geometry} {disk : Disk}
  {sectorOffset : UInt64} {gpt : GPT}

theorem SourceTable.found
    (h : SourceTable crc32 geo disk sectorOffset gpt) :
    FoundTable crc32 geo disk sectorOffset gpt :=
  ⟨h.size, h.location, h.read⟩

theorem FoundTable.accepted
    (h : FoundTable crc32 geo disk sectorOffset gpt) :
    GptAccepted crc32 disk sectorOffset geo.oldSectorSize geo.oldSectors
      gpt :=
  (readAndCheckGpt_eq_some_iff geo.oldBlockSize).mp h.read

theorem FoundTable.six_le_oldSectors
    (h : FoundTable crc32 geo disk sectorOffset gpt) :
    6 ≤ geo.oldSectors.toNat :=
  UInt64.le_iff_toNat_le.mp h.accepted.accepted.sixSectors

theorem FoundTable.nonempty
    (h : FoundTable crc32 geo disk sectorOffset gpt) :
    4096 ≤ geo.size.toNat :=
  geo.nonempty h.six_le_oldSectors

theorem SourceTable.accepted
    (h : SourceTable crc32 geo disk sectorOffset gpt) :
    GptAccepted crc32 disk sectorOffset geo.oldSectorSize geo.oldSectors
      gpt :=
  h.found.accepted

/-- A table of whole entries that fits into whole sectors fits rounded up. -/
theorem roundUp_le_of_le {value sectors sectorSize : Nat}
    (hsize : sectorSize = 512 ∨ sectorSize = 4096)
    (hle : value ≤ sectors * sectorSize) :
    roundUp value sectorSize ≤ sectors * sectorSize := by
  rw [roundUp]
  rcases hsize with rfl | rfl
  · omega
  · omega

theorem toNat_mul_of_lt {a b : UInt64} (hlt : a.toNat * b.toNat < 2 ^ 64) :
    (a * b).toNat = a.toNat * b.toNat := by
  rw [UInt64.toNat_mul, Nat.mod_eq_of_lt hlt]

/-- The table fits between its first sector and the sector behind it. -/
theorem table_fits {tableBytes first behind : UInt64} {sectorSize : UInt32}
    {bound : Nat} (hsize : sectorSize.toNat = 512 ∨ sectorSize.toNat = 4096)
    (hle : first ≤ behind) (hbehind : behind.toNat * sectorSize.toNat ≤ bound)
    (hbound : bound < 2 ^ 63)
    (hfits : tableBytes ≤ (behind - first) * sectorSize.toUInt64) :
    first.toNat * sectorSize.toNat +
        roundUp tableBytes.toNat sectorSize.toNat ≤
      behind.toNat * sectorSize.toNat := by
  have hle' := UInt64.le_iff_toNat_le.mp hle
  have hsub : (behind - first).toNat = behind.toNat - first.toNat :=
    UInt64.toNat_sub_of_le _ _ hle
  have hfits' := UInt64.le_iff_toNat_le.mp hfits
  have hproduct : (behind - first).toNat * sectorSize.toUInt64.toNat ≤
      bound := by
    rw [hsub, UInt32.toNat_toUInt64]
    refine Nat.le_trans (Nat.mul_le_mul_right _ (Nat.sub_le _ _)) hbehind
  rw [toNat_mul_of_lt (by omega), hsub, UInt32.toNat_toUInt64] at hfits'
  have hround := roundUp_le_of_le hsize hfits'
  rcases hsize with h | h
  · rw [h] at hround ⊢
    omega
  · rw [h] at hround ⊢
    omega

theorem SourceTable.oldSize_cases (geo : Geometry) :
    geo.oldSectorSize.toNat = 512 ∨ geo.oldSectorSize.toNat = 4096 := by
  rcases geo.toNat_sizes with ⟨_, h⟩ | ⟨_, h⟩
  · exact Or.inr h
  · exact Or.inl h

/-- The bounds of a table that was read as the primary one. -/
theorem FoundTable.primary_bounds
    (h : FoundTable crc32 geo disk sectorOffset gpt)
    (hprimary : sectorOffset = 1) :
    gpt.header.lastUsableLBA.toNat + 2 ≤ geo.oldSectors.toNat ∧
      gpt.header.partitionEntryLBA.toNat = 2 ∧
      2 * geo.oldSectorSize.toNat +
          roundUp (gpt.header.numberOfPartitionEntries.toNat * 128)
            geo.oldSectorSize.toNat ≤
        gpt.header.firstUsableLBA.toNat * geo.oldSectorSize.toNat := by
  have hheader := h.accepted.accepted
  obtain ⟨space, hspace, hfits⟩ := hheader.space
  rw [partitionTableUsableSpace_eq_some_iff] at hspace
  rcases hspace with ⟨_, hentry, hlast, halternate, rfl⟩ | ⟨hne, _⟩
  · have hlast' := UInt64.lt_iff_toNat_lt.mp hlast
    have halternate' := UInt64.lt_iff_toNat_lt.mp halternate
    have husable := UInt64.le_iff_toNat_le.mp hheader.usable
    have hfirst : 3 ≤ gpt.header.firstUsableLBA.toNat :=
      UInt64.le_iff_toNat_le.mp hheader.firstUsable
    have hlba : gpt.header.partitionEntryLBA.toNat = 2 := by
      rw [hentry]
      rfl
    have hmul : gpt.header.firstUsableLBA.toNat * geo.oldSectorSize.toNat ≤
        geo.size.toNat := by
      rw [← geo.oldSectors_mul]
      exact Nat.mul_le_mul_right _ (by omega)
    have htable := table_fits (SourceTable.oldSize_cases geo)
      (UInt64.le_iff_toNat_le.mpr (by omega)) hmul geo.offT hfits
    rw [hheader.tableBytes_toNat, hlba] at htable
    exact ⟨by omega, hlba, htable⟩
  · exact absurd hprimary hne

/-- The bounds of a source table that was read as the backup. -/
theorem SourceTable.backup_bounds
    (h : SourceTable crc32 geo disk sectorOffset gpt)
    (hbackup : sectorOffset ≠ 1) :
    gpt.header.lastUsableLBA.toNat + 1 ≤
        gpt.header.partitionEntryLBA.toNat ∧
      gpt.header.partitionEntryLBA.toNat + 2 ≤ geo.oldSectors.toNat ∧
      gpt.header.partitionEntryLBA.toNat * geo.oldSectorSize.toNat +
          roundUp (gpt.header.numberOfPartitionEntries.toNat * 128)
            geo.oldSectorSize.toNat ≤
        geo.size.toNat - geo.oldSectorSize.toNat := by
  have hheader := h.accepted.accepted
  have hsix := h.found.six_le_oldSectors
  have hlocation : sectorOffset.toNat = geo.oldSectors.toNat - 1 := by
    rcases h.location with hone | hlast
    · exact absurd hone hbackup
    · rw [hlast, geo.toNat_oldSectors_sub_one h.found.nonempty]
  have hmy : gpt.header.myLBA.toNat = geo.oldSectors.toNat - 1 := by
    rw [h.myLBA, hlocation]
  obtain ⟨space, hspace, hfits⟩ := hheader.space
  rw [partitionTableUsableSpace_eq_some_iff] at hspace
  rcases hspace with ⟨hone, _⟩ | ⟨_, _, hlast, hentry, rfl⟩
  · exact absurd hone hbackup
  · have hlast' := UInt64.lt_iff_toNat_lt.mp hlast
    have hentry' := UInt64.lt_iff_toNat_lt.mp hentry
    have hmul : gpt.header.myLBA.toNat * geo.oldSectorSize.toNat =
        geo.size.toNat - geo.oldSectorSize.toNat := by
      rw [hmy, ← geo.oldSectors_mul, Nat.sub_mul, Nat.one_mul]
    have htable := table_fits (SourceTable.oldSize_cases geo)
      (UInt64.le_iff_toNat_le.mpr (by omega)) (Nat.le_refl _)
      (by rw [hmul]; exact Nat.lt_of_le_of_lt (Nat.sub_le _ _) geo.offT)
      hfits
    rw [hheader.tableBytes_toNat, hmul] at htable
    exact ⟨by omega, by omega, htable⟩

/-- A backup table also needs the bounds that its own sector gives. -/
theorem FoundTable.layout (h : FoundTable crc32 geo disk sectorOffset gpt)
    (hordered : ∀ entry ∈ gpt.entries, Used entry →
      entry.startingLBA ≤ entry.endingLBA)
    (hbackup : sectorOffset ≠ 1 →
      gpt.header.lastUsableLBA.toNat + 1 ≤
          gpt.header.partitionEntryLBA.toNat ∧
        gpt.header.partitionEntryLBA.toNat + 2 ≤ geo.oldSectors.toNat ∧
        gpt.header.partitionEntryLBA.toNat * geo.oldSectorSize.toNat +
            roundUp (gpt.header.numberOfPartitionEntries.toNat * 128)
              geo.oldSectorSize.toNat ≤
          geo.size.toNat - geo.oldSectorSize.toNat) :
    SourceLayout geo sectorOffset gpt := by
  have hheader := h.accepted.accepted
  have hshape := h.accepted.shape
  have hsizes := SourceTable.oldSize_cases geo
  have hlastUsable :
      gpt.header.lastUsableLBA.toNat + 2 ≤ geo.oldSectors.toNat := by
    by_cases hprimary : sectorOffset = 1
    · exact (h.primary_bounds hprimary).1
    · have hbounds := hbackup hprimary
      omega
  refine
    { nonempty := h.nonempty
      sectorSize := h.accepted.table.sectorSize
      revision := hheader.revision
      headerSize := hheader.headerSizeLow
      entrySize := hshape.entrySize
      count := hshape.count
      small := hshape.small
      firstUsable := UInt64.le_iff_toNat_le.mp hheader.firstUsable
      lastUsable := ?_
      ranged := ?_
      used := hshape.used
      primary := fun hprimary => (h.primary_bounds hprimary).2
      backup := fun hne => ?_ }
  · rw [← geo.oldSectors_mul, ← Nat.succ_mul]
    exact Nat.mul_le_mul_right _ hlastUsable
  · intro entry hentry husedEntry
    obtain ⟨hstart, hend⟩ := h.accepted.ranged entry hentry husedEntry
    have hstart' := UInt64.le_iff_toNat_le.mp hstart
    have hend' := UInt64.le_iff_toNat_le.mp hend
    have horder := UInt64.le_iff_toNat_le.mp
      (hordered entry hentry husedEntry)
    have hpositive : 0 < geo.oldSectorSize.toNat := by
      rcases hsizes with h | h
      · omega
      · omega
    exact ⟨Nat.mul_le_mul_right _ hstart',
      Nat.mul_lt_mul_of_pos_right (by omega) hpositive,
      Nat.mul_le_mul_right _ (by omega)⟩
  · obtain ⟨hlast, _, hfits⟩ := hbackup hne
    exact ⟨Nat.mul_le_mul_right _ hlast, hfits⟩

theorem SourceTable.layout
    (h : SourceTable crc32 geo disk sectorOffset gpt) :
    SourceLayout geo sectorOffset gpt :=
  h.found.layout h.ordered h.backup_bounds

theorem SourceLayout.shape (h : SourceLayout geo sectorOffset gpt) :
    TableShape gpt :=
  ⟨h.entrySize, h.count, h.small, h.used⟩

end

/-! A device of six large sectors with one partition, written by a system with
small sectors. -/

/-- zlib's `crc32` and the checksum of `crc32.c` are the same. -/
def zlibCrc32 (buffer : List UInt8) : UInt32 :=
  (crc32ComputeBuf 0 buffer).toUInt32

def sampleEntry : GPTPartitionEntry where
  partitionTypeGUID := ⟨1, 2, 3, Vector.replicate 8 4⟩
  uniquePartitionGUID := ⟨5, 6, 7, Vector.replicate 8 8⟩
  startingLBA := 24
  endingLBA := 31
  attributes := 0
  partitionName := Vector.replicate 72 0

def sampleHeader : GPTHeader where
  signature := efiPart
  revision := 0x00010000
  headerSize := 92
  headerCRC32 := 1950125361
  reserved := 0
  myLBA := 1
  alternateLBA := 47
  firstUsableLBA := 3
  lastUsableLBA := 46
  diskGUID := ⟨9, 10, 11, Vector.replicate 8 12⟩
  partitionEntryLBA := 2
  numberOfPartitionEntries := 1
  sizeOfPartitionEntry := 128
  partitionEntryArrayCRC32 := 3833890979

def sampleGpt : GPT := ⟨sampleHeader, 1, [sampleEntry], 512⟩

def sampleMbr : Mbr where
  jmp := Vector.replicate 3 0
  name := Vector.replicate 8 0
  bytesPerSector := Vector.replicate 2 0
  sectorsPerCluster := 0
  bootCode := Vector.replicate 426 0
  uniqueMbrDiskSignature := Vector.replicate 4 0
  unknown := Vector.replicate 2 0
  record₁ := ⟨0, Vector.replicate 3 0, 0xEE, Vector.replicate 3 0, 1, 5⟩
  record₂ := zeroRecord
  record₃ := zeroRecord
  record₄ := zeroRecord
  signature := mbrSignature

def sampleDisk : Disk where
  sectorSize := 4096
  size := 24576
  byte i :=
    if i < 512 then (mbrCodec.put sampleMbr).getD i 0
    else if i < 1024 then
      (gptHeaderCodec.put sampleHeader).getD (i - 512) 0
    else (gptPartitionEntryCodec.put sampleEntry).getD (i - 1024) 0

def sampleGeometry : Geometry where
  size := 24576
  sectorSize := 4096
  oldSectorSize := 512
  sizes := Or.inr ⟨rfl, rfl⟩
  aligned := rfl
  offT := by decide

theorem sample_read : readAndCheckGpt zlibCrc32 sampleDisk 1
    sampleGeometry.oldSectorSize sampleGeometry.oldSectors =
      .ok (some sampleGpt) := by
  decide +kernel

theorem sampleSource :
    SourceTable zlibCrc32 sampleGeometry sampleDisk 1 sampleGpt where
  size := rfl
  location := Or.inl rfl
  read := sample_read
  myLBA := rfl
  ordered := by
    intro entry hentry _
    rw [List.mem_singleton.mp hentry]
    decide

end QubesUtils
