/-
Where an accepted header leads.  A primary header keeps inside the device; a
backup header is bounded by its own MyLBA only, which `check_gpt_header` does
not tie to the size of the device.
-/
import QubesUtils.GptGeometry

namespace QubesUtils

open ByteCodec

/-- What the comments at the two multiplications say about a header with a
table of so many bytes. -/
structure StaysInside (header : GPTHeader) (sectorOffset : UInt64)
    (sectorSize : UInt32) (sectors tableBytes : UInt64) : Prop where
  usable : header.firstUsableLBA ≤ header.lastUsableLBA
  lastUsable : header.lastUsableLBA < sectors
  entryLBA : header.partitionEntryLBA < sectors
  usableSpace : ∀ space,
    partitionTableUsableSpace header sectorOffset sectors =
      .ok (some space) → space.toNat * sectorSize.toNat < 2 ^ 64
  tableOffset :
    sectorSize.toNat * header.partitionEntryLBA.toNat < 2 ^ 64
  table : header.partitionEntryLBA.toNat * sectorSize.toNat +
      roundUp tableBytes.toNat sectorSize.toNat ≤
    sectors.toNat * sectorSize.toNat
  disjoint : header.partitionEntryLBA.toNat * sectorSize.toNat +
        roundUp tableBytes.toNat sectorSize.toNat ≤
      header.firstUsableLBA.toNat * sectorSize.toNat ∨
    (header.lastUsableLBA.toNat + 1) * sectorSize.toNat ≤
      header.partitionEntryLBA.toNat * sectorSize.toNat

/-- The sectors that hold the entries. -/
def tableSectors (header : GPTHeader) (sectorSize : UInt32) : Nat :=
  (header.numberOfPartitionEntries.toNat * 128 + (sectorSize.toNat - 1)) /
    sectorSize.toNat

/-- The fields of a backup header are tied to the size of the device. -/
def TiedToDevice (header : GPTHeader) (sectorOffset : UInt64)
    (sectorSize : UInt32) (sectors : UInt64) : Prop :=
  sectorOffset = 1 ∨
    header.partitionEntryLBA.toNat + tableSectors header sectorSize ≤
        sectors.toNat ∧
      header.myLBA.toNat - header.partitionEntryLBA.toNat <
        2 ^ 64 / sectorSize.toNat

section

variable {crc32 : List UInt8 → UInt32} {header : GPTHeader}
  {sectorOffset sectors tableBytes : UInt64} {sectorSize : UInt32}

theorem HeaderAccepted.roundUp_table
    (h : HeaderAccepted crc32 header sectorOffset sectorSize sectors
      tableBytes) :
    roundUp tableBytes.toNat sectorSize.toNat =
      tableSectors header sectorSize * sectorSize.toNat := by
  rw [roundUp, tableSectors, h.tableBytes_toNat]

/-- A header in front of the end of the device is tied to it. -/
theorem HeaderAccepted.tied_of_myLBA (hsize : BlockSize sectorSize)
    (hdevice : sectors.toNat * sectorSize.toNat < 2 ^ 63)
    (h : HeaderAccepted crc32 header sectorOffset sectorSize sectors
      tableBytes) (hmy : header.myLBA ≤ sectors) :
    TiedToDevice header sectorOffset sectorSize sectors := by
  obtain ⟨space, hspace, hfits⟩ := h.space
  rw [partitionTableUsableSpace_eq_some_iff] at hspace
  rcases hspace with ⟨hone, _⟩ | ⟨_, _, _, hentry, rfl⟩
  · exact Or.inl hone
  have hmy' := UInt64.le_iff_toNat_le.mp hmy
  have hentry' := UInt64.lt_iff_toNat_lt.mp hentry
  have hmul : header.myLBA.toNat * sectorSize.toNat ≤
      sectors.toNat * sectorSize.toNat := Nat.mul_le_mul_right _ hmy'
  have htable := table_fits hsize.toNat_cases
    (UInt64.le_iff_toNat_le.mpr (Nat.le_of_lt hentry')) hmul hdevice hfits
  rw [h.roundUp_table, ← Nat.add_mul] at htable
  refine Or.inr ⟨?_, ?_⟩
  · have hsectors := Nat.le_trans htable hmul
    rcases hsize.toNat_cases with h | h
    · rw [h] at hsectors
      omega
    · rw [h] at hsectors
      omega
  · rcases hsize.toNat_cases with h | h
    · rw [h] at hdevice ⊢
      omega
    · rw [h] at hdevice ⊢
      omega

theorem HeaderAccepted.primary_inside (hsize : BlockSize sectorSize)
    (hdevice : sectors.toNat * sectorSize.toNat < 2 ^ 63)
    (h : HeaderAccepted crc32 header sectorOffset sectorSize sectors
      tableBytes) (hprimary : sectorOffset = 1) :
    StaysInside header sectorOffset sectorSize sectors tableBytes := by
  obtain ⟨space, hspace, hfits⟩ := h.space
  have hsome := hspace
  rw [partitionTableUsableSpace_eq_some_iff] at hspace
  rcases hspace with ⟨_, hentry, hlast, halternate, rfl⟩ | ⟨hne, _⟩
  swap
  · exact absurd hprimary hne
  have hentry' : header.partitionEntryLBA.toNat = 2 := by
    rw [hentry]
    rfl
  have hlast' := UInt64.lt_iff_toNat_lt.mp hlast
  have halternate' := UInt64.lt_iff_toNat_lt.mp halternate
  have husable := UInt64.le_iff_toNat_le.mp h.usable
  have hfirst : 3 ≤ header.firstUsableLBA.toNat :=
    UInt64.le_iff_toNat_le.mp h.firstUsable
  have hmul : header.firstUsableLBA.toNat * sectorSize.toNat ≤
      sectors.toNat * sectorSize.toNat :=
    Nat.mul_le_mul_right _ (by omega)
  have htable := table_fits hsize.toNat_cases
    (UInt64.le_iff_toNat_le.mpr (by omega)) hmul hdevice hfits
  refine
    { usable := h.usable
      lastUsable := UInt64.lt_iff_toNat_lt.mpr (by omega)
      entryLBA := UInt64.lt_iff_toNat_lt.mpr (by omega)
      usableSpace := ?_
      tableOffset := ?_
      table := Nat.le_trans htable hmul
      disjoint := Or.inl htable }
  · intro other hother
    obtain rfl := Option.some.inj (Except.ok.inj (hother.symm.trans hsome))
    have hle := Nat.mul_le_mul_right sectorSize.toNat
      (Nat.sub_le header.firstUsableLBA.toNat
        header.partitionEntryLBA.toNat)
    rw [UInt64.toNat_sub_of_le _ _ (UInt64.le_iff_toNat_le.mpr (by omega))]
    omega
  · rw [hentry']
    rcases hsize.toNat_cases with h | h
    · rw [h]
      decide
    · rw [h]
      decide

theorem HeaderAccepted.backup_inside_iff (hsize : BlockSize sectorSize)
    (hdevice : sectors.toNat * sectorSize.toNat < 2 ^ 63)
    (h : HeaderAccepted crc32 header sectorOffset sectorSize sectors
      tableBytes) (hbackup : sectorOffset ≠ 1) :
    StaysInside header sectorOffset sectorSize sectors tableBytes ↔
      header.partitionEntryLBA.toNat + tableSectors header sectorSize ≤
          sectors.toNat ∧
        header.myLBA.toNat - header.partitionEntryLBA.toNat <
          2 ^ 64 / sectorSize.toNat := by
  obtain ⟨space, hspace, hfits⟩ := h.space
  have hsome := hspace
  rw [partitionTableUsableSpace_eq_some_iff] at hspace
  rcases hspace with ⟨hone, _⟩ | ⟨_, _, hlast, hentry, rfl⟩
  · exact absurd hone hbackup
  have hlast' := UInt64.lt_iff_toNat_lt.mp hlast
  have hentry' := UInt64.lt_iff_toNat_lt.mp hentry
  have hsub : (header.myLBA - header.partitionEntryLBA).toNat =
      header.myLBA.toNat - header.partitionEntryLBA.toNat :=
    UInt64.toNat_sub_of_le _ _
      (UInt64.le_iff_toNat_le.mpr (Nat.le_of_lt hentry'))
  have hround := h.roundUp_table
  have hcount : 1 ≤ header.numberOfPartitionEntries.toNat :=
    UInt32.le_iff_toNat_le.mp h.count
  have htable : header.partitionEntryLBA.toNat * sectorSize.toNat +
        roundUp tableBytes.toNat sectorSize.toNat ≤
      sectors.toNat * sectorSize.toNat ↔
      header.partitionEntryLBA.toNat + tableSectors header sectorSize ≤
        sectors.toNat := by
    rw [hround, ← Nat.add_mul]
    rcases hsize.toNat_cases with h | h
    · rw [h]
      omega
    · rw [h]
      omega
  have hproduct : (header.myLBA.toNat - header.partitionEntryLBA.toNat) *
      sectorSize.toNat < 2 ^ 64 ↔
      header.myLBA.toNat - header.partitionEntryLBA.toNat <
        2 ^ 64 / sectorSize.toNat := by
    rcases hsize.toNat_cases with h | h
    · rw [h]
      omega
    · rw [h]
      omega
  have hone : 1 ≤ tableSectors header sectorSize := by
    rw [tableSectors]
    rcases hsize.toNat_cases with h | h
    · rw [h]
      omega
    · rw [h]
      omega
  constructor
  · intro hinside
    refine ⟨htable.mp hinside.table, hproduct.mp ?_⟩
    have hspace := hinside.usableSpace _ hsome
    rw [hsub] at hspace
    exact hspace
  · rintro ⟨hfitsIn, hnear⟩
    refine
      { usable := h.usable
        lastUsable := UInt64.lt_iff_toNat_lt.mpr (by omega)
        entryLBA := UInt64.lt_iff_toNat_lt.mpr (by omega)
        usableSpace := ?_
        tableOffset := ?_
        table := htable.mpr hfitsIn
        disjoint := Or.inr (Nat.mul_le_mul_right _ hlast') }
    · intro other hother
      obtain rfl := Option.some.inj (Except.ok.inj (hother.symm.trans hsome))
      rw [hsub]
      exact hproduct.mpr hnear
    · have hoffset := Nat.le_trans (Nat.le_add_right _ _)
        (htable.mpr hfitsIn)
      rw [Nat.mul_comm]
      omega

end

/-- A backup header for any sector, with its table in the sector in front. -/
def backupHeaderAt (crc32 : List UInt8 → UInt32) (myLBA : UInt64) :
    GPTHeader :=
  let header := { sampleHeader with
    headerCRC32 := 0
    myLBA
    alternateLBA := 1
    lastUsableLBA := 3
    partitionEntryLBA := myLBA - 1 }
  { header with headerCRC32 := crc32 (gptHeaderCodec.put header) }

theorem backupHeaderAt_accepted (crc32 : List UInt8 → UInt32)
    {sectorOffset sectors myLBA : UInt64} {sectorSize : UInt32}
    (hsize : BlockSize sectorSize) (hsix : 6 ≤ sectors)
    (hinside : sectorOffset < sectors) (hbackup : sectorOffset ≠ 1)
    (hmy : 6 ≤ myLBA) :
    checkGptHeader crc32 (backupHeaderAt crc32 myLBA) sectorOffset sectorSize
      sectors = .ok 128 := by
  have hmy' : 6 ≤ myLBA.toNat := UInt64.le_iff_toNat_le.mp hmy
  have hentry : (myLBA - 1).toNat = myLBA.toNat - 1 :=
    UInt64.toNat_sub_of_le _ _ (UInt64.le_iff_toNat_le.mpr (by
      rw [UInt64.toNat_one]
      omega))
  have hspace : (myLBA - (myLBA - 1)).toNat = 1 := by
    rw [UInt64.toNat_sub_of_le _ _ (UInt64.le_iff_toNat_le.mpr (by omega)),
      hentry]
    omega
  refine (checkGptHeader_eq_ok_iff (by decide)).mpr
    { sixSectors := hsix
      inside := hinside
      signature := rfl
      revision := rfl
      checksum := rfl
      headerSizeLow := (by decide : (92 : UInt32) ≤ 92)
      headerSizeHigh := (?_ : (92 : UInt32) ≤ sectorSize)
      entrySize := rfl
      entryFits := (?_ : (128 : UInt32) ≤ sectorSize)
      firstUsable := (by decide : (3 : UInt64) ≤ 3)
      usable := (by decide : (3 : UInt64) ≤ 3)
      space := ⟨myLBA - (myLBA - 1), ?_, ?_⟩
      count := (by decide : (1 : UInt32) ≤ 1)
      bytes := rfl
      small := by decide }
  · rcases hsize with rfl | rfl
    · decide
    · decide
  · rcases hsize with rfl | rfl
    · decide
    · decide
  · refine partitionTableUsableSpace_eq_some_iff.mpr
      (Or.inr ⟨hbackup, rfl, ?_, ?_, rfl⟩)
    · refine UInt64.lt_iff_toNat_lt.mpr ?_
      change 3 < (myLBA - 1).toNat
      omega
    · refine UInt64.lt_iff_toNat_lt.mpr ?_
      change (myLBA - 1).toNat < myLBA.toNat
      omega
  · refine UInt64.le_iff_toNat_le.mpr ?_
    rw [UInt64.toNat_mul, hspace, UInt32.toNat_toUInt64]
    rcases hsize with rfl | rfl
    · decide
    · decide

/-- For which MyLBA every accepted header stays inside the device: behind the
end of the device a backup header may have its table there too. -/
theorem checkGptHeader_staysInside_iff (crc32 : List UInt8 → UInt32)
    (sectorOffset : UInt64) (sectorSize : UInt32) (sectors myLBA : UInt64)
    (hsize : BlockSize sectorSize) (hsix : 6 ≤ sectors)
    (hdevice : sectors.toNat * sectorSize.toNat < 2 ^ 63)
    (hlocation : sectorOffset = 1 ∨ sectorOffset = sectors - 1) :
    (∀ header tableBytes, header.myLBA = myLBA →
        checkGptHeader crc32 header sectorOffset sectorSize sectors =
          .ok tableBytes → tableBytes ≠ 0 →
        StaysInside header sectorOffset sectorSize sectors tableBytes) ↔
      sectorOffset = 1 ∨ myLBA ≤ sectors := by
  have hsix' : 6 ≤ sectors.toNat := UInt64.le_iff_toNat_le.mp hsix
  have hlast : (sectors - 1).toNat = sectors.toNat - 1 :=
    UInt64.toNat_sub_of_le _ _ (UInt64.le_iff_toNat_le.mpr (by
      rw [UInt64.toNat_one]
      omega))
  have hinside : sectorOffset < sectors := by
    refine UInt64.lt_iff_toNat_lt.mpr ?_
    rcases hlocation with rfl | rfl
    · rw [UInt64.toNat_one]
      omega
    · omega
  constructor
  · intro h
    by_contra hneither
    obtain ⟨hbackup, hmy⟩ := not_or.mp hneither
    have hbeyond := UInt64.lt_iff_toNat_lt.mp (UInt64.not_le.mp hmy)
    have hstays := h (backupHeaderAt crc32 myLBA) 128 rfl
      (backupHeaderAt_accepted crc32 hsize hsix hinside hbackup
        (UInt64.le_iff_toNat_le.mpr (Nat.le_trans hsix'
          (Nat.le_of_lt hbeyond)))) (by decide)
    have hentry : (myLBA - 1).toNat < sectors.toNat :=
      UInt64.lt_iff_toNat_lt.mp hstays.entryLBA
    rw [UInt64.toNat_sub_of_le _ _ (UInt64.le_iff_toNat_le.mpr (by
      rw [UInt64.toNat_one]
      omega)), UInt64.toNat_one] at hentry
    omega
  · rintro htied header tableBytes rfl hcheck hne
    have haccepted := (checkGptHeader_eq_ok_iff hne).mp hcheck
    by_cases hprimary : sectorOffset = 1
    · exact haccepted.primary_inside hsize hdevice hprimary
    · have hfits := haccepted.tied_of_myLBA hsize hdevice
        (htied.resolve_left hprimary)
      exact (haccepted.backup_inside_iff hsize hdevice hprimary).mpr
        (hfits.resolve_left hprimary)

/-- A backup header in the last of 64 sectors. -/
theorem checkGptHeader_staysInside_backup :
    StaysInside (backupHeaderAt zlibCrc32 63) 63 512 64 128 :=
  (checkGptHeader_staysInside_iff zlibCrc32 63 512 64 63 (Or.inl rfl)
    (by decide) (by decide) (Or.inr rfl)).mpr (Or.inr (by decide)) _ 128 rfl
      (backupHeaderAt_accepted zlibCrc32 (Or.inl rfl) (by decide) (by decide)
        (by decide) (by decide)) (by decide)

/-- A backup header that says that it stands at sector 200, with its table at
sector 100. -/
def strayHeader : GPTHeader :=
  let header := { sampleHeader with
    headerCRC32 := 0
    myLBA := 200
    alternateLBA := 1
    partitionEntryLBA := 100 }
  { header with headerCRC32 := zlibCrc32 (gptHeaderCodec.put header) }

theorem strayHeader_accepted :
    checkGptHeader zlibCrc32 strayHeader 63 512 64 = .ok 128 := by
  decide +kernel

/-- It is accepted as the backup header of a device of 64 sectors. -/
theorem strayHeader_leaves :
    checkGptHeader zlibCrc32 strayHeader 63 512 64 = .ok 128 ∧
      ¬ StaysInside strayHeader 63 512 64 128 := by
  refine ⟨strayHeader_accepted, fun h => ?_⟩
  have hentry := h.entryLBA
  exact absurd hentry (by decide)

end QubesUtils
