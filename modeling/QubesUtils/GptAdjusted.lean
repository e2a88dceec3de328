/-
The result of `gpt_adjust_sectors` as exact numbers: how many entries are
kept, how much room their table takes, and the bounds of the new header.
-/
import QubesUtils.GptGeometry
import Mathlib.Order.MinMax

namespace QubesUtils

open ByteCodec

/-! The loop over the used entries. -/

theorem scanEntry_ok {oldSectorSize sectorSize i : UInt32}
    {entry : GPTPartitionEntry} {extent result : UsedExtent}
    (h : scanEntry oldSectorSize sectorSize i entry extent = .ok result) :
    (startByteOffset entry oldSectorSize).toNat % sectorSize.toNat = 0 ∧
      (endByteOffset entry oldSectorSize).toNat % sectorSize.toNat = 0 ∧
      result.firstStartByteOffset.toNat =
        min extent.firstStartByteOffset.toNat
          (startByteOffset entry oldSectorSize).toNat ∧
      result.lastEndByteOffset.toNat =
        max extent.lastEndByteOffset.toNat
          (endByteOffset entry oldSectorSize).toNat := by
  simp only [scanEntry, ite_error_eq_ok, ne_eq, Decidable.not_not,
    Except.ok.injEq] at h
  obtain ⟨hstart, hend, hresult⟩ := h
  have hstart' := congrArg UInt64.toNat hstart
  have hend' := congrArg UInt64.toNat hend
  rw [UInt64.toNat_mod, UInt32.toNat_toUInt64, UInt64.toNat_zero]
    at hstart' hend'
  refine ⟨hstart', hend', ?_, ?_⟩
  · subst hresult
    by_cases hlt : startByteOffset entry oldSectorSize <
        extent.firstStartByteOffset
    · have hnat := UInt64.lt_iff_toNat_lt.mp hlt
      rw [if_pos hlt]
      split <;> exact (Nat.min_eq_right (Nat.le_of_lt hnat)).symm
    · have hnat := UInt64.le_iff_toNat_le.mp (UInt64.not_lt.mp hlt)
      rw [if_neg hlt]
      split <;> exact (Nat.min_eq_left hnat).symm
  · have hlast : ∀ x : UsedExtent,
        x.lastEndByteOffset = extent.lastEndByteOffset →
        (if x.lastEndByteOffset ≤ endByteOffset entry oldSectorSize
          then { x with
            lastEndByteOffset := endByteOffset entry oldSectorSize,
            partitionThatEndsLast := i }
          else x).lastEndByteOffset.toNat =
        max extent.lastEndByteOffset.toNat
          (endByteOffset entry oldSectorSize).toNat := by
      intro x hx
      rw [hx]
      by_cases hle : extent.lastEndByteOffset ≤
          endByteOffset entry oldSectorSize
      · rw [if_pos hle]
        exact (Nat.max_eq_right (UInt64.le_iff_toNat_le.mp hle)).symm
      · have hlt := UInt64.lt_iff_toNat_lt.mp (UInt64.not_le.mp hle)
        rw [if_neg hle, hx]
        exact (Nat.max_eq_left (Nat.le_of_lt hlt)).symm
    rw [← hresult]
    apply hlast
    split <;> rfl

/-- What the loop leaves: bounds on every used entry, each of them reached. -/
theorem scanEntries_ok {oldSectorSize sectorSize : UInt32}
    {entries : List GPTPartitionEntry} :
    ∀ {i : UInt32} {extent result : UsedExtent},
      scanEntries oldSectorSize sectorSize entries i extent = .ok result →
      (∀ entry ∈ entries, Used entry →
        (startByteOffset entry oldSectorSize).toNat % sectorSize.toNat = 0 ∧
        (endByteOffset entry oldSectorSize).toNat % sectorSize.toNat = 0 ∧
        result.firstStartByteOffset.toNat ≤
          (startByteOffset entry oldSectorSize).toNat ∧
        (endByteOffset entry oldSectorSize).toNat ≤
          result.lastEndByteOffset.toNat) ∧
      result.firstStartByteOffset.toNat ≤
        extent.firstStartByteOffset.toNat ∧
      extent.lastEndByteOffset.toNat ≤ result.lastEndByteOffset.toNat ∧
      (result.firstStartByteOffset.toNat =
          extent.firstStartByteOffset.toNat ∨
        ∃ entry ∈ entries, Used entry ∧
          result.firstStartByteOffset.toNat =
            (startByteOffset entry oldSectorSize).toNat) ∧
      (result.lastEndByteOffset.toNat = extent.lastEndByteOffset.toNat ∨
        ∃ entry ∈ entries, Used entry ∧
          result.lastEndByteOffset.toNat =
            (endByteOffset entry oldSectorSize).toNat) := by
  induction entries with
  | nil =>
      intro i extent result h
      rw [scanEntries, Except.ok.injEq] at h
      subst h
      simp
  | cons entry entries ih =>
      intro i extent result h
      have hlift : ∀ {other : GPTPartitionEntry}, other ∈ entries →
          other ∈ entry :: entries := List.mem_cons_of_mem _
      rw [scanEntries] at h
      by_cases hused : Used entry
      · rw [if_neg (by rw [hused]; decide), bind_eq_ok] at h
        obtain ⟨middle, hentry, hrest⟩ := h
        obtain ⟨hstart, hend, hfirst, hlast⟩ := scanEntry_ok hentry
        obtain ⟨hall, hbelow, habove, hreached, hreached'⟩ := ih hrest
        rw [hfirst] at hbelow hreached
        rw [hlast] at habove hreached'
        obtain ⟨hbelow₁, hbelow₂⟩ := Nat.le_min.mp hbelow
        obtain ⟨habove₁, habove₂⟩ := Nat.max_le.mp habove
        refine ⟨?_, hbelow₁, habove₁, ?_, ?_⟩
        · intro other hother hotherUsed
          rcases List.mem_cons.mp hother with rfl | hmem
          · exact ⟨hstart, hend, hbelow₂, habove₂⟩
          · exact hall other hmem hotherUsed
        · rcases hreached with heq | ⟨other, hmem, hotherUsed, heq⟩
          · rcases min_choice extent.firstStartByteOffset.toNat
              (startByteOffset entry oldSectorSize).toNat with hmin | hmin
            · exact Or.inl (heq.trans hmin)
            · exact Or.inr
                ⟨entry, List.mem_cons_self, hused, heq.trans hmin⟩
          · exact Or.inr ⟨other, hlift hmem, hotherUsed, heq⟩
        · rcases hreached' with heq | ⟨other, hmem, hotherUsed, heq⟩
          · rcases max_choice extent.lastEndByteOffset.toNat
              (endByteOffset entry oldSectorSize).toNat with hmax | hmax
            · exact Or.inl (heq.trans hmax)
            · exact Or.inr
                ⟨entry, List.mem_cons_self, hused, heq.trans hmax⟩
          · exact Or.inr ⟨other, hlift hmem, hotherUsed, heq⟩
      · rw [if_pos (by simpa [Used] using hused)] at h
        obtain ⟨hall, hbelow, habove, hreached, hreached'⟩ := ih h
        refine ⟨?_, hbelow, habove, ?_, ?_⟩
        · intro other hother hotherUsed
          rcases List.mem_cons.mp hother with rfl | hmem
          · exact absurd hotherUsed hused
          · exact hall other hmem hotherUsed
        · rcases hreached with heq | ⟨other, hmem, hotherUsed, heq⟩
          · exact Or.inl heq
          · exact Or.inr ⟨other, hlift hmem, hotherUsed, heq⟩
        · rcases hreached' with heq | ⟨other, hmem, hotherUsed, heq⟩
          · exact Or.inl heq
          · exact Or.inr ⟨other, hlift hmem, hotherUsed, heq⟩

/-! The part of the computation that both copies share. -/

/-- The steps of `gpt_adjust_sectors` that do not look at the sector to be
written. -/
structure Adjustment (geo : Geometry) (gpt : GPT) where
  extent : UsedExtent
  count : UInt32
  tableBytes : UInt64
  scanned : scanEntries gpt.sectorSize geo.sectorSize
    (gpt.entries.take gpt.usedEntries.toNat) 0
    ⟨0xFFFFFFFFFFFFFFFF, 0, 0xFFFFFFFF, 0xFFFFFFFF⟩ = .ok extent
  room : checkRoom gpt geo.sectorSize geo.size extent = .ok ()
  counted : newEntriesCount gpt geo.sectorSize geo.size extent = .ok count
  required : gptPartitionTableRequiredBytes gpt geo.sectorSize count =
    .ok tableBytes

theorem Adjustment.unique {geo : Geometry} {gpt : GPT}
    (left right : Adjustment geo gpt) : left = right := by
  obtain ⟨extent, count, tableBytes, hscanned, hroom, hcounted,
    hrequired⟩ := left
  obtain ⟨extent', count', tableBytes', hscanned', hroom', hcounted',
    hrequired'⟩ := right
  obtain rfl : extent = extent' :=
    Except.ok.inj (hscanned.symm.trans hscanned')
  obtain rfl : count = count' :=
    Except.ok.inj (hcounted.symm.trans hcounted')
  obtain rfl : tableBytes = tableBytes' :=
    Except.ok.inj (hrequired.symm.trans hrequired')
  rfl

/-- The entries of the new table. -/
def Adjustment.entries {geo : Geometry} {gpt : GPT}
    (a : Adjustment geo gpt) : List GPTPartitionEntry :=
  (gpt.entries.take a.count.toNat).map
    (adjustEntry gpt.sectorSize geo.sectorSize)

theorem Geometry.size_eq (geo : Geometry) :
    geo.sectorSize.toUInt64 * geo.sectors = geo.size := by
  have hmul := geo.sectors_mul
  apply UInt64.toNat_inj.mp
  rw [toNat_mul_of_lt, UInt32.toNat_toUInt64, Nat.mul_comm, hmul]
  rw [UInt32.toNat_toUInt64, Nat.mul_comm, hmul]
  exact geo.size.toNat_lt

theorem gptAdjustSectors_ok {crc32 : List UInt8 → UInt32} {geo : Geometry}
    {gpt new : GPT} {sectorOffset : UInt64} {buffer : List UInt8}
    (h : gptAdjustSectors crc32 sectorOffset geo.sectorSize geo.sectors gpt =
      .ok (new, buffer)) :
    6 ≤ geo.sectors ∧ (sectorOffset = 1 ∨ sectorOffset = geo.sectors - 1) ∧
    ∃ (a : Adjustment geo gpt) (header : GPTHeader),
      newHeader gpt sectorOffset geo.sectorSize geo.sectors geo.size
        a.tableBytes a.count = .ok header ∧
      a.count ≤ gpt.header.numberOfPartitionEntries ∧
      fixupGpt crc32
        { header, usedEntries := a.count, entries := a.entries,
          sectorSize := 0 } a.tableBytes = .ok (new, buffer) := by
  simp only [gptAdjustSectors, bind_eq_ok, assertC_eq_ok, exists_const,
    geo.size_eq] at h
  obtain ⟨hsix, _, _, hoffset, _, extent, hscanned, _, hroom, count,
    hcounted, tableBytes, hrequired, header, hheader, hcount, hfixup⟩ := h
  exact ⟨hsix, hoffset, ⟨extent, count, tableBytes, hscanned, hroom, hcounted,
    hrequired⟩, header, hheader, hcount, hfixup⟩

/-! Exact numbers. -/

/-- The room that the new tables take. -/
structure NewLayout (geo : Geometry) (gpt : GPT) (count : UInt32)
    (tableBytes : UInt64) : Prop where
  keeps : gpt.usedEntries ≤ count
  table : tableBytes.toNat = roundUp (count.toNat * 128) geo.sectorSize.toNat
  aligned : ∀ entry ∈ gpt.entries, Used entry →
    firstByte entry geo.oldSectorSize % geo.sectorSize.toNat = 0 ∧
      behindByte entry geo.oldSectorSize % geo.sectorSize.toNat = 0
  primaryRoom : ∀ entry ∈ gpt.entries, Used entry →
    tableBytes.toNat + 2 * geo.sectorSize.toNat ≤
      firstByte entry geo.oldSectorSize
  backupRoom : ∀ entry ∈ gpt.entries, Used entry →
    behindByte entry geo.oldSectorSize + tableBytes.toNat +
      geo.sectorSize.toNat ≤ geo.size.toNat

section

variable {geo : Geometry} {sectorOffset : UInt64} {gpt : GPT}

theorem SourceLayout.toNat_start (h : SourceLayout geo sectorOffset gpt)
    {entry : GPTPartitionEntry} (hentry : entry ∈ gpt.entries)
    (hused : Used entry) :
    (startByteOffset entry gpt.sectorSize).toNat =
      firstByte entry geo.oldSectorSize := by
  obtain ⟨_, hlt, hle⟩ := h.ranged entry hentry hused
  have hlast := h.lastUsable
  have hoff := geo.offT
  rw [startByteOffset, h.sectorSize, toNat_mul_of_lt,
    UInt32.toNat_toUInt64, firstByte]
  rw [UInt32.toNat_toUInt64]
  rw [firstByte] at hlt
  omega

theorem SourceLayout.toNat_end (h : SourceLayout geo sectorOffset gpt)
    {entry : GPTPartitionEntry} (hentry : entry ∈ gpt.entries)
    (hused : Used entry) :
    (endByteOffset entry gpt.sectorSize).toNat =
      behindByte entry geo.oldSectorSize := by
  obtain ⟨_, _, hle⟩ := h.ranged entry hentry hused
  have hlast := h.lastUsable
  have hoff := geo.offT
  have hpositive : 1 ≤ geo.oldSectorSize.toNat := by
    rcases SourceTable.oldSize_cases geo with h | h
    · omega
    · omega
  have hmul : entry.endingLBA.toNat + 1 ≤
      behindByte entry geo.oldSectorSize := by
    rw [behindByte]
    exact Nat.le_mul_of_pos_right _ hpositive
  have hadd : (entry.endingLBA + 1).toNat = entry.endingLBA.toNat + 1 := by
    rw [UInt64.toNat_add, UInt64.toNat_one, Nat.mod_eq_of_lt (by omega)]
  rw [endByteOffset, h.sectorSize, toNat_mul_of_lt, hadd,
    UInt32.toNat_toUInt64, behindByte]
  rw [hadd, UInt32.toNat_toUInt64]
  rw [behindByte] at hle
  omega

theorem SourceLayout.mem_take (h : SourceLayout geo sectorOffset gpt)
    {entry : GPTPartitionEntry} (hentry : entry ∈ gpt.entries)
    (hused : Used entry) :
    entry ∈ gpt.entries.take gpt.usedEntries.toNat := by
  obtain ⟨before, last, after, heq, _, hafter, hcount⟩ := h.used
  rw [heq] at hentry ⊢
  have hsplit : before ++ last :: after = (before ++ [last]) ++ after := by
    simp
  rw [hsplit, List.take_left' (by rw [hcount]; simp)]
  rw [hsplit] at hentry
  rcases List.mem_append.mp hentry with hmem | hmem
  · exact hmem
  · exact absurd hused (hafter entry hmem)

theorem SourceLayout.exists_used (h : SourceLayout geo sectorOffset gpt) :
    ∃ entry ∈ gpt.entries, Used entry := by
  obtain ⟨before, last, after, heq, hlast, _⟩ := h.used
  exact ⟨last, by simp [heq], hlast⟩

theorem requiredBytes_ok_iff {sectorSize : UInt32}
    (hsize : BlockSize sectorSize)
    (hentry : gpt.header.sizeOfPartitionEntry = 128) {entries : UInt32}
    {tableBytes : UInt64} :
    gptPartitionTableRequiredBytes gpt sectorSize entries = .ok tableBytes ↔
      tableBytes.toNat = roundUp (entries.toNat * 128) sectorSize.toNat := by
  have hlt := entries.toNat_lt
  have hbytes : (gpt.header.sizeOfPartitionEntry.toUInt64 *
      entries.toUInt64).toNat = entries.toNat * 128 := by
    rw [hentry, toNat_mul_of_lt]
    · rw [UInt32.toNat_toUInt64, UInt32.toNat_toUInt64, Nat.mul_comm]
      rfl
    · simp only [UInt32.toNat_toUInt64, UInt32.reduceToNat]
      omega
  simp only [gptPartitionTableRequiredBytes, bind_eq_ok, assertC_eq_ok,
    exists_const, roundToNextSector_eq_ok_iff hsize, hbytes, hsize.valid,
    true_and]
  refine and_iff_right ?_
  rcases hsize.toNat_cases with h | h
  · rw [h]
    omega
  · rw [h]
    omega

theorem requiredBytes_total {sectorSize : UInt32}
    (hsize : BlockSize sectorSize)
    (hentry : gpt.header.sizeOfPartitionEntry = 128) {entries : UInt32}
    (hsmall : entries.toNat * 128 ≤ 1048576) :
    ∃ tableBytes,
      gptPartitionTableRequiredBytes gpt sectorSize entries =
        .ok tableBytes :=
  ⟨UInt64.ofNat (roundUp (entries.toNat * 128) sectorSize.toNat),
    (requiredBytes_ok_iff hsize hentry).mpr
      (UInt64.toNat_ofNat_of_lt' (roundUp_lt hsmall hsize.toNat_cases))⟩

theorem requiredBytes_toNat (hentry : gpt.header.sizeOfPartitionEntry = 128)
    {entries : UInt32} {tableBytes : UInt64}
    (h : gptPartitionTableRequiredBytes gpt geo.sectorSize entries =
      .ok tableBytes) :
    tableBytes.toNat = roundUp (entries.toNat * 128)
      geo.sectorSize.toNat :=
  (requiredBytes_ok_iff geo.blockSize hentry).mp h

theorem toNat_add_of_lt {a b : UInt64} (hlt : a.toNat + b.toNat < 2 ^ 64) :
    (a + b).toNat = a.toNat + b.toNat := by
  rw [UInt64.toNat_add, Nat.mod_eq_of_lt hlt]

theorem toNat_minC (a b : UInt64) :
    (minC a b).toNat = min a.toNat b.toNat := by
  rw [minC]
  by_cases h : a > b
  · have hlt := UInt64.lt_iff_toNat_lt.mp h
    rw [if_pos h, Nat.min_eq_right (Nat.le_of_lt hlt)]
  · have hle := UInt64.le_iff_toNat_le.mp (UInt64.not_lt.mp h)
    rw [if_neg h, Nat.min_eq_left hle]

theorem toNat_maxC (a b : UInt64) :
    (maxC a b).toNat = max a.toNat b.toNat := by
  rw [maxC]
  by_cases h : a > b
  · have hlt := UInt64.lt_iff_toNat_lt.mp h
    rw [if_pos h, Nat.max_eq_left (Nat.le_of_lt hlt)]
  · have hle := UInt64.le_iff_toNat_le.mp (UInt64.not_lt.mp h)
    rw [if_neg h, Nat.max_eq_right hle]

theorem Geometry.size_cases (geo : Geometry) :
    geo.sectorSize.toNat = 512 ∨ geo.sectorSize.toNat = 4096 := by
  rcases geo.toNat_sizes with ⟨h, _⟩ | ⟨h, _⟩
  · exact Or.inl h
  · exact Or.inr h

/-- The room in front of the first used entry and behind the last. -/
structure Room (geo : Geometry) (extent : UsedExtent) : Prop where
  backup : geo.sectorSize.toNat + extent.lastEndByteOffset.toNat ≤
    geo.size.toNat
  primary : 2 * geo.sectorSize.toNat ≤ extent.firstStartByteOffset.toNat

theorem BlockSize.twice_toNat {sectorSize : UInt32}
    (h : BlockSize sectorSize) :
    (2 * sectorSize.toUInt64).toNat = 2 * sectorSize.toNat := by
  rcases h with rfl | rfl
  · rfl
  · rfl

theorem twice_toNat (geo : Geometry) :
    (2 * geo.sectorSize.toUInt64).toNat = 2 * geo.sectorSize.toNat :=
  geo.blockSize.twice_toNat

/-- The used entries leave room for the tables on both sides. -/
theorem checkRoom_eq_ok_iff (h : TableShape gpt) {sectorSize : UInt32}
    (hsize : BlockSize sectorSize) {size : UInt64} {extent : UsedExtent} :
    checkRoom gpt sectorSize size extent = .ok () ↔
      extent.firstStartByteOffset.toNat < extent.lastEndByteOffset.toNat ∧
      roundUp (gpt.usedEntries.toNat * 128) sectorSize.toNat +
          sectorSize.toNat + extent.lastEndByteOffset.toNat ≤ size.toNat ∧
      roundUp (gpt.usedEntries.toNat * 128) sectorSize.toNat +
          2 * sectorSize.toNat ≤ extent.firstStartByteOffset.toNat := by
  have hused := h.usedEntries_le
  have hsmall := h.small
  have hround : roundUp (gpt.usedEntries.toNat * 128) sectorSize.toNat ≤
      1048576 + 4096 ∧ sectorSize.toNat ≤ 4096 := by
    rw [roundUp]
    rcases hsize.toNat_cases with h | h
    · rw [h]
      omega
    · rw [h]
      omega
  have hlast := extent.lastEndByteOffset.toNat_lt
  have hsize' := size.toNat_lt
  have hbytes : ∀ tableBytes : UInt64, tableBytes.toNat =
      roundUp (gpt.usedEntries.toNat * 128) sectorSize.toNat →
      (tableBytes + sectorSize.toUInt64).toNat =
          tableBytes.toNat + sectorSize.toNat ∧
        (tableBytes + 2 * sectorSize.toUInt64).toNat =
          tableBytes.toNat + 2 * sectorSize.toNat := by
    intro tableBytes htable
    rw [toNat_add_of_lt (by rw [UInt32.toNat_toUInt64]; omega),
      toNat_add_of_lt (by rw [hsize.twice_toNat]; omega),
      UInt32.toNat_toUInt64, hsize.twice_toNat]
    exact ⟨rfl, rfl⟩
  simp only [checkRoom, bind_eq_ok, assertC_eq_ok, exists_const,
    ite_error_eq_ok, gt_iff_lt, UInt64.le_iff_toNat_le,
    UInt64.lt_iff_toNat_lt, requiredBytes_ok_iff hsize h.entrySize]
  constructor
  · rintro ⟨hlt, tableBytes, htable, hbefore, hbackup, hprimary, _⟩
    obtain ⟨hone, htwo⟩ := hbytes tableBytes htable
    rw [UInt64.toNat_sub_of_le _ _ (UInt64.le_iff_toNat_le.mpr hbefore),
      hone] at hbackup
    rw [htwo] at hprimary
    exact ⟨hlt, by omega, by omega⟩
  · rintro ⟨hlt, hbackup, hprimary⟩
    have htable : (UInt64.ofNat (roundUp (gpt.usedEntries.toNat * 128)
        sectorSize.toNat)).toNat =
        roundUp (gpt.usedEntries.toNat * 128) sectorSize.toNat :=
      UInt64.toNat_ofNat_of_lt' (Nat.lt_of_le_of_lt hround.1 (by decide))
    obtain ⟨hone, htwo⟩ := hbytes _ htable
    refine ⟨hlt, _, htable, by omega, ?_, ?_, trivial⟩
    · rw [UInt64.toNat_sub_of_le _ _ (UInt64.le_iff_toNat_le.mpr (by omega)),
        hone]
      omega
    · rw [htwo]
      omega

theorem checkRoom_ok (h : SourceLayout geo sectorOffset gpt)
    {extent : UsedExtent}
    (hroom : checkRoom gpt geo.sectorSize geo.size extent = .ok ()) :
    Room geo extent := by
  obtain ⟨_, hbackup, hprimary⟩ :=
    (checkRoom_eq_ok_iff h.shape geo.blockSize).mp hroom
  exact ⟨by omega, by omega⟩

/-- As many entries are kept as there is room for on both sides. -/
theorem newEntriesCount_eq_ok_iff (h : TableShape gpt) {sectorSize : UInt32}
    (hsize : BlockSize sectorSize) {size : UInt64} {extent : UsedExtent}
    (hbackup : sectorSize.toNat + extent.lastEndByteOffset.toNat ≤
      size.toNat)
    (hprimary : 2 * sectorSize.toNat ≤ extent.firstStartByteOffset.toNat)
    {count : UInt32} :
    newEntriesCount gpt sectorSize size extent = .ok count ↔
      gpt.usedEntries.toNat * 128 + sectorSize.toNat +
          extent.lastEndByteOffset.toNat ≤ size.toNat ∧
      gpt.usedEntries.toNat * 128 + 2 * sectorSize.toNat ≤
          extent.firstStartByteOffset.toNat ∧
      count.toNat = min
        (min (size.toNat - sectorSize.toNat -
            extent.lastEndByteOffset.toNat)
          (extent.firstStartByteOffset.toNat - 2 * sectorSize.toNat) / 128)
        gpt.header.numberOfPartitionEntries.toNat := by
  have hlt := gpt.header.numberOfPartitionEntries.toNat_lt
  have hsub : (size - sectorSize.toUInt64).toNat =
      size.toNat - sectorSize.toNat :=
    UInt64.toNat_sub_of_le _ _ (UInt64.le_iff_toNat_le.mpr (by
      rw [UInt32.toNat_toUInt64]
      omega))
  have hbehind : (size - sectorSize.toUInt64 -
      extent.lastEndByteOffset).toNat = size.toNat -
        sectorSize.toNat - extent.lastEndByteOffset.toNat := by
    rw [UInt64.toNat_sub_of_le _ _ (UInt64.le_iff_toNat_le.mpr (by
      rw [hsub]
      omega)), hsub]
  have hbefore : (extent.firstStartByteOffset -
      2 * sectorSize.toUInt64).toNat =
        extent.firstStartByteOffset.toNat - 2 * sectorSize.toNat := by
    rw [UInt64.toNat_sub_of_le _ _ (UInt64.le_iff_toNat_le.mpr (by
      rw [hsize.twice_toNat]
      omega)), hsize.twice_toNat]
  have hentry : (128 : UInt32).toUInt64.toNat = 128 := rfl
  have hvalue : (minC (minC (size - sectorSize.toUInt64 -
      extent.lastEndByteOffset) (extent.firstStartByteOffset -
        2 * sectorSize.toUInt64) / (128 : UInt32).toUInt64)
      gpt.header.numberOfPartitionEntries.toUInt64).toUInt32.toNat = min
        (min (size.toNat - sectorSize.toNat -
            extent.lastEndByteOffset.toNat)
          (extent.firstStartByteOffset.toNat - 2 * sectorSize.toNat) / 128)
        gpt.header.numberOfPartitionEntries.toNat := by
    rw [UInt64.toNat_toUInt32, toNat_minC, UInt64.toNat_div, toNat_minC,
      hbehind, hbefore, hentry, UInt32.toNat_toUInt64]
    omega
  simp only [newEntriesCount, bind_eq_ok, assertC_eq_ok, exists_const,
    pure, Except.pure, Except.ok.injEq, h.entrySize, UInt64.le_iff_toNat_le,
    UInt64.toNat_div, toNat_minC, hbehind, hbefore, hentry,
    UInt32.toNat_toUInt64, ← UInt32.toNat_inj, hvalue]
  constructor
  · rintro ⟨hfits, hcount⟩
    exact ⟨by omega, by omega, hcount.symm⟩
  · rintro ⟨hback, hfront, hcount⟩
    exact ⟨by omega, hcount.symm⟩

theorem newEntriesCount_ok (h : SourceLayout geo sectorOffset gpt)
    {extent : UsedExtent} (hroom : Room geo extent) {count : UInt32}
    (hcount : newEntriesCount gpt geo.sectorSize geo.size extent =
      .ok count) :
    gpt.usedEntries.toNat ≤ count.toNat ∧
      count.toNat ≤ gpt.header.numberOfPartitionEntries.toNat ∧
      count.toNat * 128 + geo.sectorSize.toNat +
          extent.lastEndByteOffset.toNat ≤ geo.size.toNat ∧
      count.toNat * 128 + 2 * geo.sectorSize.toNat ≤
        extent.firstStartByteOffset.toNat := by
  have hused := h.shape.usedEntries_le
  have hbackup := hroom.backup
  have hprimary := hroom.primary
  obtain ⟨hback, hfront, hvalue⟩ := (newEntriesCount_eq_ok_iff h.shape
    geo.blockSize hbackup hprimary).mp hcount
  omega

/-- Rounding up does not step over a multiple. -/
theorem roundUp_le_of_aligned {value bound sectorSize : Nat}
    (hsize : sectorSize = 512 ∨ sectorSize = 4096) (hle : value ≤ bound)
    (haligned : bound % sectorSize = 0) :
    roundUp value sectorSize ≤ bound := by
  rw [roundUp]
  rcases hsize with rfl | rfl
  · omega
  · omega

theorem Adjustment.layout (h : SourceLayout geo sectorOffset gpt)
    (a : Adjustment geo gpt) : NewLayout geo gpt a.count a.tableBytes := by
  have hroom := checkRoom_ok h a.room
  obtain ⟨hkeeps, _, hbackup, hprimary⟩ := newEntriesCount_ok h hroom
    a.counted
  have htable := requiredBytes_toNat h.entrySize a.required
  obtain ⟨hall, _, _, hfirst, hlast⟩ := scanEntries_ok a.scanned
  have hbounds : ∀ entry ∈ gpt.entries, Used entry →
      firstByte entry geo.oldSectorSize % geo.sectorSize.toNat = 0 ∧
      behindByte entry geo.oldSectorSize % geo.sectorSize.toNat = 0 ∧
      a.extent.firstStartByteOffset.toNat ≤
        firstByte entry geo.oldSectorSize ∧
      behindByte entry geo.oldSectorSize ≤
        a.extent.lastEndByteOffset.toNat := by
    intro entry hentry hused
    have hentry' := hall entry (h.mem_take hentry hused) hused
    rw [h.toNat_start hentry hused, h.toNat_end hentry hused] at hentry'
    exact hentry'
  obtain ⟨some', hsome, hsomeUsed⟩ := h.exists_used
  have hsomeBounds := hbounds some' hsome hsomeUsed
  have hsomeRange := h.ranged some' hsome hsomeUsed
  have hmem : ∀ {entry : GPTPartitionEntry},
      entry ∈ gpt.entries.take gpt.usedEntries.toNat →
        entry ∈ gpt.entries := List.mem_of_mem_take
  have hfirstAligned : a.extent.firstStartByteOffset.toNat %
      geo.sectorSize.toNat = 0 := by
    rcases hfirst with heq | ⟨entry, hentry, hused, heq⟩
    · have hinitial : (0xFFFFFFFFFFFFFFFF : UInt64).toNat = 2 ^ 64 - 1 := rfl
      rw [hinitial] at heq
      have hle := hsomeBounds.2.2.1
      have hlast := h.lastUsable
      have hoff := geo.offT
      omega
    · rw [heq, h.toNat_start (hmem hentry) hused]
      exact (hbounds entry (hmem hentry) hused).1
  have hlastAligned : a.extent.lastEndByteOffset.toNat %
      geo.sectorSize.toNat = 0 := by
    rcases hlast with heq | ⟨entry, hentry, hused, heq⟩
    · rw [heq]
      rfl
    · rw [heq, h.toNat_end (hmem hentry) hused]
      exact (hbounds entry (hmem hentry) hused).2.1
  have haligned := geo.aligned
  have hprimary' : a.tableBytes.toNat + 2 * geo.sectorSize.toNat ≤
      a.extent.firstStartByteOffset.toNat := by
    have hround := roundUp_le_of_aligned geo.size_cases
      (Nat.le_sub_of_add_le hprimary) (by
        rcases geo.size_cases with h | h
        · rw [h] at hfirstAligned ⊢
          omega
        · rw [h] at hfirstAligned ⊢
          omega)
    rw [htable]
    omega
  have hbackup' : a.tableBytes.toNat + geo.sectorSize.toNat +
      a.extent.lastEndByteOffset.toNat ≤ geo.size.toNat := by
    have hround := roundUp_le_of_aligned geo.size_cases
      (Nat.le_sub_of_add_le (Nat.add_assoc _ _ _ ▸ hbackup)) (by
        rcases geo.size_cases with h | h
        · rw [h] at hlastAligned ⊢
          omega
        · rw [h] at hlastAligned ⊢
          omega)
    rw [htable]
    omega
  refine ⟨UInt32.le_iff_toNat_le.mpr hkeeps, htable, ?_, ?_, ?_⟩
  · intro entry hentry hused
    have hentry' := hbounds entry hentry hused
    exact ⟨hentry'.1, hentry'.2.1⟩
  · intro entry hentry hused
    have hentry' := hbounds entry hentry hused
    omega
  · intro entry hentry hused
    have hentry' := hbounds entry hentry hused
    omega

/-- The header of a new table, in bytes. -/
structure HeaderLayout (geo : Geometry) (gpt : GPT) (sectorOffset : UInt64)
    (count : UInt32) (tableBytes : UInt64) (header : GPTHeader) : Prop where
  signature : header.signature = efiPart
  revision : header.revision = gpt.header.revision
  headerSize : header.headerSize = gpt.header.headerSize
  diskGUID : header.diskGUID = gpt.header.diskGUID
  count : header.numberOfPartitionEntries = count
  entrySize : header.sizeOfPartitionEntry = 128
  myLBA : header.myLBA = sectorOffset
  alternateLBA : header.alternateLBA =
    if sectorOffset = 1 then geo.sectors - 1 else 1
  partitionEntryLBA : header.partitionEntryLBA.toNat *
      geo.sectorSize.toNat =
    if sectorOffset = 1 then 2 * geo.sectorSize.toNat
    else geo.size.toNat - geo.sectorSize.toNat - tableBytes.toNat
  firstUsableLow : tableBytes.toNat + 2 * geo.sectorSize.toNat ≤
    header.firstUsableLBA.toNat * geo.sectorSize.toNat
  firstUsableHigh : ∀ entry ∈ gpt.entries, Used entry →
    header.firstUsableLBA.toNat * geo.sectorSize.toNat ≤
      firstByte entry geo.oldSectorSize
  lastUsableLow : ∀ entry ∈ gpt.entries, Used entry →
    behindByte entry geo.oldSectorSize ≤
      (header.lastUsableLBA.toNat + 1) * geo.sectorSize.toNat
  lastUsableHigh : (header.lastUsableLBA.toNat + 1) *
      geo.sectorSize.toNat + tableBytes.toNat + geo.sectorSize.toNat ≤
    geo.size.toNat

theorem BlockSize.shiftRight_ctz {sectorSize : UInt32}
    (h : BlockSize sectorSize) (value : UInt64) :
    (value >>> (ctz sectorSize).toUInt64).toNat =
      value.toNat / sectorSize.toNat := by
  rcases h with rfl | rfl
  · rw [UInt64.toNat_shiftRight, Nat.shiftRight_eq_div_pow]
    rfl
  · rw [UInt64.toNat_shiftRight, Nat.shiftRight_eq_div_pow]
    rfl

theorem shiftRight_ctz (geo : Geometry) (value : UInt64) :
    (value >>> (ctz geo.sectorSize).toUInt64).toNat =
      value.toNat / geo.sectorSize.toNat :=
  geo.blockSize.shiftRight_ctz value

/-- The first sector of a table that ends in front of the last sector. -/
theorem sectors_before_table {sectors tableBytes size sectorSize : Nat}
    (hsectors : sectors * sectorSize = size)
    (haligned : tableBytes % sectorSize = 0) :
    (sectors - 1 - tableBytes / sectorSize) * sectorSize =
      size - sectorSize - tableBytes := by
  have hdiv := Nat.div_mul_cancel (Nat.dvd_of_mod_eq_zero haligned)
  rw [Nat.sub_mul, Nat.sub_mul, hsectors, hdiv, Nat.one_mul]

theorem newHeader_layout (h : SourceLayout geo sectorOffset gpt)
    {target : UInt64} {count : UInt32} {tableBytes : UInt64}
    (hnew : NewLayout geo gpt count tableBytes) {header : GPTHeader}
    (hheader : newHeader gpt target geo.sectorSize geo.sectors geo.size
      tableBytes count = .ok header) :
    HeaderLayout geo gpt target count tableBytes header := by
  obtain ⟨some', hsome, hsomeUsed⟩ := h.exists_used
  have hprimary := hnew.primaryRoom some' hsome hsomeUsed
  have hbackup := hnew.backupRoom some' hsome hsomeUsed
  have haligned := hnew.aligned some' hsome hsomeUsed
  have hranged := h.ranged some' hsome hsomeUsed
  have hlastUsable := h.lastUsable
  have hoff := geo.offT
  have hsize := geo.size_cases
  have hsectors := geo.sectors_mul
  have hsizeAligned := geo.aligned
  have htableAligned : tableBytes.toNat % geo.sectorSize.toNat = 0 := by
    rw [hnew.table, roundUp]
    exact Nat.mul_mod_left _ _
  have hbytes : (tableBytes + 2 * geo.sectorSize.toUInt64).toNat =
      tableBytes.toNat + 2 * geo.sectorSize.toNat := by
    rw [toNat_add_of_lt (by rw [twice_toNat]; omega), twice_toNat]
  have hbytes' : (tableBytes + geo.sectorSize.toUInt64).toNat =
      tableBytes.toNat + geo.sectorSize.toNat := by
    rw [toNat_add_of_lt (by rw [UInt32.toNat_toUInt64]; omega),
      UInt32.toNat_toUInt64]
  have hfirst : (gpt.header.firstUsableLBA *
      gpt.sectorSize.toUInt64).toNat = gpt.header.firstUsableLBA.toNat *
        geo.oldSectorSize.toNat := by
    rw [h.sectorSize, toNat_mul_of_lt, UInt32.toNat_toUInt64]
    rw [UInt32.toNat_toUInt64]
    omega
  have hlast : ((gpt.header.lastUsableLBA + 1) *
      gpt.sectorSize.toUInt64).toNat =
      (gpt.header.lastUsableLBA.toNat + 1) * geo.oldSectorSize.toNat := by
    have hle : gpt.header.lastUsableLBA.toNat + 1 ≤
        (gpt.header.lastUsableLBA.toNat + 1) * geo.oldSectorSize.toNat := by
      refine Nat.le_mul_of_pos_right _ ?_
      rcases SourceTable.oldSize_cases geo with h | h
      · omega
      · omega
    have hadd : (gpt.header.lastUsableLBA + 1).toNat =
        gpt.header.lastUsableLBA.toNat + 1 :=
      toNat_add_of_lt (by rw [UInt64.toNat_one]; omega)
    rw [h.sectorSize, toNat_mul_of_lt, hadd, UInt32.toNat_toUInt64]
    rw [hadd, UInt32.toNat_toUInt64]
    omega
  simp only [newHeader, bind_eq_ok, pure, Except.pure, Except.ok.injEq]
    at hheader
  obtain ⟨firstUsable, hround, rfl⟩ := hheader
  obtain ⟨_, hfirstUsable⟩ :=
    (roundToNextSector_eq_ok_iff geo.blockSize _ _).mp hround
  rw [toNat_maxC, hfirst, hbytes] at hfirstUsable
  have hfirstMul : (firstUsable / geo.sectorSize.toUInt64).toNat *
      geo.sectorSize.toNat = firstUsable.toNat := by
    rw [UInt64.toNat_div, UInt32.toNat_toUInt64, hfirstUsable, roundUp]
    rcases hsize with h | h
    · rw [h]
      omega
    · rw [h]
      omega
  have hunusable : (minC ((gpt.header.lastUsableLBA + 1) *
      gpt.sectorSize.toUInt64)
      (geo.size - (tableBytes + geo.sectorSize.toUInt64))).toNat =
      min ((gpt.header.lastUsableLBA.toNat + 1) * geo.oldSectorSize.toNat)
        (geo.size.toNat - (tableBytes.toNat + geo.sectorSize.toNat)) := by
    rw [toNat_minC, hlast, UInt64.toNat_sub_of_le _ _
      (UInt64.le_iff_toNat_le.mpr (by rw [hbytes']; omega)), hbytes']
  generalize minC ((gpt.header.lastUsableLBA + 1) *
    gpt.sectorSize.toUInt64)
    (geo.size - (tableBytes + geo.sectorSize.toUInt64)) =
      firstUnusable at hunusable ⊢
  have hpositive : 1 ≤ firstUnusable.toNat / geo.sectorSize.toNat := by
    rw [hunusable]
    rcases hsize with h | h
    · rw [h] at haligned ⊢
      omega
    · rw [h] at haligned ⊢
      omega
  have hlastNat : (firstUnusable / geo.sectorSize.toUInt64 - 1).toNat + 1 =
      firstUnusable.toNat / geo.sectorSize.toNat := by
    have hdiv : (firstUnusable / geo.sectorSize.toUInt64).toNat =
        firstUnusable.toNat / geo.sectorSize.toNat := by
      rw [UInt64.toNat_div, UInt32.toNat_toUInt64]
    rw [UInt64.toNat_sub_of_le _ _ (UInt64.le_iff_toNat_le.mpr (by
      rw [hdiv, UInt64.toNat_one]
      exact hpositive)), hdiv, UInt64.toNat_one]
    omega
  refine
    { signature := rfl
      revision := rfl
      headerSize := rfl
      diskGUID := rfl
      count := rfl
      entrySize := h.entrySize
      myLBA := rfl
      alternateLBA := ?_
      partitionEntryLBA := ?_
      firstUsableLow := ?_
      firstUsableHigh := ?_
      lastUsableLow := ?_
      lastUsableHigh := ?_ }
  · simp only [beq_iff_eq]
  · simp only [beq_iff_eq]
    by_cases hone : target = 1
    · rw [if_pos hone, if_pos hone]
      rfl
    · rw [if_neg hone, if_neg hone]
      have hsub : (geo.sectors - 1 -
          tableBytes >>> (ctz geo.sectorSize).toUInt64).toNat =
          geo.sectors.toNat - 1 -
            tableBytes.toNat / geo.sectorSize.toNat := by
        rw [UInt64.toNat_sub_of_le _ _ (UInt64.le_iff_toNat_le.mpr ?_),
          shiftRight_ctz, geo.toNat_sectors_sub_one h.nonempty]
        rw [shiftRight_ctz, geo.toNat_sectors_sub_one h.nonempty]
        rcases hsize with h | h
        · rw [h] at hsectors hbackup htableAligned ⊢
          omega
        · rw [h] at hsectors hbackup htableAligned ⊢
          omega
      rw [hsub]
      exact sectors_before_table hsectors htableAligned
  · rw [hfirstMul, hfirstUsable, roundUp]
    rcases hsize with h | h
    · rw [h]
      omega
    · rw [h]
      omega
  · intro entry hentry hused
    rw [hfirstMul, hfirstUsable]
    exact roundUp_le_of_aligned hsize
      (Nat.max_le.mpr ⟨(h.ranged entry hentry hused).1,
        hnew.primaryRoom entry hentry hused⟩)
      (hnew.aligned entry hentry hused).1
  · intro entry hentry hused
    have hentryAligned := (hnew.aligned entry hentry hused).2
    have hentryRoom := hnew.backupRoom entry hentry hused
    have hentryRange := (h.ranged entry hentry hused).2.2
    rw [hlastNat, hunusable]
    rcases hsize with h | h
    · rw [h] at hentryAligned hentryRoom ⊢
      omega
    · rw [h] at hentryAligned hentryRoom ⊢
      omega
  · rw [hlastNat, hunusable]
    rcases hsize with h | h
    · rw [h] at hbackup ⊢
      omega
    · rw [h] at hbackup ⊢
      omega

end

end QubesUtils
