/-
The two calls of `create_new_gpt` in `main` stop for the same tables, so that
nothing is written or both copies are.  The table may be any that was
accepted, and the new sectors any of the two sizes.
-/
import QubesUtils.GptWrites

namespace QubesUtils

open ByteCodec

/-- `create_new_gpt` gets as far as its first write. -/
def Installable (crc32 : List UInt8 → UInt32) (target : UInt64)
    (sectorSize : UInt32) (sectors : UInt64) (gpt : GPT) : Prop :=
  ∃ new buffer tableBytes,
    gptAdjustSectors crc32 target sectorSize sectors gpt =
      .ok (new, buffer) ∧
    checkGptHeader crc32 new.header target sectorSize sectors =
      .ok tableBytes ∧ tableBytes ≠ 0

/-- What two headers for different places have in common. -/
structure SameTable (left right : GPTHeader) : Prop where
  revision : left.revision = right.revision
  headerSize : left.headerSize = right.headerSize
  firstUsable : left.firstUsableLBA = right.firstUsableLBA
  lastUsable : left.lastUsableLBA = right.lastUsableLBA

/-- The header of a new table, wherever the old one came from.  The last
usable sector is exact, or the number that means none. -/
structure Placed (crc32 : List UInt8 → UInt32) (target : UInt64)
    (sectorSize : UInt32) (sectors : UInt64) (table : Nat)
    (header : GPTHeader) : Prop where
  signature : header.signature = efiPart
  checksum : header.headerCRC32 =
    crc32 (gptHeaderCodec.put { header with headerCRC32 := 0 })
  entrySize : header.sizeOfPartitionEntry = 128
  myLBA : header.myLBA = target
  alternateLBA : header.alternateLBA = if target = 1 then sectors - 1 else 1
  entryLBA : header.partitionEntryLBA.toNat =
    if target = 1 then 2 else sectors.toNat - 1 - table
  count : 1 ≤ header.numberOfPartitionEntries.toNat
  small : header.numberOfPartitionEntries.toNat * 128 ≤ 1048576
  tableLow : header.numberOfPartitionEntries.toNat * 128 ≤
    table * sectorSize.toNat
  tableHigh : table + 1 ≤ sectors.toNat
  firstUsable : table + 2 ≤ header.firstUsableLBA.toNat
  lastUsable : header.lastUsableLBA.toNat = 2 ^ 64 - 1 ∨
    header.lastUsableLBA.toNat + table + 2 ≤ sectors.toNat

section

variable {crc32 : List UInt8 → UInt32} {gpt new : GPT}
  {target other sectors : UInt64} {sectorSize : UInt32}
  {buffer : List UInt8}

theorem newHeader_retarget {size tableBytes : UInt64} {count : UInt32}
    {header : GPTHeader}
    (hheader : newHeader gpt target sectorSize sectors size tableBytes
      count = .ok header) (other : UInt64) :
    ∃ header', newHeader gpt other sectorSize sectors size tableBytes count =
      .ok header' ∧ SameTable header header' ∧
      gptPartitionTableBytes header' = gptPartitionTableBytes header := by
  simp only [newHeader, bind_eq_ok, pure, Except.pure, Except.ok.injEq]
    at hheader ⊢
  obtain ⟨firstUsable, hround, rfl⟩ := hheader
  exact ⟨_, ⟨firstUsable, hround, rfl⟩, ⟨rfl, rfl, rfl, rfl⟩, rfl⟩

theorem fixupGpt_ok {tableBytes : UInt64}
    (h : fixupGpt crc32 gpt tableBytes = .ok (new, buffer)) :
    new.header = { gpt.header with
      partitionEntryArrayCRC32 := new.header.partitionEntryArrayCRC32
      headerCRC32 := crc32 (gptHeaderCodec.put { gpt.header with
        partitionEntryArrayCRC32 :=
          new.header.partitionEntryArrayCRC32 }) } := by
  simp only [fixupGpt, bind_eq_ok, assertC_eq_ok, exists_const, pure,
    Except.pure, Except.ok.injEq, Prod.mk.injEq] at h
  obtain ⟨_, rfl, _⟩ := h
  rfl

theorem fixupGpt_length {tableBytes : UInt64}
    (h : fixupGpt crc32 gpt tableBytes = .ok (new, buffer)) :
    buffer.length = gpt.entries.length * 128 +
      (tableBytes - gptPartitionTableBytes gpt.header).toNat := by
  simp only [fixupGpt, bind_eq_ok, assertC_eq_ok, exists_const, pure,
    Except.pure, Except.ok.injEq, Prod.mk.injEq] at h
  obtain ⟨_, _, rfl⟩ := h
  rw [List.length_append, Codec.length_putAll, List.length_replicate]
  rfl

theorem fixupGpt_retarget {tableBytes : UInt64} {header header' : GPTHeader}
    {entries : List GPTPartitionEntry} {count : UInt32}
    (h : fixupGpt crc32 ⟨header, count, entries, 0⟩ tableBytes =
      .ok (new, buffer))
    (hbytes : gptPartitionTableBytes header' =
      gptPartitionTableBytes header) :
    ∃ new' buffer', fixupGpt crc32 ⟨header', count, entries, 0⟩ tableBytes =
      .ok (new', buffer') := by
  simp only [fixupGpt, bind_eq_ok, assertC_eq_ok, exists_const, pure,
    Except.pure, Except.ok.injEq, Prod.mk.injEq] at h ⊢
  exact ⟨_, _, hbytes ▸ h.1, rfl, rfl⟩

/-- The conversion for one place succeeds if the one for another does. -/
theorem gptAdjustSectors_retarget
    (h : gptAdjustSectors crc32 target sectorSize sectors gpt =
      .ok (new, buffer)) (hother : other = 1 ∨ other = sectors - 1) :
    ∃ new' buffer', gptAdjustSectors crc32 other sectorSize sectors gpt =
      .ok (new', buffer') ∧ SameTable new.header new'.header := by
  simp only [gptAdjustSectors, bind_eq_ok, assertC_eq_ok, exists_const]
    at h ⊢
  obtain ⟨hsix, hold, hnew, _, hentry, extent, hscan, _, hroom, count,
    hcount, tableBytes, hrequired, header, hheader, hkept, hfixup⟩ := h
  obtain ⟨header', hheader', hsame, hbytes⟩ := newHeader_retarget hheader other
  obtain ⟨new', buffer', hfixup'⟩ := fixupGpt_retarget hfixup hbytes
  have hnew' := fixupGpt_ok hfixup
  have hnew'' := fixupGpt_ok hfixup'
  refine ⟨new', buffer', ⟨hsix, hold, hnew, hother, hentry, extent, hscan,
    (), hroom, count, hcount, tableBytes, hrequired, header', hheader', hkept,
    hfixup'⟩, ?_⟩
  rw [hnew', hnew'']
  exact ⟨hsame.revision, hsame.headerSize, hsame.firstUsable,
    hsame.lastUsable⟩

/-- The room that the conversion has made sure of. -/
theorem room_of_checks (hshape : TableShape gpt) (hsize : BlockSize sectorSize)
    {size tableBytes : UInt64} {extent : UsedExtent} {count : UInt32}
    (haligned : size.toNat % sectorSize.toNat = 0)
    (hroom : checkRoom gpt sectorSize size extent = .ok ())
    (hcount : newEntriesCount gpt sectorSize size extent = .ok count)
    (hrequired : gptPartitionTableRequiredBytes gpt sectorSize count =
      .ok tableBytes) :
    1 ≤ count.toNat ∧
      count.toNat ≤ gpt.header.numberOfPartitionEntries.toNat ∧
      tableBytes.toNat = roundUp (count.toNat * 128) sectorSize.toNat ∧
      tableBytes.toNat + sectorSize.toNat ≤ size.toNat := by
  obtain ⟨_, hbackup, hprimary⟩ := (checkRoom_eq_ok_iff hshape hsize).mp hroom
  obtain ⟨hback, hfront, hvalue⟩ := (newEntriesCount_eq_ok_iff hshape hsize
    (by omega) (by omega)).mp hcount
  have htable := (requiredBytes_ok_iff hsize hshape.entrySize).mp hrequired
  have hused := hshape.usedEntries_pos
  have hle := hshape.usedEntries_le
  have hround := roundUp_le_of_aligned hsize.toNat_cases
    (show count.toNat * 128 ≤ size.toNat - sectorSize.toNat by omega) (by
      rcases hsize.toNat_cases with h | h
      · rw [h] at haligned ⊢
        omega
      · rw [h] at haligned ⊢
        omega)
  exact ⟨by omega, by omega, htable, by omega⟩

theorem roundUp_ge {value sectorSize : Nat}
    (hsize : sectorSize = 512 ∨ sectorSize = 4096) :
    value ≤ roundUp value sectorSize := by
  rw [roundUp]
  rcases hsize with rfl | rfl
  · omega
  · omega

/-- The first and the last usable sector keep clear of both arrays. -/
theorem newHeader_usable (hsize : BlockSize sectorSize)
    {size tableBytes : UInt64} {count : UInt32} {header : GPTHeader}
    (hsectors : sectors.toNat * sectorSize.toNat = size.toNat)
    (htable : tableBytes.toNat % sectorSize.toNat = 0)
    (hinside : tableBytes.toNat + sectorSize.toNat ≤ size.toNat)
    (hoff : size.toNat < 2 ^ 63)
    (hheader : newHeader gpt target sectorSize sectors size tableBytes
      count = .ok header) :
    tableBytes.toNat / sectorSize.toNat + 2 ≤ header.firstUsableLBA.toNat ∧
      (header.lastUsableLBA.toNat = 2 ^ 64 - 1 ∨
        header.lastUsableLBA.toNat + tableBytes.toNat / sectorSize.toNat + 2 ≤
          sectors.toNat) := by
  have hone : (tableBytes + sectorSize.toUInt64).toNat =
      tableBytes.toNat + sectorSize.toNat :=
    toNat_add_of_lt (by rw [UInt32.toNat_toUInt64]; omega)
  have htwo : (tableBytes + 2 * sectorSize.toUInt64).toNat =
      tableBytes.toNat + 2 * sectorSize.toNat := by
    rw [toNat_add_of_lt (by rw [hsize.twice_toNat]; omega),
      hsize.twice_toNat]
  simp only [newHeader, bind_eq_ok, pure, Except.pure, Except.ok.injEq]
    at hheader
  obtain ⟨firstUsable, hround, rfl⟩ := hheader
  obtain ⟨_, hfirst⟩ := (roundToNextSector_eq_ok_iff hsize _ _).mp hround
  constructor
  · rw [toNat_maxC, htwo] at hfirst
    rw [UInt64.toNat_div, UInt32.toNat_toUInt64, hfirst, roundUp]
    rcases hsize.toNat_cases with h | h
    · rw [h]
      omega
    · rw [h]
      omega
  · have hunusable : (minC ((gpt.header.lastUsableLBA + 1) *
        gpt.sectorSize.toUInt64)
        (size - (tableBytes + sectorSize.toUInt64))).toNat ≤
        size.toNat - (tableBytes.toNat + sectorSize.toNat) := by
      rw [toNat_minC, UInt64.toNat_sub_of_le _ _
        (UInt64.le_iff_toNat_le.mpr (by rw [hone]; exact hinside)), hone]
      exact Nat.min_le_right _ _
    generalize minC ((gpt.header.lastUsableLBA + 1) *
      gpt.sectorSize.toUInt64)
      (size - (tableBytes + sectorSize.toUInt64)) = firstUnusable
      at hunusable ⊢
    have hdiv : (firstUnusable / sectorSize.toUInt64).toNat =
        firstUnusable.toNat / sectorSize.toNat := by
      rw [UInt64.toNat_div, UInt32.toNat_toUInt64]
    have hsub := UInt64.toNat_sub (firstUnusable / sectorSize.toUInt64) 1
    rw [hdiv, UInt64.toNat_one] at hsub
    have hlt := firstUnusable.toNat_lt
    simp only
    rw [hsub]
    rcases hsize.toNat_cases with h | h
    · rw [h] at hsectors htable hinside hunusable ⊢
      omega
    · rw [h] at hsectors htable hinside hunusable ⊢
      omega

/-- The array of a new header begins in front of the last sector, or behind
the first header. -/
theorem newHeader_entryLBA (hsize : BlockSize sectorSize)
    {size tableBytes : UInt64} {count : UInt32} {header : GPTHeader}
    (hinside : tableBytes.toNat / sectorSize.toNat + 1 ≤ sectors.toNat)
    (hheader : newHeader gpt target sectorSize sectors size tableBytes
      count = .ok header) :
    header.partitionEntryLBA.toNat = if target = 1 then 2
      else sectors.toNat - 1 - tableBytes.toNat / sectorSize.toNat := by
  simp only [newHeader, bind_eq_ok, pure, Except.pure, Except.ok.injEq]
    at hheader
  obtain ⟨firstUsable, hround, rfl⟩ := hheader
  simp only [beq_iff_eq]
  by_cases hone : target = 1
  · rw [if_pos hone, if_pos hone]
    rfl
  · have hlast : (sectors - 1).toNat = sectors.toNat - 1 :=
      UInt64.toNat_sub_of_le _ _ (UInt64.le_iff_toNat_le.mpr
        (Nat.le_trans (Nat.le_add_left _ _) hinside))
    rw [if_neg hone, if_neg hone, UInt64.toNat_sub_of_le _ _
      (UInt64.le_iff_toNat_le.mpr (by
        rw [hsize.shiftRight_ctz, hlast]
        exact Nat.le_sub_of_add_le hinside)), hsize.shiftRight_ctz, hlast]

theorem newHeader_fixed {size tableBytes : UInt64} {count : UInt32}
    {header : GPTHeader}
    (hheader : newHeader gpt target sectorSize sectors size tableBytes
      count = .ok header) :
    header.signature = efiPart ∧ header.headerCRC32 = 0 ∧
      header.sizeOfPartitionEntry = gpt.header.sizeOfPartitionEntry ∧
      header.myLBA = target ∧
      header.alternateLBA = (if target = 1 then sectors - 1 else 1) ∧
      header.numberOfPartitionEntries = count := by
  simp only [newHeader, bind_eq_ok, pure, Except.pure, Except.ok.injEq]
    at hheader
  obtain ⟨_, _, rfl⟩ := hheader
  simp

/-- A converted header is placed, and as many bytes are allocated for its
array as it takes. -/
theorem gptAdjustSectors_placed (hshape : TableShape gpt)
    (hsize : BlockSize sectorSize)
    (hoff : sectors.toNat * sectorSize.toNat < 2 ^ 63)
    (h : gptAdjustSectors crc32 target sectorSize sectors gpt =
      .ok (new, buffer)) :
    ∃ table, Placed crc32 target sectorSize sectors table new.header ∧
      buffer.length = table * sectorSize.toNat := by
  simp only [gptAdjustSectors, bind_eq_ok, assertC_eq_ok, exists_const]
    at h
  obtain ⟨hsix, _, _, htarget, _, extent, _, _, hroom, count, hcount,
    tableBytes, hrequired, header, hheader, hkept, hfixup⟩ := h
  have hbytes : (sectorSize.toUInt64 * sectors).toNat =
      sectors.toNat * sectorSize.toNat := by
    rw [toNat_mul_of_lt, UInt32.toNat_toUInt64, Nat.mul_comm]
    rw [UInt32.toNat_toUInt64, Nat.mul_comm]
    omega
  obtain ⟨hpositive, hle, htable, hinside⟩ := room_of_checks hshape hsize
    (by rw [hbytes]; exact Nat.mul_mod_left _ _) hroom hcount hrequired
  have haligned : tableBytes.toNat % sectorSize.toNat = 0 := by
    rw [htable, roundUp]
    exact Nat.mul_mod_left _ _
  have husable := newHeader_usable hsize hbytes.symm haligned hinside
    (by rw [hbytes]; exact hoff) hheader
  have htableInside :
      tableBytes.toNat / sectorSize.toNat + 1 ≤ sectors.toNat := by
    rw [hbytes] at hinside
    rcases hsize.toNat_cases with h | h
    · rw [h] at hinside ⊢
      omega
    · rw [h] at hinside ⊢
      omega
  have hentryLBA := newHeader_entryLBA hsize htableInside hheader
  obtain ⟨hsignature, hunsigned, hentrySize, hmyLBA, halternate, hentries⟩ :=
    newHeader_fixed hheader
  have hnew := fixupGpt_ok hfixup
  have hsmall := hshape.small
  have hlow : count.toNat * 128 ≤
      roundUp (count.toNat * 128) sectorSize.toNat :=
    roundUp_ge hsize.toNat_cases
  refine ⟨tableBytes.toNat / sectorSize.toNat,
    { signature := ?_
      checksum := ?_
      entrySize := ?_
      myLBA := ?_
      alternateLBA := ?_
      entryLBA := ?_
      count := ?_
      small := ?_
      tableLow := ?_
      tableHigh := htableInside
      firstUsable := ?_
      lastUsable := ?_ }, ?_⟩
  · rw [hnew]
    exact hsignature
  · rw [hnew]
    simp only [← hunsigned]
  · rw [hnew]
    exact hentrySize.trans hshape.entrySize
  · rw [hnew]
    exact hmyLBA
  · rw [hnew]
    exact halternate
  · rw [hnew]
    exact hentryLBA
  · rw [hnew, hentries]
    exact hpositive
  · rw [hnew, hentries]
    omega
  · rw [hnew, hentries, Nat.div_mul_cancel (Nat.dvd_of_mod_eq_zero haligned),
      htable]
    exact hlow
  · rw [hnew]
    exact husable.1
  · rw [hnew]
    exact husable.2
  · have hcountBytes : (gptPartitionTableBytes header).toNat =
        count.toNat * 128 := by
      rw [gptPartitionTableBytes, hentries, hentrySize, hshape.entrySize,
        toNat_mul_of_lt]
      · rfl
      · simp only [UInt32.toNat_toUInt64, UInt32.reduceToNat]
        omega
    rw [fixupGpt_length hfixup, List.length_map, List.length_take,
      hshape.count, Nat.min_eq_left hle,
      Nat.div_mul_cancel (Nat.dvd_of_mod_eq_zero haligned)]
    change count.toNat * 128 +
      (tableBytes - gptPartitionTableBytes header).toNat = tableBytes.toNat
    rw [UInt64.toNat_sub_of_le _ _ (UInt64.le_iff_toNat_le.mpr (by omega)),
      hcountBytes]
    omega

/-- An accepted header has a usable sector behind which there is another. -/
theorem HeaderAccepted.lastUsable_lt {header : GPTHeader}
    {tableBytes : UInt64}
    (h : HeaderAccepted crc32 header target sectorSize sectors tableBytes) :
    header.lastUsableLBA.toNat < 2 ^ 64 - 1 := by
  obtain ⟨space, hspace, _⟩ := h.space
  have hlimit : ∀ {bound : UInt64}, header.lastUsableLBA < bound →
      header.lastUsableLBA.toNat < 2 ^ 64 - 1 := by
    intro bound hlt
    have hnat := UInt64.lt_iff_toNat_lt.mp hlt
    have hbound := bound.toNat_lt
    omega
  rcases partitionTableUsableSpace_eq_some_iff.mp hspace with
    ⟨_, _, hlt, _⟩ | ⟨_, _, hlt, _⟩
  · exact hlimit hlt
  · exact hlimit hlt

/-- The bounds that depend on the place hold for any placed header whose last
usable sector is a number. -/
theorem Placed.space {header : GPTHeader} {table : Nat}
    (h : Placed crc32 target sectorSize sectors table header)
    (htarget : target = 1 ∨ target = sectors - 1) (hsix : 6 ≤ sectors)
    (husable : header.firstUsableLBA ≤ header.lastUsableLBA)
    (hlast : header.lastUsableLBA.toNat < 2 ^ 64 - 1) :
    ∃ space, partitionTableUsableSpace header target sectors =
        .ok (some space) ∧ table ≤ space.toNat ∧
      space.toNat < sectors.toNat := by
  have hsix' : 6 ≤ sectors.toNat := UInt64.le_iff_toNat_le.mp hsix
  have hend : (sectors - 1).toNat = sectors.toNat - 1 :=
    UInt64.toNat_sub_of_le _ _ (UInt64.le_iff_toNat_le.mpr
      (Nat.le_trans (by decide) hsix'))
  have hbehind : header.lastUsableLBA.toNat + table + 2 ≤ sectors.toNat := by
    rcases h.lastUsable with heq | hle
    · omega
    · exact hle
  have hfirst := h.firstUsable
  have husable' := UInt64.le_iff_toNat_le.mp husable
  have hentry := h.entryLBA
  have halternate := h.alternateLBA
  by_cases hone : target = 1
  · rw [if_pos hone] at hentry halternate
    have hentry' : header.partitionEntryLBA = 2 := UInt64.toNat_inj.mp hentry
    have hspace : (header.firstUsableLBA - header.partitionEntryLBA).toNat =
        header.firstUsableLBA.toNat - 2 := by
      rw [UInt64.toNat_sub_of_le _ _ (UInt64.le_iff_toNat_le.mpr (by omega)),
        hentry]
    refine ⟨_, partitionTableUsableSpace_eq_some_iff.mpr
      (Or.inl ⟨hone, hentry', ?_, ?_, rfl⟩), ?_, ?_⟩
    · rw [halternate, UInt64.lt_iff_toNat_lt, hend]
      omega
    · rw [halternate, UInt64.lt_iff_toNat_lt, hend]
      omega
    · rw [hspace]
      omega
    · rw [hspace]
      omega
  · rw [if_neg hone] at hentry halternate
    have hmyLBA : header.myLBA.toNat = sectors.toNat - 1 := by
      rw [h.myLBA, htarget.resolve_left hone, hend]
    have hspace : (header.myLBA - header.partitionEntryLBA).toNat =
        table := by
      rw [UInt64.toNat_sub_of_le _ _ (UInt64.le_iff_toNat_le.mpr (by omega)),
        hentry, hmyLBA]
      omega
    have hpositive : 1 ≤ table := by
      have hlow := h.tableLow
      have hcount := h.count
      rcases Nat.eq_zero_or_pos table with hzero | hpos
      · rw [hzero] at hlow
        omega
      · exact hpos
    refine ⟨_, partitionTableUsableSpace_eq_some_iff.mpr
      (Or.inr ⟨hone, halternate, ?_, ?_, rfl⟩), ?_, ?_⟩
    · rw [UInt64.lt_iff_toNat_lt, hentry]
      omega
    · rw [UInt64.lt_iff_toNat_lt, hentry, hmyLBA]
      omega
    · rw [hspace]
    · rw [hspace]
      omega

theorem offsets_inside (hsix : 6 ≤ sectors)
    (h : target = 1 ∨ target = sectors - 1) :
    target < sectors := by
  have hsix' : 6 ≤ sectors.toNat := UInt64.le_iff_toNat_le.mp hsix
  rcases h with rfl | rfl
  · exact UInt64.lt_iff_toNat_lt.mpr (Nat.lt_of_lt_of_le (by decide) hsix')
  · rw [UInt64.lt_iff_toNat_lt, UInt64.toNat_sub_of_le _ _
      (UInt64.le_iff_toNat_le.mpr (Nat.le_trans (by decide) hsix')),
      UInt64.toNat_one]
    omega

/-- A placed header is accepted if the same header for another place is. -/
theorem Placed.accepted {header header' : GPTHeader} {tableBytes : UInt64}
    {table : Nat}
    (hplaced : Placed crc32 other sectorSize sectors table header')
    (hsame : SameTable header header') (hsize : BlockSize sectorSize)
    (hoff : sectors.toNat * sectorSize.toNat < 2 ^ 63)
    (hother : other = 1 ∨ other = sectors - 1)
    (h : HeaderAccepted crc32 header target sectorSize sectors tableBytes) :
    HeaderAccepted crc32 header' other sectorSize sectors
      (gptPartitionTableBytes header') := by
  obtain ⟨space, hspace, hlow, hhigh⟩ := hplaced.space hother h.sixSectors
    (hsame.firstUsable ▸ hsame.lastUsable ▸ h.usable)
    (hsame.lastUsable ▸ h.lastUsable_lt)
  have hsmall := hplaced.small
  have hbytes : (gptPartitionTableBytes header').toNat =
      header'.numberOfPartitionEntries.toNat * 128 := by
    rw [gptPartitionTableBytes, hplaced.entrySize, toNat_mul_of_lt]
    · rfl
    · simp only [UInt32.toNat_toUInt64, UInt32.reduceToNat]
      omega
  have hmul := Nat.mul_le_mul_right sectorSize.toNat (Nat.le_of_lt hhigh)
  have hspaceBytes : (space * sectorSize.toUInt64).toNat =
      space.toNat * sectorSize.toNat := by
    rw [toNat_mul_of_lt, UInt32.toNat_toUInt64]
    rw [UInt32.toNat_toUInt64]
    omega
  have htable := Nat.mul_le_mul_right sectorSize.toNat hlow
  have htableLow := hplaced.tableLow
  refine
    { sixSectors := h.sixSectors
      inside := offsets_inside h.sixSectors hother
      signature := hplaced.signature
      revision := hsame.revision ▸ h.revision
      checksum := hplaced.checksum
      headerSizeLow := hsame.headerSize ▸ h.headerSizeLow
      headerSizeHigh := hsame.headerSize ▸ h.headerSizeHigh
      entrySize := hplaced.entrySize
      entryFits := ?_
      firstUsable := hsame.firstUsable ▸ h.firstUsable
      usable := hsame.firstUsable ▸ hsame.lastUsable ▸ h.usable
      space := ⟨space, hspace, ?_⟩
      count := UInt32.le_iff_toNat_le.mpr hplaced.count
      bytes := rfl
      small := ?_ }
  · rw [hplaced.entrySize]
    rcases hsize with rfl | rfl
    · decide
    · decide
  · rw [UInt64.le_iff_toNat_le, hbytes, hspaceBytes]
    omega
  · rw [UInt64.le_iff_toNat_le, hbytes]
    exact hsmall

/-- The call for one place goes through if the call for another does. -/
theorem Installable.retarget (hshape : TableShape gpt)
    (hsize : BlockSize sectorSize)
    (hoff : sectors.toNat * sectorSize.toNat < 2 ^ 63)
    (hother : other = 1 ∨ other = sectors - 1)
    (h : Installable crc32 target sectorSize sectors gpt) :
    Installable crc32 other sectorSize sectors gpt := by
  obtain ⟨new, buffer, tableBytes, hadjust, hcheck, hne⟩ := h
  obtain ⟨new', buffer', hadjust', hsame⟩ :=
    gptAdjustSectors_retarget hadjust hother
  obtain ⟨table, hplaced, _⟩ :=
    gptAdjustSectors_placed hshape hsize hoff hadjust'
  have haccepted := hplaced.accepted hsame hsize hoff hother
    ((checkGptHeader_eq_ok_iff hne).mp hcheck)
  exact ⟨new', buffer', _, hadjust', (checkGptHeader_eq_ok_iff
    haccepted.tableBytes_ne_zero).mpr haccepted,
    haccepted.tableBytes_ne_zero⟩

end

/-! The writes. -/

/-- The program comes to its end. -/
def Completes {α : Type} (program : Writer α) : Prop :=
  ∀ log, ∃ a log', program.run log = .ok a log'

/-- Where the program stops, it has written nothing. -/
def Untouched {α : Type} (program : Writer α) : Prop :=
  ∀ log stop log', program.run log = .error stop log' → log' = log

theorem Completes.bind {α β : Type} {program : Writer α}
    {next : α → Writer β} (hprogram : Completes program)
    (hnext : ∀ a, Completes (next a)) : Completes (program >>= next) := by
  intro log
  obtain ⟨a, middle, hrun⟩ := hprogram log
  rw [EStateM.run_bind, hrun]
  exact hnext a middle

theorem Completes.liftStop_bind {α β : Type} {x : Except Stop α} {a : α}
    {next : α → Writer β} (hx : x = .ok a) (hnext : Completes (next a)) :
    Completes (liftStop x >>= next) := by
  rw [hx]
  exact hnext

theorem Completes.assertC_bind {α : Type} {condition : Prop}
    [Decidable condition] {next : Unit → Writer α} (hcondition : condition)
    (hnext : Completes (next ())) :
    Completes (liftStop (assertC condition) >>= next) :=
  Completes.liftStop_bind (assertC_eq_ok.mpr hcondition) hnext

theorem completes_syncPwrite {data : List UInt8} {offset : UInt64}
    (hdata : data.length < 2 ^ 63) (hoffset : offset.toNat < 2 ^ 63) :
    Completes (syncPwrite data offset) :=
  Completes.assertC_bind hdata
    (Completes.assertC_bind hoffset fun _ => ⟨(), _, rfl⟩)

theorem Completes.untouched {α : Type} {program : Writer α}
    (h : Completes program) : Untouched program := by
  intro log stop log' hrun
  obtain ⟨a, middle, hok⟩ := h log
  rw [hrun] at hok
  cases hok

/-- The program stops and has written nothing. -/
def Refuses {α : Type} (program : Writer α) : Prop :=
  ∀ log, ∃ stop, program.run log = .error stop log

theorem Refuses.bind {α β : Type} {program : Writer α}
    (h : Refuses program) (next : α → Writer β) :
    Refuses (program >>= next) := by
  intro log
  obtain ⟨stop, hrun⟩ := h log
  refine ⟨stop, ?_⟩
  rw [EStateM.run_bind, hrun]

theorem Refuses.liftStop_bind {α β : Type} {x : Except Stop α}
    {next : α → Writer β} (hnext : ∀ a, x = .ok a → Refuses (next a)) :
    Refuses (liftStop x >>= next) := by
  cases x with
  | error stop => exact fun log => ⟨stop, rfl⟩
  | ok a => exact hnext a rfl

theorem Refuses.untouched {α : Type} {program : Writer α}
    (h : Refuses program) : Untouched program := by
  intro log stop log' hrun
  obtain ⟨stop', hrun'⟩ := h log
  rw [hrun] at hrun'
  exact (EStateM.Result.error.inj hrun').2

section

variable {crc32 : List UInt8 → UInt32} {geo : Geometry} {gpt : GPT}
  {mbr : Mbr} {target : UInt64}

theorem completes_clearOld (hsize : 4096 ≤ geo.size.toNat)
    (hold : gpt.sectorSize = geo.oldSectorSize)
    (htarget : target = 1 ∨ target = geo.sectors - 1) :
    Completes (clearOld target geo.sectors geo.sectorSize gpt mbr) := by
  have hoff := geo.offT
  have hmbr : (mbrBuffer mbr geo.sectorSize).length < 2 ^ 63 := by
    rw [length_mbrBuffer]
    rcases geo.size_cases with h | h
    · rw [h]
      decide
    · rw [h]
      decide
  have hzeros : ∀ {count : Nat}, count ≤ 4096 →
      (zeros count).length < 2 ^ 63 := by
    intro count hcount
    rw [length_zeros]
    omega
  rw [clearOld]
  by_cases hbackup : target = geo.sectors - 1
  · rw [if_pos hbackup]
    refine completes_syncPwrite (hzeros (Nat.le_refl _)) ?_
    have hsub : (geo.size - 4096).toNat = geo.size.toNat - 4096 :=
      UInt64.toNat_sub_of_le _ _ (UInt64.le_iff_toNat_le.mpr hsize)
    rw [geo.size_eq, hsub]
    omega
  · have hprimary := htarget.resolve_right hbackup
    rw [if_neg hbackup, if_pos hprimary]
    rcases geo.sizes with ⟨hnew, hold'⟩ | ⟨hnew, hold'⟩
    · rw [hnew] at hmbr ⊢
      rw [if_neg (by decide)]
      refine Completes.assertC_bind rfl (Completes.assertC_bind ?_ ?_)
      · rw [hold, hold']
        rfl
      · exact (completes_syncPwrite hmbr (by decide)).bind fun _ =>
          (completes_syncPwrite (hzeros (by decide)) (by decide)).bind
            fun _ => completes_syncPwrite (hzeros (Nat.le_refl _)) (by decide)
    · rw [hnew] at hmbr ⊢
      rw [if_pos (by decide)]
      exact Completes.assertC_bind (hold.trans hold')
        (completes_syncPwrite hmbr (by decide))

theorem toNat_mul_sectorSize {lba : UInt64}
    (h : lba.toNat ≤ geo.sectors.toNat) :
    (lba * geo.sectorSize.toUInt64).toNat < 2 ^ 63 := by
  have hmul := Nat.mul_le_mul_right geo.sectorSize.toNat h
  have hoff := geo.offT
  rw [geo.sectors_mul] at hmul
  rw [toNat_mul_of_lt, UInt32.toNat_toUInt64]
  · omega
  · rw [UInt32.toNat_toUInt64]
    omega

/-- A call whose table is accepted comes to its end. -/
theorem Installable.completes (hshape : TableShape gpt)
    (hsize : 4096 ≤ geo.size.toNat)
    (hold : gpt.sectorSize = geo.oldSectorSize)
    (htarget : target = 1 ∨ target = geo.sectors - 1)
    (h : Installable crc32 target geo.sectorSize geo.sectors gpt) :
    Completes (createNewGpt crc32 target geo.sectors geo.sectorSize gpt
      mbr) := by
  obtain ⟨new, buffer, tableBytes, hadjust, hcheck, hne⟩ := h
  have hsectors := geo.sectors_mul
  have hoff := geo.offT
  obtain ⟨table, hplaced, hlength⟩ := gptAdjustSectors_placed hshape
    geo.blockSize (by rw [hsectors]; exact hoff) hadjust
  have haccepted := (checkGptHeader_eq_ok_iff hne).mp hcheck
  have hsix : 6 ≤ geo.sectors.toNat :=
    UInt64.le_iff_toNat_le.mp haccepted.sixSectors
  have hentry : new.header.partitionEntryLBA.toNat ≤
      geo.sectors.toNat := by
    rw [hplaced.entryLBA]
    split
    · omega
    · omega
  have hmyLBA : new.header.myLBA.toNat ≤ geo.sectors.toNat := by
    rw [hplaced.myLBA]
    exact Nat.le_of_lt (UInt64.lt_iff_toNat_lt.mp haccepted.inside)
  have hbuffer : buffer.length ≠ 0 ∧ buffer.length < 2 ^ 63 := by
    have hlow := hplaced.tableLow
    have hcount := hplaced.count
    have hmul := Nat.mul_le_mul_right geo.sectorSize.toNat
      (Nat.le_of_succ_le hplaced.tableHigh)
    omega
  have hheader : (headerBuffer new.header geo.sectorSize).length <
      2 ^ 63 := by
    rw [length_headerBuffer]
    rcases geo.size_cases with h | h
    · rw [h]
      decide
    · rw [h]
      decide
  rw [createNewGpt]
  refine Completes.liftStop_bind hadjust
    (Completes.liftStop_bind hcheck (Completes.assertC_bind hne
      (Completes.assertC_bind hbuffer.1 ?_)))
  exact (completes_clearOld hsize hold htarget).bind fun _ =>
    (completes_syncPwrite hbuffer.2 (toNat_mul_sectorSize hentry)).bind
      fun _ => completes_syncPwrite hheader (toNat_mul_sectorSize hmyLBA)

/-- A call whose table is refused stops before it writes. -/
theorem createNewGpt_refuses
    (h : ¬ Installable crc32 target geo.sectorSize geo.sectors gpt) :
    Refuses (createNewGpt crc32 target geo.sectors geo.sectorSize gpt
      mbr) := by
  rw [createNewGpt]
  refine Refuses.liftStop_bind fun result hadjust => ?_
  obtain ⟨new, buffer⟩ := result
  refine Refuses.liftStop_bind fun checked hcheck =>
    Refuses.liftStop_bind fun _ hne => ?_
  exact absurd ⟨new, buffer, checked, hadjust, hcheck,
    assertC_eq_ok.mp hne⟩ h

/-- A call of `create_new_gpt` that has come to its end, and what it wrote. -/
structure CallCompleted (crc32 : List UInt8 → UInt32) (geo : Geometry)
    (gpt : GPT) (mbr : Mbr) (target : UInt64) (part : List Write) : Prop where
  run : (createNewGpt crc32 target geo.sectors geo.sectorSize gpt mbr).run [] =
    .ok () part
  table : ∃ new buffer,
    gptAdjustSectors crc32 target geo.sectorSize geo.sectors gpt =
      .ok (new, buffer) ∧
    HeaderAccepted crc32 new.header target geo.sectorSize geo.sectors
      (gptPartitionTableBytes new.header) ∧
    part = clearPlan geo target mbr ++ tablePlan geo new buffer

theorem Installable.completed (hshape : TableShape gpt)
    (hsize : 4096 ≤ geo.size.toNat)
    (hold : gpt.sectorSize = geo.oldSectorSize)
    (htarget : target = 1 ∨ target = geo.sectors - 1)
    (h : Installable crc32 target geo.sectorSize geo.sectors gpt) :
    CallCompleted crc32 geo gpt mbr target
      (createPlan crc32 geo gpt mbr target) := by
  obtain ⟨_, log, hrun⟩ := @Installable.completes _ _ _ mbr _ hshape hsize
    hold htarget h []
  obtain ⟨new, buffer, hadjust, haccepted, hlog⟩ :=
    createNewGpt_ok hsize hrun
  rw [List.nil_append] at hlog
  refine ⟨hlog ▸ hrun, new, buffer, hadjust, haccepted, ?_⟩
  rw [createPlan, hadjust]

/-- Both calls have come to their end: the one for the copy that was not read,
and then the other one. -/
def BothCompleted (crc32 : List UInt8 → UInt32) (geo : Geometry)
    (usedPrimary : Bool) (gpt : GPT) (mbr : Mbr) (log : List Write) : Prop :=
  ∃ first second,
    CallCompleted crc32 geo gpt mbr
      (if usedPrimary then geo.sectors - 1 else 1) first ∧
    CallCompleted crc32 geo gpt mbr
      (if usedPrimary then 1 else geo.sectors - 1) second ∧
    log = first ++ second

theorem replaceGpts_completed (hshape : TableShape gpt)
    (hsize : 4096 ≤ geo.size.toNat)
    (hold : gpt.sectorSize = geo.oldSectorSize) {usedPrimary : Bool}
    {log : List Write}
    (hrun : (replaceGpts crc32 usedPrimary geo.sectors geo.sectorSize gpt
      mbr).run [] = .ok () log) :
    BothCompleted crc32 geo usedPrimary gpt mbr log := by
  have hlog := (appends_replaceGpts hsize usedPrimary).run_ok hrun
  have htargets : ((if usedPrimary then geo.sectors - 1 else 1) = 1 ∨
        (if usedPrimary then geo.sectors - 1 else 1) = geo.sectors - 1) ∧
      ((if usedPrimary then 1 else geo.sectors - 1) = 1 ∨
        (if usedPrimary then 1 else geo.sectors - 1) = geo.sectors - 1) := by
    cases usedPrimary with
    | true => exact ⟨Or.inr rfl, Or.inl rfl⟩
    | false => exact ⟨Or.inl rfl, Or.inr rfl⟩
  obtain ⟨_, _, hfirst, _⟩ := bind_run_ok hrun
  by_cases h : Installable crc32 (if usedPrimary then geo.sectors - 1 else 1)
      geo.sectorSize geo.sectors gpt
  · have h' := h.retarget hshape geo.blockSize
      (by rw [geo.sectors_mul]; exact geo.offT) htargets.2
    exact ⟨_, _, h.completed hshape hsize hold htargets.1,
      h'.completed hshape hsize hold htargets.2, hlog⟩
  · obtain ⟨stop, hstop⟩ := @createNewGpt_refuses _ _ _ mbr _ h []
    rw [hfirst] at hstop
    cases hstop

/-- Both calls come to their end, or the first one stops. -/
theorem replaceGpts_untouched (hshape : TableShape gpt)
    (hsize : 4096 ≤ geo.size.toNat)
    (hold : gpt.sectorSize = geo.oldSectorSize) (usedPrimary : Bool) :
    Untouched (replaceGpts crc32 usedPrimary geo.sectors geo.sectorSize gpt
      mbr) := by
  have hboth : ∀ first second : UInt64,
      (first = 1 ∨ first = geo.sectors - 1) →
      (second = 1 ∨ second = geo.sectors - 1) →
      Untouched (createNewGpt crc32 first geo.sectors geo.sectorSize gpt mbr
        >>= fun _ => createNewGpt crc32 second geo.sectors geo.sectorSize gpt
          mbr) := by
    intro first second hfirst hsecond
    by_cases h : Installable crc32 first geo.sectorSize geo.sectors gpt
    · have h' := h.retarget hshape geo.blockSize
        (by rw [geo.sectors_mul]; exact geo.offT) hsecond
      exact ((h.completes hshape hsize hold hfirst).bind fun _ =>
        h'.completes hshape hsize hold hsecond).untouched
    · exact ((createNewGpt_refuses h).bind _).untouched
  cases usedPrimary with
  | true => exact hboth _ _ (Or.inr rfl) (Or.inl rfl)
  | false => exact hboth _ _ (Or.inl rfl) (Or.inr rfl)

end

/-- A table found by one of two reads has been checked. -/
theorem readEitherBy_shape {crc32 : List UInt8 → UInt32}
    {reads : ReadCall → Pread} {own usedPrimary : Bool}
    {sectorSize : UInt32} {sectors : UInt64} {gpt : GPT}
    (h : readEitherBy crc32 reads own sectorSize sectors =
      .ok (some (usedPrimary, gpt))) :
    TableShape gpt ∧ gpt.sectorSize = sectorSize ∧ 6 ≤ sectors := by
  rw [readEitherBy, bind_eq_ok] at h
  obtain ⟨primary, hprimary, h⟩ := h
  cases primary with
  | some gpt' =>
      simp only [pure, Except.pure, Except.ok.injEq, Option.some.injEq,
        Prod.mk.injEq] at h
      obtain ⟨_, rfl⟩ := h
      exact readAndCheckGptBy_shape hprimary
  | none =>
      simp only [bind_eq_ok] at h
      obtain ⟨backup, hbackup, h⟩ := h
      cases backup with
      | none =>
          simp only [pure, Except.pure, Except.ok.injEq] at h
          cases h
      | some gpt' =>
          simp only [pure, Except.pure, Except.ok.injEq, Option.some.injEq,
            Prod.mk.injEq] at h
          obtain ⟨_, rfl⟩ := h
          exact readAndCheckGptBy_shape hbackup

end QubesUtils
