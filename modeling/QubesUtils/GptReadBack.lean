/-
The reader accepts what the writer leaves on the device: the header of a new
table meets every check, and the entries are read back.
-/
import QubesUtils.GptWrites
import QubesUtils.Hoare

namespace QubesUtils

open ByteCodec

section

variable {crc32 : List UInt8 → UInt32} {geo : Geometry} {gpt new : GPT}
  {mbr : Mbr} {sectorOffset target : UInt64} {buffer : List UInt8}

/-- The bytes of the entries of a new table. -/
theorem NewTable.tableBytes_toNat {a : Adjustment geo gpt}
    (hnew : NewTable crc32 a target new buffer) :
    (gptPartitionTableBytes new.header).toNat = a.count.toNat * 128 := by
  have hcount := a.count.toNat_lt
  rw [gptPartitionTableBytes, hnew.header.count, hnew.header.entrySize,
    toNat_mul_of_lt]
  · rfl
  · simp only [UInt32.toNat_toUInt64, UInt32.reduceToNat]
    omega

/-- The usable range of a new header is not empty, and leaves room for the
tables on both sides: all in sectors. -/
structure HeaderBounds (geo : Geometry) (target : UInt64)
    (tableBytes : Nat) (header : GPTHeader) : Prop where
  firstUsable : 3 ≤ header.firstUsableLBA.toNat
  usable : header.firstUsableLBA.toNat ≤ header.lastUsableLBA.toNat
  last : header.lastUsableLBA.toNat + 3 ≤ geo.sectors.toNat
  primaryTable : tableBytes ≤
    (header.firstUsableLBA.toNat - 2) * geo.sectorSize.toNat
  entryLBA : target = 1 → header.partitionEntryLBA.toNat = 2
  backupTable : target ≠ 1 →
    header.lastUsableLBA.toNat < header.partitionEntryLBA.toNat ∧
    header.partitionEntryLBA.toNat + 2 ≤ geo.sectors.toNat ∧
    tableBytes ≤ (geo.sectors.toNat - 1 -
      header.partitionEntryLBA.toNat) * geo.sectorSize.toNat

theorem NewTable.count_pos (h : SourceLayout geo sectorOffset gpt)
    (a : Adjustment geo gpt) : 1 ≤ a.count.toNat := by
  have hkeeps := UInt32.le_iff_toNat_le.mp (a.layout h).keeps
  obtain ⟨before, _, _, _, _, _, hcount⟩ := h.used
  omega

theorem Adjustment.tableBytes_ge (h : SourceLayout geo sectorOffset gpt)
    (a : Adjustment geo gpt) :
    a.count.toNat * 128 ≤ a.tableBytes.toNat ∧
      geo.sectorSize.toNat ≤ a.tableBytes.toNat := by
  have hone := NewTable.count_pos h a
  rw [(a.layout h).table, roundUp]
  rcases geo.size_cases with h | h
  · rw [h]
    omega
  · rw [h]
    omega

/-- Bounds in bytes are bounds in sectors. -/
theorem sectors_of_bytes {sectorSize sectors size table first last start
    behind : Nat} (hsize : sectorSize = 512 ∨ sectorSize = 4096)
    (hmul : sectors * sectorSize = size) (htable : sectorSize ≤ table)
    (hfirst : table + 2 * sectorSize ≤ first * sectorSize)
    (hstart : first * sectorSize ≤ start) (hlt : start < behind)
    (hbehind : behind ≤ (last + 1) * sectorSize)
    (hlast : (last + 1) * sectorSize + table + sectorSize ≤ size) :
    3 ≤ first ∧ first ≤ last ∧ last + 3 ≤ sectors ∧
      table ≤ (first - 2) * sectorSize := by
  rcases hsize with rfl | rfl
  · omega
  · omega

theorem table_sectors {sectorSize sectors size table last entry : Nat}
    (hsize : sectorSize = 512 ∨ sectorSize = 4096)
    (hmul : sectors * sectorSize = size) (htable : sectorSize ≤ table)
    (hlast : (last + 1) * sectorSize + table + sectorSize ≤ size)
    (hentry : entry * sectorSize = size - sectorSize - table) :
    last < entry ∧ entry + 2 ≤ sectors ∧
      table ≤ (sectors - 1 - entry) * sectorSize := by
  rcases hsize with rfl | rfl
  · omega
  · omega

theorem NewTable.bounds (h : SourceLayout geo sectorOffset gpt)
    {a : Adjustment geo gpt} (hnew : NewTable crc32 a target new buffer) :
    HeaderBounds geo target a.tableBytes.toNat new.header := by
  have hheader := hnew.header
  have hlba := hheader.partitionEntryLBA
  obtain ⟨_, hsector⟩ := a.tableBytes_ge h
  obtain ⟨some', hsome, hsomeUsed⟩ := h.exists_used
  obtain ⟨hfirst, husable, hlast, htable⟩ := sectors_of_bytes geo.size_cases
    geo.sectors_mul hsector hheader.firstUsableLow
    (hheader.firstUsableHigh some' hsome hsomeUsed)
    (h.ranged some' hsome hsomeUsed).2.1
    (hheader.lastUsableLow some' hsome hsomeUsed) hheader.lastUsableHigh
  refine ⟨hfirst, husable, hlast, htable, fun hone => ?_, fun hne => ?_⟩
  · rw [if_pos hone] at hlba
    refine Nat.eq_of_mul_eq_mul_right ?_ hlba
    rcases geo.size_cases with h | h
    · omega
    · omega
  · rw [if_neg hne] at hlba
    exact table_sectors geo.size_cases geo.sectors_mul hsector
      hheader.lastUsableHigh hlba

/-- A header that is no larger than a sector meets every check. -/
theorem NewTable.headerAccepted (h : SourceLayout geo sectorOffset gpt)
    {a : Adjustment geo gpt} (hnew : NewTable crc32 a target new buffer)
    (hheaderSize : gpt.header.headerSize ≤ geo.sectorSize) :
    HeaderAccepted crc32 new.header target geo.sectorSize geo.sectors
      (gptPartitionTableBytes new.header) := by
  have hheader := hnew.header
  have hbounds := hnew.bounds h
  have hcounted := newEntriesCount_ok h (checkRoom_ok h a.room) a.counted
  have hsmall := h.small
  have hsix : 6 ≤ geo.sectors.toNat :=
    UInt64.le_iff_toNat_le.mp hnew.sixSectors
  have hmul := geo.sectors_mul
  have hoff := geo.offT
  have hsectorsSub := geo.toNat_sectors_sub_one h.nonempty
  have hbytes := hnew.tableBytes_toNat
  have hone := NewTable.count_pos h a
  obtain ⟨htable, _⟩ := a.tableBytes_ge h
  refine
    { sixSectors := hnew.sixSectors
      inside := ?_
      signature := hheader.signature
      revision := hheader.revision.trans h.revision
      checksum := hnew.headerChecksum
      headerSizeLow := hheader.headerSize.symm ▸ h.headerSize
      headerSizeHigh := hheader.headerSize.symm ▸ hheaderSize
      entrySize := hheader.entrySize
      entryFits := ?_
      firstUsable := UInt64.le_iff_toNat_le.mpr hbounds.firstUsable
      usable := UInt64.le_iff_toNat_le.mpr hbounds.usable
      space := ?_
      count := ?_
      bytes := rfl
      small := ?_ }
  · rw [UInt64.lt_iff_toNat_lt]
    rcases hnew.location with rfl | rfl
    · rw [UInt64.toNat_one]
      omega
    · rw [hsectorsSub]
      omega
  · rw [hheader.entrySize, UInt32.le_iff_toNat_le]
    rcases geo.size_cases with h | h
    · rw [h]
      decide
    · rw [h]
      decide
  · have hprimary := hbounds.entryLBA
    have hbackup := hbounds.backupTable
    have hlast := hbounds.last
    have hfirst := hbounds.firstUsable
    by_cases htarget : target = 1
    · refine ⟨new.header.firstUsableLBA - new.header.partitionEntryLBA,
        partitionTableUsableSpace_eq_some_iff.mpr (Or.inl ⟨htarget,
          UInt64.toNat_inj.mp (hprimary htarget), ?_, ?_, rfl⟩), ?_⟩
      · rw [hheader.alternateLBA, if_pos htarget, UInt64.lt_iff_toNat_lt,
          hsectorsSub]
        omega
      · rw [hheader.alternateLBA, if_pos htarget, UInt64.lt_iff_toNat_lt,
          hsectorsSub]
        omega
      · have hsub : (new.header.firstUsableLBA -
            new.header.partitionEntryLBA).toNat =
            new.header.firstUsableLBA.toNat - 2 := by
          rw [UInt64.toNat_sub_of_le _ _ (UInt64.le_iff_toNat_le.mpr (by
            rw [hprimary htarget]
            omega)), hprimary htarget]
        have hroom := hbounds.primaryTable
        have hbelow : (new.header.firstUsableLBA.toNat - 2) *
            geo.sectorSize.toNat ≤ geo.size.toNat := by
          rw [← hmul]
          have husable := hbounds.usable
          exact Nat.mul_le_mul_right _ (by omega)
        rw [UInt64.le_iff_toNat_le, hbytes, toNat_mul_of_lt, hsub,
          UInt32.toNat_toUInt64]
        · omega
        · rw [hsub, UInt32.toNat_toUInt64]
          omega
    · obtain ⟨hentry, hentryBelow, hroom⟩ := hbackup htarget
      have hmy : new.header.myLBA.toNat = geo.sectors.toNat - 1 := by
        rcases hnew.location with h | h
        · exact absurd h htarget
        · rw [hheader.myLBA, h, hsectorsSub]
      refine ⟨new.header.myLBA - new.header.partitionEntryLBA,
        partitionTableUsableSpace_eq_some_iff.mpr (Or.inr ⟨htarget, ?_,
          UInt64.lt_iff_toNat_lt.mpr hentry, ?_, rfl⟩), ?_⟩
      · rw [hheader.alternateLBA, if_neg htarget]
      · rw [UInt64.lt_iff_toNat_lt, hmy]
        omega
      · have hsub : (new.header.myLBA - new.header.partitionEntryLBA).toNat =
            geo.sectors.toNat - 1 -
              new.header.partitionEntryLBA.toNat := by
          rw [UInt64.toNat_sub_of_le _ _ (UInt64.le_iff_toNat_le.mpr (by
            rw [hmy]
            omega)), hmy]
        have hbelow : (geo.sectors.toNat - 1 -
            new.header.partitionEntryLBA.toNat) * geo.sectorSize.toNat ≤
            geo.size.toNat := by
          rw [← hmul]
          exact Nat.mul_le_mul_right _ (by omega)
        rw [UInt64.le_iff_toNat_le, hbytes, toNat_mul_of_lt, hsub,
          UInt32.toNat_toUInt64]
        · omega
        · rw [hsub, UInt32.toNat_toUInt64]
          omega
  · rw [hheader.count, UInt32.le_iff_toNat_le]
    exact hone
  · rw [UInt64.le_iff_toNat_le, hbytes]
    have hle := hcounted.2.1
    refine Nat.le_trans (Nat.mul_le_mul_right _ hle) hsmall

theorem Adjustment.mem_entries (h : SourceLayout geo sectorOffset gpt)
    (a : Adjustment geo gpt) {entry : GPTPartitionEntry}
    (hentry : entry ∈ gpt.entries) (hused : Used entry) :
    adjustEntry gpt.sectorSize geo.sectorSize entry ∈ a.entries := by
  obtain ⟨i, hi⟩ := List.mem_iff_getElem?.mp hentry
  have hslot := slot_lt_count h a hi hused
  refine List.mem_map_of_mem (List.mem_iff_getElem?.mpr ⟨i, ?_⟩)
  rw [List.getElem?_take, if_pos hslot, hi]

/-- The used entries of a new table are accepted. -/
theorem NewTable.checkUsed (h : SourceLayout geo sectorOffset gpt)
    {a : Adjustment geo gpt} (hnew : NewTable crc32 a target new buffer) :
    ∃ usedEntries, checkUsedEntries new.header a.entries 0 0 =
      some usedEntries ∧ usedEntries ≠ 0 := by
  have hrange : ∀ entry ∈ a.entries, Used entry →
      InRange new.header entry := by
    intro entry' hentry' hused'
    obtain ⟨entry, hentry, rfl⟩ := List.mem_map.mp hentry'
    exact hnew.inRange h (List.mem_of_mem_take hentry)
      ((adjustEntry_identity _ _ entry).2.2.2.2.mp hused')
  obtain ⟨usedEntries, hresult⟩ := checkUsedEntries_total hrange 0 0
  refine ⟨usedEntries, hresult, ?_⟩
  obtain ⟨some', hsome, hsomeUsed⟩ := h.exists_used
  rcases (checkUsedEntries_some (i := 0) hresult).2 with ⟨_, hnone⟩ |
    ⟨before, last, after, heq, _, _, hvalue⟩
  · exact absurd ((adjustEntry_identity _ _ some').2.2.2.2.mpr hsomeUsed)
      (hnone _ (a.mem_entries h hsome hsomeUsed))
  · have hlength := hnew.length
    have hlt := a.count.toNat_lt
    rw [heq, List.length_append, List.length_cons] at hlength
    rintro rfl
    have hnat := congrArg UInt32.toNat hvalue
    rw [Nat.zero_add, UInt32.toNat_ofNat_of_lt' (by
      change before.length + 1 < 2 ^ 32
      omega), UInt32.toNat_zero] at hnat
    omega

/-- A new table that is on the device is accepted, with its entries. -/
theorem NewTable.readBack (h : SourceLayout geo sectorOffset gpt)
    {a : Adjustment geo gpt} (hnew : NewTable crc32 a target new buffer)
    (haccepted : HeaderAccepted crc32 new.header target geo.sectorSize
      geo.sectors (gptPartitionTableBytes new.header))
    {disk : Disk} (hdisk : disk.size = geo.size)
    (htable : Store.read disk.byte
      (new.header.partitionEntryLBA * geo.sectorSize.toUInt64).toNat
      buffer.length = buffer)
    (hheader : Store.read disk.byte
      (new.header.myLBA * geo.sectorSize.toUInt64).toNat
      geo.sectorSize.toNat = headerBuffer new.header geo.sectorSize) :
    ∃ gpt', readAndCheckGpt crc32 disk target geo.sectorSize geo.sectors =
        .ok (some gpt') ∧
      gpt'.header = new.header ∧ gpt'.entries = a.entries ∧
      gpt'.sectorSize = geo.sectorSize := by
  obtain ⟨usedEntries, hused, hne⟩ := hnew.checkUsed h
  have hsix : 6 ≤ geo.sectors.toNat :=
    UInt64.le_iff_toNat_le.mp hnew.sixSectors
  have hoff := geo.offT
  have hsizes := geo.size_cases
  have hnonempty := h.nonempty
  have hheaderOffset := hnew.headerOffset hnonempty
  have htableOffset := hnew.tableOffset
  have hroom := hnew.header.lastUsableHigh
  have hfirst := hnew.header.firstUsableHigh
  obtain ⟨some', hsome, hsomeUsed⟩ := h.exists_used
  have hfront := (a.layout h).primaryRoom some' hsome hsomeUsed
  have hback := (a.layout h).backupRoom some' hsome hsomeUsed
  have hlt := (h.ranged some' hsome hsomeUsed).2.1
  have hbytes := hnew.tableBytes_toNat
  have hround : roundUp (gptPartitionTableBytes new.header).toNat
      geo.sectorSize.toNat = buffer.length := by
    rw [hbytes, ← (a.layout h).table, hnew.buffer, a.length_buffer h]
  have hlength : buffer.length = a.tableBytes.toNat := by
    rw [hnew.buffer, a.length_buffer h]
  have hput : (gptPartitionEntryCodec.putAll a.entries).length =
      a.count.toNat * 128 := by
    rw [Codec.length_putAll, hnew.length]
    rfl
  have hmul := UInt64.mul_comm geo.sectorSize.toUInt64
    new.header.partitionEntryLBA
  have hmy := hnew.header.myLBA
  refine ⟨⟨new.header, usedEntries, a.entries, geo.sectorSize⟩,
    (readAndCheckGpt_eq_some_iff geo.blockSize).mpr ?_, rfl, rfl, rfl⟩
  rw [hmy] at hheaderOffset hheader
  refine
    { inside := haccepted.inside
      offset := ?_
      headerOffset := ?_
      headerInside := ?_
      header := ?_
      accepted := haccepted
      table := ⟨?_, ?_, ?_, ?_, hused, hne, rfl⟩ }
  · rcases hnew.location with hone | hlast
    · exact Or.inl hone
    · refine Or.inr (UInt64.le_iff_toNat_le.mpr ?_)
      rw [hlast, geo.toNat_sectors_sub_one hnonempty]
      change 5 ≤ geo.sectors.toNat - 1
      omega
  · rw [hheaderOffset]
    split
    · omega
    · omega
  · rw [hdisk, hheaderOffset]
    split
    · omega
    · omega
  · rw [hheader, headerBuffer, Codec.get_take_append]
  · rw [hround, hmul, htableOffset, hlength]
    split
    · omega
    · omega
  · rw [hround, hdisk, hmul, htableOffset, hlength]
    split
    · omega
    · omega
  · rw [hround, hmul, htable, hnew.buffer, Adjustment.buffer, hbytes,
      List.take_left' hput]
    exact hnew.arrayChecksum
  · simp only
    rw [hround, hmul, htable, hnew.buffer, Adjustment.buffer,
      hnew.header.count, ← hnew.length, Codec.getAll_putAll_append]

/-! A plan that was carried out. -/

/-- The bytes of a new table and of its header are the ones on the device. -/
structure Installed (geo : Geometry) (new : GPT) (buffer : List UInt8)
    (byte : Nat → UInt8) : Prop where
  table : Store.read byte
    (new.header.partitionEntryLBA * geo.sectorSize.toUInt64).toNat
    buffer.length = buffer
  header : Store.read byte
    (new.header.myLBA * geo.sectorSize.toUInt64).toNat
    geo.sectorSize.toNat = headerBuffer new.header geo.sectorSize

theorem createPlan_eq
    (hadjust : gptAdjustSectors crc32 target geo.sectorSize geo.sectors gpt =
      .ok (new, buffer)) :
    createPlan crc32 geo gpt mbr target =
      clearPlan geo target mbr ++ tablePlan geo new buffer := by
  rw [createPlan, hadjust]

/-- The header keeps clear of the entries. -/
theorem NewTable.header_clear (h : SourceLayout geo sectorOffset gpt)
    {a : Adjustment geo gpt} (hnew : NewTable crc32 a target new buffer)
    {i : Nat} (hlow :
      (new.header.partitionEntryLBA * geo.sectorSize.toUInt64).toNat ≤ i)
    (hhigh : i <
      (new.header.partitionEntryLBA * geo.sectorSize.toUInt64).toNat +
        buffer.length) :
    ¬ ((new.header.myLBA * geo.sectorSize.toUInt64).toNat ≤ i ∧
      i < (new.header.myLBA * geo.sectorSize.toUInt64).toNat +
        (headerBuffer new.header geo.sectorSize).length) := by
  have hlength : buffer.length = a.tableBytes.toNat := by
    rw [hnew.buffer, a.length_buffer h]
  obtain ⟨some', hsome, hsomeUsed⟩ := h.exists_used
  have hback := (a.layout h).backupRoom some' hsome hsomeUsed
  rw [hnew.tableOffset] at hlow hhigh
  rw [hnew.headerOffset h.nonempty, length_headerBuffer]
  split at hlow
  · rename_i hone
    rw [if_pos hone]
    omega
  · rename_i hne
    rw [if_neg hne] at hhigh ⊢
    omega

/-- A plan leaves its table on the device, and what keeps clear of the plan
keeps it there. -/
theorem NewTable.installed (h : SourceLayout geo sectorOffset gpt)
    {a : Adjustment geo gpt} (hnew : NewTable crc32 a target new buffer)
    (hadjust : gptAdjustSectors crc32 target geo.sectorSize geo.sectors gpt =
      .ok (new, buffer)) {store left : Nat → UInt8}
    (hkept : ∀ write ∈ createPlan crc32 geo gpt mbr target, ∀ i,
      write.Covers i → left i =
        Store.applyAll (createPlan crc32 geo gpt mbr target) store i) :
    Installed geo new buffer left := by
  rw [createPlan_eq hadjust, tablePlan] at hkept
  constructor
  · rw [Store.read_congr fun i hlow hhigh => hkept _
      (List.mem_append_right _ List.mem_cons_self) i ⟨hlow, hhigh⟩]
    refine @Store.read_applyAll _ ⟨_, buffer⟩ _ _ ?_ store
    intro later hlater i hi
    rw [List.mem_singleton.mp hlater]
    exact hnew.header_clear h hi.1 hi.2
  · have hlength := @length_headerBuffer geo new.header
    rw [← hlength, Store.read_congr fun i hlow hhigh => hkept _
      (List.mem_append_right _ (List.mem_cons_of_mem _
        List.mem_cons_self)) i ⟨hlow, hhigh⟩]
    rw [List.append_cons]
    refine @Store.read_applyAll _ ⟨_, headerBuffer new.header geo.sectorSize⟩
      _ [] ?_ store
    intro later hlater
    cases hlater

/-- The two new headers agree on the usable range. -/
theorem gptAdjustSectors_usable {target' : UInt64} {new' : GPT}
    {buffer' : List UInt8}
    (hadjust : gptAdjustSectors crc32 target geo.sectorSize geo.sectors gpt =
      .ok (new, buffer))
    (hadjust' : gptAdjustSectors crc32 target' geo.sectorSize geo.sectors
      gpt = .ok (new', buffer')) :
    new.header.firstUsableLBA = new'.header.firstUsableLBA ∧
      new.header.lastUsableLBA = new'.header.lastUsableLBA := by
  obtain ⟨_, _, a, header, hheader, _, hfixup⟩ := gptAdjustSectors_ok hadjust
  obtain ⟨_, _, a', header', hheader', _, hfixup'⟩ :=
    gptAdjustSectors_ok hadjust'
  obtain rfl := a.unique a'
  simp only [newHeader, bind_eq_ok, pure, Except.pure, Except.ok.injEq]
    at hheader hheader'
  obtain ⟨firstUsable, hround, rfl⟩ := hheader
  obtain ⟨firstUsable', hround', rfl⟩ := hheader'
  obtain rfl : firstUsable = firstUsable' :=
    Except.ok.inj (hround.symm.trans hround')
  simp only [fixupGpt, bind_eq_ok, assertC_eq_ok, exists_const, pure,
    Except.pure, Except.ok.injEq, Prod.mk.injEq] at hfixup hfixup'
  obtain ⟨_, rfl, rfl⟩ := hfixup
  obtain ⟨_, rfl, rfl⟩ := hfixup'
  exact ⟨rfl, rfl⟩

/-! The protective MBR. -/

theorem mbr_take (mbr : Mbr) (record : MbrPartitionRecord) :
    (mbrCodec.put { mbr with record₁ := record }).take 14 =
      (mbrCodec.put mbr).take 14 := by
  have hjmp : (raw 3).width = 3 := rfl
  have hname : (raw 8).width = 8 := rfl
  have hbytes : (raw 2).width = 2 := rfl
  have hsectors : u8.width = 1 := rfl
  simp only [mbrCodec, Codec.iso, Codec.prod, List.take_append,
    Codec.length_put, hjmp, hname, hbytes, hsectors, Nat.reduceSub,
    Nat.zero_sub, List.take_zero]

/-- A record that was repaired passes. -/
theorem checkMbr_idem {mbr₀ : Mbr} {sectors : UInt64} {skip : Bool}
    (hcheck : checkMbr mbr₀ sectors skip = .ok mbr) :
    checkMbr mbr sectors skip = .ok mbr := by
  simp only [checkMbr, ite_error_eq_ok, pure, Except.pure] at hcheck ⊢
  generalize (if sectors - 1 > 0xFFFFFFFF then 0xFFFFFFFF
    else (sectors - 1).toUInt32 : UInt32) = expected at hcheck ⊢
  obtain ⟨hsignature, htype, h₂, h₃, h₄, hstart, hbpb, hresult⟩ := hcheck
  split at hresult
  · obtain rfl := Except.ok.inj hresult
    refine ⟨hsignature, htype, h₂, h₃, h₄, hstart, ?_, ?_⟩
    · rw [mbr_take]
      exact hbpb
    · rw [if_neg (by simp)]
  · rename_i hsize
    obtain rfl := Except.ok.inj hresult
    exact ⟨hsignature, htype, h₂, h₃, h₄, hstart, hbpb, if_neg hsize⟩

/-- The plan for the primary table begins with the first sector, and does not
come back to it. -/
theorem createPlan_mbr (h : SourceLayout geo sectorOffset gpt)
    {a : Adjustment geo gpt} (hnew : NewTable crc32 a 1 new buffer)
    (hadjust : gptAdjustSectors crc32 1 geo.sectorSize geo.sectors gpt =
      .ok (new, buffer)) :
    ∃ rest, createPlan crc32 geo gpt mbr 1 =
        ⟨0, mbrBuffer mbr geo.sectorSize⟩ :: rest ∧
      ∀ later ∈ rest, geo.sectorSize.toNat ≤ later.offset := by
  have htable := hnew.tableOffset
  have hheader := hnew.headerOffset h.nonempty
  rw [if_pos rfl] at htable hheader
  have hlater : ∀ later ∈ tablePlan geo new buffer,
      geo.sectorSize.toNat ≤ later.offset := by
    intro later hlater
    simp only [tablePlan, List.mem_cons, List.not_mem_nil, or_false]
      at hlater
    rcases hlater with rfl | rfl
    · simp only
      omega
    · simp only
      omega
  rw [createPlan_eq hadjust, clearPlan,
    if_neg (one_ne_last_sector hnew.sixSectors)]
  by_cases hbig : geo.sectorSize.toUInt64 = 4096
  · rw [if_pos hbig]
    exact ⟨_, rfl, hlater⟩
  · rw [if_neg hbig]
    have hsmall : geo.sectorSize.toNat = 512 := by
      rcases geo.sizes with ⟨h, _⟩ | ⟨h, _⟩
      · rw [h]
        rfl
      · rw [h] at hbig
        exact absurd rfl hbig
    refine ⟨_, rfl, fun later hmem => ?_⟩
    simp only [List.append_eq, List.cons_append, List.nil_append,
      List.mem_cons] at hmem
    rcases hmem with rfl | rfl | hmem
    · exact Nat.le_of_eq hsmall
    · simp only
      omega
    · exact hlater later hmem

/-- The protective MBR is read back. -/
theorem read_mbr (h : SourceLayout geo sectorOffset gpt)
    {a : Adjustment geo gpt} (hnew : NewTable crc32 a 1 new buffer)
    (hadjust : gptAdjustSectors crc32 1 geo.sectorSize geo.sectors gpt =
      .ok (new, buffer)) {store left : Nat → UInt8}
    (hkept : ∀ write ∈ createPlan crc32 geo gpt mbr 1, ∀ i,
      write.Covers i → left i =
        Store.applyAll (createPlan crc32 geo gpt mbr 1) store i) :
    Store.read left 0 geo.sectorSize.toNat =
      mbrBuffer mbr geo.sectorSize := by
  obtain ⟨rest, hplan, hrest⟩ :=
    @createPlan_mbr _ _ _ _ mbr _ _ h _ hnew hadjust
  rw [hplan] at hkept
  have hlength := @length_mbrBuffer geo mbr
  rw [← hlength, Store.read_congr fun i hlow hhigh => hkept _
    List.mem_cons_self i ⟨hlow, hhigh⟩]
  refine @Store.read_applyAll _ ⟨0, mbrBuffer mbr geo.sectorSize⟩ [] rest
    (fun later hlater i hi hcovered => ?_) store
  have hbehind := hrest later hlater
  have hinside := hi.2
  have hlow := hcovered.1
  simp only at hinside
  omega

/-! The second run. -/

theorem checkGeometry_ok {disk : Disk} (hsize : disk.size = geo.size)
    (hsector : disk.sectorSize = geo.sectorSize)
    (hsix : 6 ≤ geo.sectors) : checkGeometry disk = .ok geo.sectors := by
  have hvalid : ¬ (geo.sectorSize ≠ 512 ∧ geo.sectorSize ≠ 4096) := by
    rintro ⟨hne, hne'⟩
    rcases geo.blockSize with h | h
    · exact hne h
    · exact hne' h
  have hmultiple : ¬ geo.size % geo.sectorSize.toUInt64 ≠ 0 := by
    have haligned := geo.aligned
    rw [Decidable.not_not, ← UInt64.toNat_inj, UInt64.toNat_mod,
      UInt32.toNat_toUInt64, UInt64.toNat_zero]
    rcases geo.size_cases with h | h
    · rw [h]
      omega
    · rw [h]
      omega
  rw [checkGeometry, checkSizes, hsize, hsector, if_neg hvalid,
    if_neg (Nat.not_le.mpr geo.offT), if_neg hmultiple]
  exact if_neg (UInt64.not_lt.mpr hsix)

theorem readEitherBy_primary {disk : Disk} {own : Bool} {sectorSize : UInt32}
    {sectors : UInt64} {found : GPT}
    (hprimary : readAndCheckGpt crc32 disk 1 sectorSize sectors =
      .ok (some found)) :
    readEitherBy crc32 (fun _ => disk.pread) own sectorSize sectors =
      .ok (some (true, found)) := by
  rw [readAndCheckGpt] at hprimary
  rw [readEitherBy, hprimary]
  rfl

/-- The backup table is only looked for where there is no primary one. -/
theorem readEitherBy_backup {disk : Disk} {own : Bool} {sectorSize : UInt32}
    {sectors : UInt64} {found : Option GPT}
    (hprimary : readAndCheckGpt crc32 disk 1 sectorSize sectors = .ok none)
    (hbackup : readAndCheckGpt crc32 disk (sectors - 1) sectorSize sectors =
      .ok found) :
    readEitherBy crc32 (fun _ => disk.pread) own sectorSize sectors =
      .ok (found.map fun gpt => (false, gpt)) := by
  rw [readAndCheckGpt] at hprimary hbackup
  rw [readEitherBy, hprimary]
  change (readAndCheckGptBy crc32 _ _ (sectors - 1) _ _ >>= _) = _
  rw [hbackup]
  cases found with
  | none => rfl
  | some gpt => rfl

/-- `main` leaves a device alone that has a table for its sector size. -/
theorem gptfixMain_noChange {disk : Disk} (hsize : disk.size = geo.size)
    (hsector : disk.sectorSize = geo.sectorSize)
    (hsix : 6 ≤ geo.sectors) (hnonempty : 4096 ≤ geo.size.toNat)
    {mbr : Mbr} {skip : Bool}
    (hread : Store.read disk.byte 0 geo.sectorSize.toNat =
      mbrBuffer mbr geo.sectorSize)
    (hmbr : checkMbr mbr geo.sectors skip = .ok mbr) {gpt : GPT}
    (hgpt : readAndCheckGpt crc32 disk 1 geo.sectorSize geo.sectors =
      .ok (some gpt)) (mode : Mode) :
    (gptfixMain crc32 disk mode skip).run [] = .ok () [] := by
  have hlength := @length_mbrBuffer geo mbr
  have hpread : disk.pread geo.sectorSize.toUInt64 0 =
      some (mbrBuffer mbr geo.sectorSize) := by
    refine (pread_full_iff.mpr ⟨?_, ?_, ?_⟩).1
    · rw [UInt64.toNat_zero, UInt32.toNat_toUInt64]
      rcases geo.size_cases with h | h
      · omega
      · omega
    · rw [hsize, UInt64.toNat_zero, UInt32.toNat_toUInt64]
      rcases geo.size_cases with h | h
      · omega
      · omega
    · rw [UInt64.toNat_zero, UInt32.toNat_toUInt64, hread]
  have heither : readEitherBy crc32 (fun _ => disk.pread) true
      geo.sectorSize geo.sectors = .ok (some (true, gpt)) :=
    readEitherBy_primary hgpt
  have hwhole : ¬ (mbrBuffer mbr geo.sectorSize).length ≠
      geo.sectorSize.toNat := by
    rw [Decidable.not_not]
    exact hlength
  have hget : mbrCodec.get
      ((mbrBuffer mbr geo.sectorSize).take mbrCodec.width) = mbr := by
    rw [mbrBuffer, Codec.get_take_append]
  have hgeometry := checkGeometry_ok hsize hsector hsix
  rw [checkGeometry] at hgeometry
  rw [gptfixMain, gptfixMainBy, hgeometry, liftStop_ok_bind,
    hsector, hpread, orThrow, liftStop_ok_bind, if_neg hwhole, hget, hmbr,
    liftStop_ok_bind, heither]
  rfl

/-- Both calls returned: the two tables were computed, and each plan is on
the device as if nothing had followed it. -/
structure Replaced (crc32 : List UInt8 → UInt32) (geo : Geometry) (gpt : GPT)
    (mbr : Mbr) (target : UInt64) (left : Nat → UInt8) : Prop where
  adjusted : ∃ new buffer,
    gptAdjustSectors crc32 target geo.sectorSize geo.sectors gpt =
      .ok (new, buffer)
  kept : ∃ store, ∀ write ∈ createPlan crc32 geo gpt mbr target, ∀ i,
    write.Covers i → left i =
      Store.applyAll (createPlan crc32 geo gpt mbr target) store i

theorem replaceGpts_ok (h : SourceLayout geo sectorOffset gpt)
    {usedPrimary : Bool} {log : List Write}
    (hrun : (replaceGpts crc32 usedPrimary geo.sectors geo.sectorSize gpt
      mbr).run [] = .ok () log) (byte : Nat → UInt8) :
    Replaced crc32 geo gpt mbr 1 (Store.applyAll log byte) ∧
      Replaced crc32 geo gpt mbr (geo.sectors - 1)
        (Store.applyAll log byte) := by
  have hall : ∀ first second,
      (createNewGpt crc32 first geo.sectors geo.sectorSize gpt mbr >>=
        fun _ => createNewGpt crc32 second geo.sectors geo.sectorSize gpt
          mbr).run [] = .ok () log →
      (∀ later ∈ createPlan crc32 geo gpt mbr second,
        ∀ write ∈ createPlan crc32 geo gpt mbr first,
          ∀ i, write.Covers i → ¬ later.Covers i) →
      Replaced crc32 geo gpt mbr first (Store.applyAll log byte) ∧
        Replaced crc32 geo gpt mbr second (Store.applyAll log byte) := by
    intro first second hrun hapart
    obtain ⟨_, middle, hfirst, hsecond⟩ := bind_run_ok hrun
    obtain ⟨new, buffer, hadjust, _, hmiddle⟩ :=
      createNewGpt_ok h.nonempty hfirst
    obtain ⟨new', buffer', hadjust', _, hlog⟩ :=
      createNewGpt_ok h.nonempty hsecond
    rw [List.nil_append] at hmiddle
    subst hmiddle hlog
    refine ⟨⟨⟨new, buffer, hadjust⟩, byte, fun write hwrite i hi => ?_⟩,
      ⟨⟨new', buffer', hadjust'⟩,
        Store.applyAll (createPlan crc32 geo gpt mbr first) byte,
        fun write hwrite i hi => ?_⟩⟩
    · exact Store.applyAll_append_of_not_covers
        (fun later hlater => hapart later hlater write hwrite i hi) byte
    · rw [Store.applyAll_append]
  cases usedPrimary with
  | true =>
      refine (hall _ _ hrun fun later hlater write hwrite i hi hi' => ?_).symm
      exact createPlan_apart h hlater hwrite hi' hi
  | false =>
      exact hall _ _ hrun fun later hlater write hwrite i hi =>
        createPlan_apart h hwrite hlater hi

/-- What was written is read back: both copies are accepted, describe the
same table and point to each other, and another run changes nothing. -/
theorem replaceGpts_readBack (crc32 : List UInt8 → UInt32) (geo : Geometry)
    (disk : Disk) (sectorOffset : UInt64) (gpt : GPT) (mbr₀ mbr : Mbr)
    (skipBpbCheck : Bool) (log : List Write)
    (hsource : SourceTable crc32 geo disk sectorOffset gpt)
    (hheaderSize : gpt.header.headerSize ≤ geo.sectorSize)
    (hsector : disk.sectorSize = geo.sectorSize)
    (hmbr : checkMbr mbr₀ geo.sectors skipBpbCheck = .ok mbr)
    (hrun : (replaceGpts crc32 (sectorOffset == 1) geo.sectors geo.sectorSize
      gpt mbr).run [] = .ok () log) :
    let disk' := { disk with byte := Store.applyAll log disk.byte }
    ∃ primary backup : GPT,
      readAndCheckGpt crc32 disk' 1 geo.sectorSize geo.sectors =
        .ok (some primary) ∧
      readAndCheckGpt crc32 disk' (geo.sectors - 1) geo.sectorSize
        geo.sectors = .ok (some backup) ∧
      primary.entries = backup.entries ∧
      primary.header.firstUsableLBA = backup.header.firstUsableLBA ∧
      primary.header.lastUsableLBA = backup.header.lastUsableLBA ∧
      primary.header.diskGUID = backup.header.diskGUID ∧
      primary.header.numberOfPartitionEntries =
        backup.header.numberOfPartitionEntries ∧
      primary.header.alternateLBA = backup.header.myLBA ∧
      backup.header.alternateLBA = primary.header.myLBA ∧
      ∀ mode, (gptfixMain crc32 disk' mode skipBpbCheck).run [] =
        .ok () [] := by
  intro disk'
  have hlayout := hsource.layout
  obtain ⟨⟨⟨p, buffer, hprimary⟩, _, hkept⟩,
    ⟨⟨b, buffer', hbackup⟩, _, hkept'⟩⟩ :=
      replaceGpts_ok hlayout hrun disk.byte
  obtain ⟨a, hnew⟩ := gptAdjustSectors_newTable hlayout hprimary
  obtain ⟨a', hnew'⟩ := gptAdjustSectors_newTable hlayout hbackup
  obtain rfl := a.unique a'
  have hne := (one_ne_last_sector hnew.sixSectors).symm
  have hsize : disk'.size = geo.size := hsource.size
  have hinstalled := hnew.installed hlayout hprimary hkept
  have hinstalled' := hnew'.installed hlayout hbackup hkept'
  obtain ⟨primary, hread, hheader, hentries, _⟩ := hnew.readBack hlayout
    (hnew.headerAccepted hlayout hheaderSize) hsize hinstalled.table
    hinstalled.header
  obtain ⟨backup, hread', hheader', hentries', _⟩ := hnew'.readBack hlayout
    (hnew'.headerAccepted hlayout hheaderSize) hsize hinstalled'.table
    hinstalled'.header
  obtain ⟨hfirst, hlast⟩ := gptAdjustSectors_usable hprimary hbackup
  refine ⟨primary, backup, hread, hread', ?_, ?_, ?_, ?_, ?_, ?_, ?_, ?_⟩
  · rw [hentries, hentries']
  · rw [hheader, hheader', hfirst]
  · rw [hheader, hheader', hlast]
  · rw [hheader, hheader', hnew.header.diskGUID, hnew'.header.diskGUID]
  · rw [hheader, hheader', hnew.header.count, hnew'.header.count]
  · rw [hheader, hheader', hnew.header.alternateLBA, if_pos rfl,
      hnew'.header.myLBA]
  · rw [hheader, hheader', hnew'.header.alternateLBA, if_neg hne,
      hnew.header.myLBA]
  · exact gptfixMain_noChange hsize hsector hnew.sixSectors
      hlayout.nonempty (read_mbr hlayout hnew hprimary hkept)
      (checkMbr_idem hmbr) hread

end

/-- The sample device is converted once. -/
theorem replaceGpts_readBack_sample :
    ∃ log, (replaceGpts zlibCrc32 true sampleGeometry.sectors
        sampleGeometry.sectorSize sampleGpt sampleMbr).run [] = .ok () log ∧
      ∀ mode, (gptfixMain zlibCrc32 { sampleDisk with
        byte := Store.applyAll log sampleDisk.byte } mode false).run [] =
          .ok () [] := by
  obtain ⟨_, hrun⟩ := @Hoare.run_of_returns _ _ _ (replaceGpts zlibCrc32 true
    sampleGeometry.sectors sampleGeometry.sectorSize sampleGpt sampleMbr) []
    (by decide +kernel)
  obtain ⟨_, _, _, _, _, _, _, _, _, _, _, hmain⟩ :=
    replaceGpts_readBack zlibCrc32 sampleGeometry sampleDisk 1 sampleGpt
      sampleMbr sampleMbr false _ sampleSource (by decide) rfl rfl hrun
  exact ⟨_, hrun, hmain⟩

end QubesUtils
