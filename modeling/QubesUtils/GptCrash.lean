/-
A crash at any point of the conversion leaves a good partition table: the old
one until the copy on the other side of the partitions is complete, and that
copy from then on.
-/
import QubesUtils.GptReadBack

namespace QubesUtils

open ByteCodec

/-- Acceptance looks at the bytes of the header and of the entries only. -/
theorem GptAccepted.congr {crc32 : List UInt8 → UInt32} {disk : Disk}
    {sectorOffset sectors : UInt64} {sectorSize : UInt32} {gpt : GPT}
    (h : GptAccepted crc32 disk sectorOffset sectorSize sectors gpt)
    {left : Nat → UInt8}
    (hheader : ∀ i, (sectorOffset * sectorSize.toUInt64).toNat ≤ i →
      i < (sectorOffset * sectorSize.toUInt64).toNat + sectorSize.toNat →
      left i = disk.byte i)
    (htable : ∀ i,
      (sectorSize.toUInt64 * gpt.header.partitionEntryLBA).toNat ≤ i →
      i < (sectorSize.toUInt64 * gpt.header.partitionEntryLBA).toNat +
        roundUp (gptPartitionTableBytes gpt.header).toNat
          sectorSize.toNat →
      left i = disk.byte i) :
    GptAccepted crc32 { disk with byte := left } sectorOffset sectorSize
      sectors gpt := by
  have hreadHeader := Store.read_congr hheader
  have hreadTable := Store.read_congr htable
  refine ⟨h.inside, h.offset, h.headerOffset, h.headerInside, ?_, h.accepted,
    ⟨h.table.tableOffset, h.table.tableInside, ?_, ?_,
      h.table.usedEntries, h.table.someUsed, h.table.sectorSize⟩⟩
  · rw [hreadHeader]
    exact h.header
  · rw [hreadTable]
    exact h.table.checksum
  · rw [hreadTable]
    exact h.table.entries

/-- The places where a table is looked for: the sector, the sector size and
the number of sectors. -/
def candidates (geo : Geometry) : List (UInt64 × UInt32 × UInt64) :=
  [(1, geo.oldSectorSize, geo.oldSectors),
    (geo.oldSectors - 1, geo.oldSectorSize, geo.oldSectors),
    (1, geo.sectorSize, geo.sectors),
    (geo.sectors - 1, geo.sectorSize, geo.sectors)]

/-- Every used entry of one table is in the same slot of another, with its
identity and its bytes. -/
def Describes (gpt : GPT) (oldSectorSize : UInt32) (gpt' : GPT)
    (sectorSize : UInt32) : Prop :=
  ∀ (i : Nat) (entry : GPTPartitionEntry),
    gpt.entries[i]? = some entry → Used entry →
    ∃ entry', gpt'.entries[i]? = some entry' ∧ Used entry' ∧
      entry'.partitionTypeGUID = entry.partitionTypeGUID ∧
      entry'.uniquePartitionGUID = entry.uniquePartitionGUID ∧
      entry'.attributes = entry.attributes ∧
      entry'.partitionName = entry.partitionName ∧
      firstByte entry' sectorSize = firstByte entry oldSectorSize ∧
      behindByte entry' sectorSize = behindByte entry oldSectorSize

/-- One of the candidates is good. -/
def Recoverable (crc32 : List UInt8 → UInt32) (geo : Geometry) (gpt : GPT)
    (disk : Disk) : Prop :=
  ∃ place ∈ candidates geo, ∃ gpt',
    readAndCheckGpt crc32 disk place.1 place.2.1 place.2.2 =
      .ok (some gpt') ∧
    Describes gpt geo.oldSectorSize gpt' place.2.1

section

variable {crc32 : List UInt8 → UInt32} {geo : Geometry} {disk : Disk}
  {gpt new : GPT} {mbr : Mbr} {sectorOffset target : UInt64}
  {buffer : List UInt8}

theorem Describes.refl (gpt : GPT) (sectorSize : UInt32) :
    Describes gpt sectorSize gpt sectorSize :=
  fun _ entry hentry hused =>
    ⟨entry, hentry, hused, rfl, rfl, rfl, rfl, rfl, rfl⟩

theorem Adjustment.describes (h : SourceLayout geo sectorOffset gpt)
    (a : Adjustment geo gpt) {gpt' : GPT} (hentries : gpt'.entries = a.entries) :
    Describes gpt geo.oldSectorSize gpt' geo.sectorSize := by
  intro i entry hentry hused
  obtain ⟨htype, hunique, hattributes, hname, husedIff⟩ :=
    adjustEntry_identity gpt.sectorSize geo.sectorSize entry
  obtain ⟨hfirst, hbehind⟩ :=
    adjustEntry_used h a (List.mem_of_getElem? hentry) hused
  refine ⟨adjustEntry gpt.sectorSize geo.sectorSize entry, ?_,
    husedIff.mpr hused, htype, hunique, hattributes, hname, hfirst, hbehind⟩
  rw [hentries, Adjustment.entries, List.getElem?_map, List.getElem?_take,
    if_pos (slot_lt_count h a hentry hused), hentry]
  rfl

/-! The source table. -/

theorem SourceTable.candidate
    (h : SourceTable crc32 geo disk sectorOffset gpt) :
    (sectorOffset, geo.oldSectorSize, geo.oldSectors) ∈ candidates geo := by
  rcases h.location with rfl | rfl
  · exact List.mem_cons_self
  · exact List.mem_cons_of_mem _ List.mem_cons_self

/-- The header that was read stands on its side of the usable range. -/
theorem SourceTable.header_side
    (h : SourceTable crc32 geo disk sectorOffset gpt) :
    (sectorOffset = 1 →
      (sectorOffset * geo.oldSectorSize.toUInt64).toNat +
          geo.oldSectorSize.toNat ≤
        gpt.header.firstUsableLBA.toNat * geo.oldSectorSize.toNat) ∧
    (sectorOffset ≠ 1 →
      (gpt.header.lastUsableLBA.toNat + 1) * geo.oldSectorSize.toNat ≤
        (sectorOffset * geo.oldSectorSize.toUInt64).toNat) := by
  have hlayout := h.layout
  have hoff := geo.offT
  have hinside := UInt64.lt_iff_toNat_lt.mp h.accepted.inside
  have hmul : sectorOffset.toNat * geo.oldSectorSize.toNat ≤
      geo.size.toNat := by
    rw [← geo.oldSectors_mul]
    exact Nat.mul_le_mul_right _ (Nat.le_of_lt hinside)
  rw [toNat_mul_of_lt (by rw [UInt32.toNat_toUInt64]; omega),
    UInt32.toNat_toUInt64]
  refine ⟨fun hone => ?_, fun hne => ?_⟩
  · have hfirst := Nat.mul_le_mul_right geo.oldSectorSize.toNat
      hlayout.firstUsable
    rw [hone, UInt64.toNat_one]
    omega
  · have hlast := hlayout.lastUsable
    rcases h.location with hone | hlocation
    · exact absurd hone hne
    · rw [hlocation, geo.toNat_oldSectors_sub_one hlayout.nonempty,
        Nat.sub_mul, geo.oldSectors_mul]
      omega

/-- So do its entries. -/
theorem SourceTable.table_side
    (h : SourceTable crc32 geo disk sectorOffset gpt) :
    (sectorOffset = 1 →
      (geo.oldSectorSize.toUInt64 * gpt.header.partitionEntryLBA).toNat +
          roundUp (gptPartitionTableBytes gpt.header).toNat
            geo.oldSectorSize.toNat ≤
        gpt.header.firstUsableLBA.toNat * geo.oldSectorSize.toNat) ∧
    (sectorOffset ≠ 1 →
      (gpt.header.lastUsableLBA.toNat + 1) * geo.oldSectorSize.toNat ≤
        (geo.oldSectorSize.toUInt64 *
          gpt.header.partitionEntryLBA).toNat) := by
  have hlayout := h.layout
  have hoff := geo.offT
  have hsizes := SourceTable.oldSize_cases geo
  rw [h.accepted.accepted.tableBytes_toNat, UInt64.mul_comm]
  refine ⟨fun hone => ?_, fun hne => ?_⟩
  · obtain ⟨hlba, hfits⟩ := hlayout.primary hone
    rw [toNat_mul_of_lt, UInt32.toNat_toUInt64, hlba]
    · exact hfits
    · rw [UInt32.toNat_toUInt64, hlba]
      omega
  · obtain ⟨hlow, hfits⟩ := hlayout.backup hne
    rw [toNat_mul_of_lt, UInt32.toNat_toUInt64]
    · exact hlow
    · rw [UInt32.toNat_toUInt64]
      omega

/-- The table that was read survives as long as its side of the partitions
does. -/
theorem SourceTable.survives
    (h : SourceTable crc32 geo disk sectorOffset gpt) {left : Nat → UInt8}
    (hprimary : sectorOffset = 1 → ∀ i,
      i < gpt.header.firstUsableLBA.toNat * geo.oldSectorSize.toNat →
      left i = disk.byte i)
    (hbackup : sectorOffset ≠ 1 → ∀ i,
      (gpt.header.lastUsableLBA.toNat + 1) * geo.oldSectorSize.toNat ≤ i →
      left i = disk.byte i) :
    Recoverable crc32 geo gpt { disk with byte := left } := by
  obtain ⟨hheaderFront, hheaderBack⟩ := h.header_side
  obtain ⟨htableFront, htableBack⟩ := h.table_side
  refine ⟨_, h.candidate, gpt, (readAndCheckGpt_eq_some_iff
    geo.oldBlockSize).mpr (h.accepted.congr ?_ ?_), .refl _ _⟩
  · intro i hlow hhigh
    by_cases hone : sectorOffset = 1
    · exact hprimary hone i (Nat.lt_of_lt_of_le hhigh (hheaderFront hone))
    · exact hbackup hone i (Nat.le_trans (hheaderBack hone) hlow)
  · intro i hlow hhigh
    by_cases hone : sectorOffset = 1
    · exact hprimary hone i (Nat.lt_of_lt_of_le hhigh (htableFront hone))
    · exact hbackup hone i (Nat.le_trans (htableBack hone) hlow)

/-! The two calls. -/

/-- Nothing but a part of the first plan was written, or the first call has
checked its table and carried out its whole plan. -/
theorem written_bind_cases (h : SourceLayout geo sectorOffset gpt)
    (mbr : Mbr) (first second : UInt64) :
    let log := written
      (createNewGpt crc32 first geo.sectors geo.sectorSize gpt mbr >>=
        fun _ => createNewGpt crc32 second geo.sectors geo.sectorSize gpt
          mbr)
    log <+: createPlan crc32 geo gpt mbr first ∨
      ∃ new buffer rest,
        gptAdjustSectors crc32 first geo.sectorSize geo.sectors gpt =
          .ok (new, buffer) ∧
        HeaderAccepted crc32 new.header first geo.sectorSize geo.sectors
          (gptPartitionTableBytes new.header) ∧
        rest <+: createPlan crc32 geo gpt mbr second ∧
        log = createPlan crc32 geo gpt mbr first ++ rest := by
  intro log
  have hfirst : Appends (createNewGpt crc32 first geo.sectors geo.sectorSize
    gpt mbr) (createPlan crc32 geo gpt mbr first) :=
      appends_createNewGpt h.nonempty
  have hsecond : Appends (createNewGpt crc32 second geo.sectors
    geo.sectorSize gpt mbr) (createPlan crc32 geo gpt mbr second) :=
      appends_createNewGpt h.nonempty
  rcases hfirst [] with ⟨_, hrun⟩ | ⟨stop, part, hpart, hrun⟩
  · obtain ⟨new, buffer, hadjust, haccepted, _⟩ :=
      createNewGpt_ok h.nonempty hrun
    refine Or.inr ⟨new, buffer, ?_⟩
    rw [List.nil_append] at hrun
    rcases hsecond (createPlan crc32 geo gpt mbr first) with ⟨_, hrun'⟩ |
      ⟨stop, part, hpart, hrun'⟩
    · refine ⟨_, hadjust, haccepted, List.prefix_rfl, ?_⟩
      simp only [log, written, EStateM.run_bind, hrun, hrun']
    · refine ⟨part, hadjust, haccepted, hpart, ?_⟩
      simp only [log, written, EStateM.run_bind, hrun, hrun']
  · refine Or.inl ?_
    simp only [log, written, EStateM.run_bind, hrun]
    exact hpart

/-- The crash happened before the first copy was complete. -/
theorem crash_first (hsource : SourceTable crc32 geo disk sectorOffset gpt)
    {log : List Write} {left : Nat → UInt8}
    (hlog : ∀ write ∈ log, write ∈ createPlan crc32 geo gpt mbr
      (if (sectorOffset == 1) = true then geo.sectors - 1 else 1))
    (hcrash : Store.Crash log disk.byte left) :
    Recoverable crc32 geo gpt { disk with byte := left } := by
  have hlayout := hsource.layout
  obtain ⟨some', hsome, hused⟩ := hlayout.exists_used
  obtain ⟨hlow, hlt, hhigh⟩ := hlayout.ranged some' hsome hused
  refine hsource.survives (fun hone i hi => ?_) fun hne i hi => ?_
  · rw [if_pos (beq_iff_eq.mpr hone)] at hlog
    refine hcrash.eq_of_not_covers fun write hwrite hcovers => ?_
    have hbehind := (createPlan_backup hlayout (hlog write hwrite) hsome
      hused).1
    have hoffset := hcovers.1
    omega
  · rw [if_neg (by simpa using hne)] at hlog
    refine hcrash.eq_of_not_covers fun write hwrite hcovers => ?_
    have hfront := createPlan_primary hlayout (hlog write hwrite) hsome hused
    have hend := Nat.lt_of_lt_of_le hcovers.2 hfront
    omega

/-- The first copy is complete, and the crash happened somewhere else. -/
theorem crash_second (hsource : SourceTable crc32 geo disk sectorOffset gpt)
    (htarget : target = 1 ∨ target = geo.sectors - 1)
    (hadjust : gptAdjustSectors crc32 target geo.sectorSize geo.sectors gpt =
      .ok (new, buffer))
    (haccepted : HeaderAccepted crc32 new.header target geo.sectorSize
      geo.sectors (gptPartitionTableBytes new.header))
    {rest : List Write} {left : Nat → UInt8}
    (hapart : ∀ later ∈ rest, ∀ write ∈ createPlan crc32 geo gpt mbr target,
      ∀ i, write.Covers i → ¬ later.Covers i)
    (hcrash : Store.Crash rest (Store.applyAll
      (createPlan crc32 geo gpt mbr target) disk.byte) left) :
    Recoverable crc32 geo gpt { disk with byte := left } := by
  have hlayout := hsource.layout
  obtain ⟨a, hnew⟩ := gptAdjustSectors_newTable hlayout hadjust
  have hinstalled : Installed geo new buffer left :=
    hnew.installed hlayout hadjust fun write hwrite i hi =>
      hcrash.eq_of_not_covers fun later hlater =>
        hapart later hlater write hwrite i hi
  have hsize : ({ disk with byte := left } : Disk).size = geo.size :=
    hsource.size
  obtain ⟨gpt', hread, _, hentries, _⟩ := hnew.readBack hlayout haccepted
    hsize hinstalled.table hinstalled.header
  refine ⟨(target, geo.sectorSize, geo.sectors), ?_, gpt', hread,
    a.describes hlayout hentries⟩
  rcases htarget with rfl | rfl
  · simp [candidates]
  · simp [candidates]

end

/-- There is always at least one good table: whatever the writes leave behind
when they are cut off, one of the four places holds a table that is accepted
and describes the old partitions. -/
theorem replaceGpts_crashSafe (crc32 : List UInt8 → UInt32) (geo : Geometry)
    (disk : Disk) (sectorOffset : UInt64) (gpt : GPT) (mbr : Mbr)
    (left : Nat → UInt8)
    (hsource : SourceTable crc32 geo disk sectorOffset gpt)
    (hcrash : Store.Crash (written (replaceGpts crc32 (sectorOffset == 1)
      geo.sectors geo.sectorSize gpt mbr)) disk.byte left) :
    Recoverable crc32 geo gpt { disk with byte := left } := by
  have hlayout := hsource.layout
  rw [replaceGpts] at hcrash
  rcases written_bind_cases hlayout mbr
    (if (sectorOffset == 1) = true then geo.sectors - 1 else 1)
    (if (sectorOffset == 1) = true then 1 else geo.sectors - 1) with hpart |
    ⟨new, buffer, rest, hadjust, haccepted, hrest, hlog⟩
  · exact crash_first hsource (fun _ hwrite => hpart.subset hwrite) hcrash
  · rw [hlog] at hcrash
    rcases hcrash.append with hfirst | hsecond
    · exact crash_first hsource (fun _ hwrite => hwrite) hfirst
    · refine crash_second hsource ?_ hadjust haccepted ?_ hsecond
      · split
        · exact Or.inr rfl
        · exact Or.inl rfl
      · intro later hlater write hwrite i hi hi'
        have hlater' := hrest.subset hlater
        split at hwrite
        · rename_i hone
          rw [if_pos hone] at hlater'
          exact createPlan_apart hlayout hlater' hwrite hi' hi
        · rename_i hone
          rw [if_neg hone] at hlater'
          exact createPlan_apart hlayout hwrite hlater' hi hi'

/-- The sample device survives a crash that leaves every other byte of the
second write behind. -/
theorem replaceGpts_crashSafe_sample :
    ∃ first second rest,
      written (replaceGpts zlibCrc32 true sampleGeometry.sectors
        sampleGeometry.sectorSize sampleGpt sampleMbr) =
          first :: second :: rest ∧
      Recoverable zlibCrc32 sampleGeometry sampleGpt { sampleDisk with
        byte := fun i => if i % 2 = 0
          then first.apply sampleDisk.byte i
          else second.apply (first.apply sampleDisk.byte) i } := by
  have hlength : 2 ≤ (written (replaceGpts zlibCrc32 true
      sampleGeometry.sectors sampleGeometry.sectorSize sampleGpt
      sampleMbr)).length := by
    decide +kernel
  cases hlog : written (replaceGpts zlibCrc32 true sampleGeometry.sectors
    sampleGeometry.sectorSize sampleGpt sampleMbr) with
  | nil =>
      rw [hlog] at hlength
      exact absurd hlength (by decide)
  | cons first later =>
      cases later with
      | nil =>
          rw [hlog] at hlength
          exact absurd hlength (by simp)
      | cons second rest =>
          refine ⟨first, second, rest, rfl, ?_⟩
          refine replaceGpts_crashSafe zlibCrc32 sampleGeometry sampleDisk 1
            sampleGpt sampleMbr _ sampleSource ?_
          have hcrash : Store.Crash (first :: second :: rest)
              sampleDisk.byte fun i => if i % 2 = 0
                then first.apply sampleDisk.byte i
                else second.apply (first.apply sampleDisk.byte) i := by
            refine .next _ _ _ _ (.torn _ _ _ _ fun i => ?_)
            split
            · exact Or.inl rfl
            · exact Or.inr rfl
          rw [← hlog] at hcrash
          exact hcrash

end QubesUtils
