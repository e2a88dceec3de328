/-
A conversion that is interrupted and started again, as often as it happens.
Sectors are written as a whole or not at all.
-/
import QubesUtils.GptCrash
import QubesUtils.GptSearch
import QubesUtils.Torn
import Mathlib.Logic.Relation

namespace QubesUtils

open ByteCodec

/-! What `main` reads under the sector size of the device. -/

/-- The header that is read at a sector. -/
def headerAt (geo : Geometry) (target : UInt64) (byte : Nat → UInt8) :
    GPTHeader :=
  gptHeaderCodec.get ((Store.read byte
    (target * geo.sectorSize.toUInt64).toNat geo.sectorSize.toNat).take
      gptHeaderCodec.width)

/-- What is read at a sector is no header. -/
def NoHeader (crc32 : List UInt8 → UInt32) (geo : Geometry) (target : UInt64)
    (byte : Nat → UInt8) : Prop :=
  checkGptHeader crc32 (headerAt geo target byte) target geo.sectorSize
    geo.sectors = .ok 0

/-- The record in the first sector. -/
def mbrAt (geo : Geometry) (byte : Nat → UInt8) : Mbr :=
  mbrCodec.get ((Store.read byte 0 geo.sectorSize.toNat).take mbrCodec.width)

section

variable {crc32 : List UInt8 → UInt32} {geo : Geometry} {disk : Disk}
  {target : UInt64} {gpt : GPT} {mbr : Mbr} {skip usedPrimary : Bool}
  {mode : Mode}

/-- A sector and the bytes of the device. -/
theorem toNat_sector (hlt : target < geo.sectors) :
    (target * geo.sectorSize.toUInt64).toNat =
        target.toNat * geo.sectorSize.toNat ∧
      (target * geo.sectorSize.toUInt64).toNat + geo.sectorSize.toNat ≤
        geo.size.toNat := by
  have hoff := geo.offT
  have hle : (target.toNat + 1) * geo.sectorSize.toNat ≤
      geo.size.toNat := by
    rw [← geo.sectors_mul]
    exact Nat.mul_le_mul_right _ (UInt64.lt_iff_toNat_lt.mp hlt)
  rw [Nat.add_mul, Nat.one_mul] at hle
  rw [toNat_mul_of_lt, UInt32.toNat_toUInt64]
  · exact ⟨rfl, hle⟩
  · rw [UInt32.toNat_toUInt64]
    omega

theorem inSector_iff (hlt : target < geo.sectors) {i : Nat} :
    Store.InSector geo.sectorSize.toNat target.toNat i ↔
      (target * geo.sectorSize.toUInt64).toNat ≤ i ∧
        i < (target * geo.sectorSize.toUInt64).toNat +
          geo.sectorSize.toNat := by
  rw [Store.InSector, Nat.add_mul, Nat.one_mul, (toNat_sector hlt).1]

/-- A sector inside the device is read as a whole. -/
theorem pread_sector (hsize : disk.size = geo.size) {offset : UInt64}
    (hinside : offset.toNat + geo.sectorSize.toNat ≤ geo.size.toNat) :
    disk.pread geo.sectorSize.toUInt64 offset =
      some (Store.read disk.byte offset.toNat geo.sectorSize.toNat) := by
  have hoff := geo.offT
  have hcases := geo.size_cases
  have hread := (@pread_full_iff disk geo.sectorSize.toUInt64 offset
    (Store.read disk.byte offset.toNat geo.sectorSize.toNat)).mpr
  rw [UInt32.toNat_toUInt64, hsize] at hread
  exact (hread ⟨by omega, by omega, rfl⟩).1

theorem NoHeader.read (hsize : disk.size = geo.size)
    (hlt : target < geo.sectors)
    (h : NoHeader crc32 geo target disk.byte) :
    readAndCheckGpt crc32 disk target geo.sectorSize geo.sectors =
      .ok none := by
  rw [readAndCheckGpt, readAndCheckGptBy]
  split
  · rfl
  split
  · rfl
  rw [NoHeader, headerAt] at h
  rw [pread_sector hsize (toNat_sector hlt).2]
  simp only [orThrow, bind, Except.bind, Store.length_read, ne_eq,
    not_true_eq_false, if_false, h, if_true]

theorem NoHeader.congr {byte left : Nat → UInt8}
    (hlt : target < geo.sectors) (h : NoHeader crc32 geo target byte)
    (hsame : ∀ i, Store.InSector geo.sectorSize.toNat target.toNat i →
      left i = byte i) : NoHeader crc32 geo target left := by
  rw [NoHeader, headerAt] at h ⊢
  rw [Store.read_congr fun i hlow hhigh =>
    hsame i ((inSector_iff hlt).mpr ⟨hlow, hhigh⟩)]
  exact h

/-- A sector of zeros is no header. -/
theorem noHeader_zeros (hsix : 6 ≤ geo.sectors) (hlt : target < geo.sectors)
    {byte : Nat → UInt8} (hzero : ∀ i,
      Store.InSector geo.sectorSize.toNat target.toNat i → byte i = 0) :
    NoHeader crc32 geo target byte := by
  have hcases := geo.size_cases
  have hwidth : gptHeaderCodec.width = 92 := rfl
  have hread : (Store.read byte (target * geo.sectorSize.toUInt64).toNat
      geo.sectorSize.toNat).take gptHeaderCodec.width = zeros 92 := by
    rw [Store.read_congr fun i hlow hhigh =>
      hzero i ((inSector_iff hlt).mpr ⟨hlow, hhigh⟩), Store.read,
      List.map_const', List.length_range, List.take_replicate, hwidth, zeros]
    congr 1
    omega
  have hsignature : (gptHeaderCodec.get (zeros 92)).signature ≠ efiPart := by
    decide
  rw [NoHeader, headerAt, hread, checkGptHeader]
  simp only [assertC, hsix, hlt, if_true, bind, Except.bind, hsignature,
    ne_eq, not_false_eq_true]

/-- The protective MBR is read, and its check passes. -/
theorem started (hsize : disk.size = geo.size) (hsix : 6 ≤ geo.sectors)
    (hnonempty : 4096 ≤ geo.size.toNat)
    (hmbr : checkMbr (mbrAt geo disk.byte) geo.sectors skip = .ok mbr) :
    Started (fun _ => disk.pread) geo.sectorSize geo.size skip geo.sectors
      mbr := by
  have hcases := geo.size_cases
  have hgeometry := @checkGeometry_ok geo ⟨geo.sectorSize, geo.size,
    disk.byte⟩ rfl rfl hsix
  refine ⟨hgeometry, _, pread_sector hsize ?_, Store.length_read _ _ _, hmbr⟩
  rw [UInt64.toNat_zero]
  omega

theorem Started.mbrAt (hsize : disk.size = geo.size)
    (hnonempty : 4096 ≤ geo.size.toNat)
    (h : Started (fun _ => disk.pread) geo.sectorSize geo.size skip
      geo.sectors mbr) :
    checkMbr (mbrAt geo disk.byte) geo.sectors skip = .ok mbr := by
  have hcases := geo.size_cases
  obtain ⟨buffer, hread, _, hmbr⟩ := h.mbr
  rw [pread_sector hsize (by
    rw [UInt64.toNat_zero]
    omega)] at hread
  obtain rfl := Option.some.inj hread
  exact hmbr

/-- A run that returns has read and checked the protective MBR. -/
theorem started_of_run {reads : ReadCall → Pread} {sectorSize : UInt32}
    {size : UInt64} {log : List Write}
    (hrun : (gptfixMainBy crc32 reads sectorSize size mode skip).run [] =
      .ok () log) :
    ∃ sectors mbr, Started reads sectorSize size skip sectors mbr := by
  rw [gptfixMainBy] at hrun
  obtain ⟨sectors, hsizes, hrun⟩ := liftStop_bind_ok hrun
  obtain ⟨buffer, hread, hrun⟩ := liftStop_bind_ok hrun
  split at hrun
  · cases hrun
  · rename_i hwhole
    obtain ⟨mbr, hmbr, _⟩ := liftStop_bind_ok hrun
    exact ⟨sectors, mbr, hsizes, buffer, orThrow_eq_ok.mp hread,
      Decidable.not_not.mp hwhole, hmbr⟩

/-- The other sector size of a geometry is its old one. -/
theorem Geometry.other (geo : Geometry) (hsix : 6 ≤ geo.sectors) :
    geo.size % 4096 = 0 ∧ otherSectorSize geo.sectorSize =
        geo.oldSectorSize ∧
      otherSectors geo.sectorSize geo.sectors = geo.oldSectors := by
  have haligned : geo.size % 4096 = 0 := by
    rw [← UInt64.toNat_inj, UInt64.toNat_mod]
    exact geo.aligned
  obtain ⟨geo', hsize, _, _, hold, hsectors⟩ := checkSizes_geometry
    (@checkGeometry_ok geo ⟨geo.sectorSize, geo.size, fun _ => 0⟩ rfl rfl
      hsix) (not_not_intro haligned)
  have hother : otherSectorSize geo.sectorSize = geo.oldSectorSize := by
    rcases geo.sizes with ⟨h, h'⟩ | ⟨h, h'⟩
    · rw [h, h']
      rfl
    · rw [h, h']
      rfl
  refine ⟨haligned, hother, ?_⟩
  rw [← otherSectorSize, hother] at hold
  rw [otherSectors, ← hsectors, Geometry.oldSectors, hsize, hold,
    Geometry.oldSectors]

theorem one_lt_sectors (hsix : 6 ≤ geo.sectors) : 1 < geo.sectors := by
  have hsix' : 6 ≤ geo.sectors.toNat := UInt64.le_iff_toNat_le.mp hsix
  rw [UInt64.lt_iff_toNat_lt, UInt64.toNat_one]
  omega

theorem last_lt_sectors (hnonempty : 4096 ≤ geo.size.toNat)
    (hsix : 6 ≤ geo.sectors) : geo.sectors - 1 < geo.sectors := by
  have hsix' : 6 ≤ geo.sectors.toNat := UInt64.le_iff_toNat_le.mp hsix
  rw [UInt64.lt_iff_toNat_lt, geo.toNat_sectors_sub_one hnonempty]
  omega

/-- Neither place has a header for the sector size of the device. -/
theorem own_none (hsize : disk.size = geo.size) (hsix : 6 ≤ geo.sectors)
    (hnonempty : 4096 ≤ geo.size.toNat)
    (hprimary : NoHeader crc32 geo 1 disk.byte)
    (hbackup : NoHeader crc32 geo (geo.sectors - 1) disk.byte) :
    readEitherBy crc32 (fun _ => disk.pread) true geo.sectorSize
      geo.sectors = .ok none := by
  have hreadPrimary := hprimary.read hsize (one_lt_sectors hsix)
  have hreadBackup := hbackup.read hsize (last_lt_sectors hnonempty hsix)
  exact readEitherBy_backup hreadPrimary hreadBackup

theorem old_found (hsix : 6 ≤ geo.sectors)
    (hold : readAndCheckGpt crc32 disk 1 geo.oldSectorSize geo.oldSectors =
      .ok (some gpt)) :
    readEitherBy crc32 (fun _ => disk.pread) false
      (otherSectorSize geo.sectorSize)
      (otherSectors geo.sectorSize geo.sectors) = .ok (some (true, gpt)) := by
  obtain ⟨_, hother, hsectors⟩ := geo.other hsix
  rw [hother, hsectors]
  exact readEitherBy_primary hold

theorem gptfixMain_geometry (hsize : disk.size = geo.size)
    (hsector : disk.sectorSize = geo.sectorSize) :
    gptfixMain crc32 disk mode skip = gptfixMainBy crc32
      (fun _ => disk.pread) geo.sectorSize geo.size mode skip := by
  rw [gptfixMain, hsector, hsize]

/-- `main` finds a table for the sector size of the device. -/
theorem Started.own_found {reads : ReadCall → Pread} {sectorSize : UInt32}
    {size sectors : UInt64} {found : Bool × GPT}
    (h : Started reads sectorSize size skip sectors mbr)
    (hown : readEitherBy crc32 reads true sectorSize sectors =
      .ok (some found)) :
    gptfixMainBy crc32 reads sectorSize size mode skip = pure () := by
  obtain ⟨buffer, hread, hwhole, hmbr⟩ := h.mbr
  rw [gptfixMainBy, h.sizes, liftStop_ok_bind, hread, orThrow,
    liftStop_ok_bind, if_neg (not_not_intro hwhole), hmbr, liftStop_ok_bind,
    hown]
  rfl

/-- `main` finds one for the other sector size, and replaces it. -/
theorem SearchesAgain.other_found {reads : ReadCall → Pread}
    {sectorSize : UInt32} {size sectors : UInt64}
    (h : SearchesAgain crc32 reads sectorSize size skip sectors mbr)
    (hother : readEitherBy crc32 reads false (otherSectorSize sectorSize)
      (otherSectors sectorSize sectors) = .ok (some (usedPrimary, gpt))) :
    gptfixMainBy crc32 reads sectorSize size .fix skip =
      replaceGpts crc32 usedPrimary sectors sectorSize gpt mbr := by
  obtain ⟨buffer, hread, hwhole, hmbr⟩ := h.started.mbr
  rw [gptfixMainBy, h.started.sizes, liftStop_ok_bind, hread, orThrow,
    liftStop_ok_bind, if_neg (not_not_intro hwhole), hmbr, liftStop_ok_bind,
    h.own, liftStop_ok_bind, if_neg (not_not_intro h.aligned)]
  change (liftStop (readEitherBy crc32 reads false
    (otherSectorSize sectorSize) (otherSectors sectorSize sectors) >>=
      orThrow .cannotFindValidGpt) >>= fun found =>
        replaceGpts crc32 found.1 sectors sectorSize found.2 mbr) = _
  rw [hother]
  rfl

end

/-! The states of the device between two runs. -/

/-- The conversion of a device comes to its end, and what it writes. -/
structure Converts (crc32 : List UInt8 → UInt32) (geo : Geometry)
    (disk : Disk) (gpt : GPT) (mbr : Mbr) (skip : Bool) (log : List Write) :
    Prop where
  source : SourceTable crc32 geo disk 1 gpt
  sector : disk.sectorSize = geo.sectorSize
  mbrAccepted : checkMbr (mbrAt geo disk.byte) geo.sectors skip =
    .ok mbr
  noPrimary : NoHeader crc32 geo 1 disk.byte
  noBackup : NoHeader crc32 geo (geo.sectors - 1) disk.byte
  run : (replaceGpts crc32 true geo.sectors geo.sectorSize gpt mbr).run [] =
    .ok () log

/-- The old primary table is the good one: what stands in front of the end of
a partition is as it was. -/
structure Before (crc32 : List UInt8 → UInt32) (geo : Geometry)
    (disk : Disk) (gpt : GPT) (byte : Nat → UInt8) : Prop where
  front : ∀ entry ∈ gpt.entries, Used entry → ∀ i,
    i < behindByte entry geo.oldSectorSize → byte i = disk.byte i
  noBackup : NoHeader crc32 geo (geo.sectors - 1) byte

/-- A new table is on the device. -/
def HasTable (crc32 : List UInt8 → UInt32) (geo : Geometry) (gpt : GPT)
    (target : UInt64) (byte : Nat → UInt8) : Prop :=
  ∃ new buffer,
    gptAdjustSectors crc32 target geo.sectorSize geo.sectors gpt =
      .ok (new, buffer) ∧
    HeaderAccepted crc32 new.header target geo.sectorSize geo.sectors
      (gptPartitionTableBytes new.header) ∧
    Installed geo new buffer byte

/-- The partitions hold what they held before. -/
def PartitionsKept (geo : Geometry) (gpt : GPT) (before after : Nat → UInt8) :
    Prop :=
  ∀ entry ∈ gpt.entries, Used entry → ∀ i,
    firstByte entry geo.oldSectorSize ≤ i →
    i < behindByte entry geo.oldSectorSize → after i = before i

/-- The new backup is the good one, with the new primary table or without a
header in its place. -/
structure After (crc32 : List UInt8 → UInt32) (geo : Geometry) (disk : Disk)
    (gpt : GPT) (mbr : Mbr) (skip : Bool) (byte : Nat → UInt8) : Prop where
  partitions : PartitionsKept geo gpt disk.byte byte
  mbrAccepted : checkMbr (mbrAt geo byte) geo.sectors skip = .ok mbr
  backup : HasTable crc32 geo gpt (geo.sectors - 1) byte
  primary : NoHeader crc32 geo 1 byte ∨ HasTable crc32 geo gpt 1 byte

section

variable {crc32 : List UInt8 → UInt32} {geo : Geometry} {disk : Disk}
  {target : UInt64} {gpt : GPT} {mbr : Mbr} {skip : Bool}
  {log : List Write} {byte left : Nat → UInt8}

theorem Converts.tables
    (h : Converts crc32 geo disk gpt mbr skip log) :
    (∃ new buffer, gptAdjustSectors crc32 (geo.sectors - 1) geo.sectorSize
        geo.sectors gpt = .ok (new, buffer) ∧
      HeaderAccepted crc32 new.header (geo.sectors - 1) geo.sectorSize
        geo.sectors (gptPartitionTableBytes new.header)) ∧
    (∃ new buffer, gptAdjustSectors crc32 1 geo.sectorSize geo.sectors gpt =
        .ok (new, buffer) ∧
      HeaderAccepted crc32 new.header 1 geo.sectorSize geo.sectors
        (gptPartitionTableBytes new.header)) ∧
    log = createPlan crc32 geo gpt mbr (geo.sectors - 1) ++
      createPlan crc32 geo gpt mbr 1 := by
  have hnonempty := h.source.layout.nonempty
  obtain ⟨_, middle, hfirst, hsecond⟩ := bind_run_ok h.run
  obtain ⟨new, buffer, hadjust, haccepted, hmiddle⟩ :=
    createNewGpt_ok hnonempty hfirst
  obtain ⟨new', buffer', hadjust', haccepted', hlog⟩ :=
    createNewGpt_ok hnonempty hsecond
  rw [List.nil_append] at hmiddle
  refine ⟨⟨new, buffer, hadjust, haccepted⟩,
    ⟨new', buffer', hadjust', haccepted'⟩, ?_⟩
  rw [hlog, hmiddle]
  rfl

theorem Converts.sixSectors
    (h : Converts crc32 geo disk gpt mbr skip log) : 6 ≤ geo.sectors := by
  obtain ⟨_, ⟨_, _, hadjust, _⟩, _⟩ := h.tables
  exact (gptAdjustSectors_ok hadjust).1

/-- The first sectors stand in front of every partition. -/
theorem Converts.firstByte_ge
    (h : Converts crc32 geo disk gpt mbr skip log)
    {entry : GPTPartitionEntry} (hentry : entry ∈ gpt.entries)
    (hused : Used entry) :
    2 * geo.sectorSize.toNat ≤ firstByte entry geo.oldSectorSize := by
  have hlayout := h.source.layout
  obtain ⟨_, ⟨_, _, hadjust, _⟩, _⟩ := h.tables
  obtain ⟨_, _, a, _⟩ := gptAdjustSectors_ok hadjust
  have hroom := (a.layout hlayout).primaryRoom entry hentry hused
  omega

/-! Runs from these states. -/

theorem Before.refl (h : Converts crc32 geo disk gpt mbr skip log) :
    Before crc32 geo disk gpt disk.byte :=
  ⟨fun _ _ _ _ _ => rfl, h.noBackup⟩

theorem mbrAt_congr
    (hsame : ∀ i, i < geo.sectorSize.toNat → left i = byte i) :
    mbrAt geo left = mbrAt geo byte := by
  rw [mbrAt, mbrAt, Store.read_congr]
  intro i _ hhigh
  rw [Nat.zero_add] at hhigh
  exact hsame i hhigh

/-- The old table is found again and converted again. -/
theorem Before.main (h : Converts crc32 geo disk gpt mbr skip log)
    (hbefore : Before crc32 geo disk gpt byte) :
    gptfixMain crc32 { disk with byte } .fix skip =
      replaceGpts crc32 true geo.sectors geo.sectorSize gpt mbr := by
  have hlayout := h.source.layout
  have hsix := h.sixSectors
  obtain ⟨some', hsome, hused⟩ := hlayout.exists_used
  obtain ⟨hlow, hlt, _⟩ := hlayout.ranged some' hsome hused
  have hfirst := h.firstByte_ge hsome hused
  have hfront := hbefore.front some' hsome hused
  have hsize : ({ disk with byte } : Disk).size = geo.size := h.source.size
  have hsector : ({ disk with byte } : Disk).sectorSize = geo.sectorSize :=
    h.sector
  have hmbr : checkMbr (mbrAt geo byte) geo.sectors skip = .ok mbr := by
    rw [mbrAt_congr fun i hi => hfront i (by omega)]
    exact h.mbrAccepted
  have hprimary : NoHeader crc32 geo 1 byte := by
    apply h.noPrimary.congr (one_lt_sectors hsix)
    intro i hi
    have hhigh := hi.2
    rw [UInt64.toNat_one] at hhigh
    exact hfront i (by omega)
  have hold : readAndCheckGpt crc32 { disk with byte } 1 geo.oldSectorSize
      geo.oldSectors = .ok (some gpt) := by
    have hheader := h.source.header_side.1 rfl
    have htable := h.source.table_side.1 rfl
    apply (readAndCheckGpt_eq_some_iff geo.oldBlockSize).mpr
    apply h.source.accepted.congr
    · intro i _ hhigh
      exact hfront i (by omega)
    · intro i _ hhigh
      exact hfront i (by omega)
  rw [gptfixMain_geometry hsize hsector]
  exact SearchesAgain.other_found
    ⟨started hsize hsix hlayout.nonempty hmbr,
      own_none hsize hsix hlayout.nonempty hprimary hbefore.noBackup,
      (geo.other hsix).1⟩ (old_found hsix hold)

/-- A table on the device is read and describes the partitions. -/
theorem HasTable.read (h : Converts crc32 geo disk gpt mbr skip log)
    (htable : HasTable crc32 geo gpt target byte) :
    ∃ gpt', readAndCheckGpt crc32 { disk with byte } target geo.sectorSize
        geo.sectors = .ok (some gpt') ∧
      Describes gpt geo.oldSectorSize gpt' geo.sectorSize := by
  have hlayout := h.source.layout
  obtain ⟨new, buffer, hadjust, haccepted, hinstalled⟩ := htable
  obtain ⟨a, hnew⟩ := gptAdjustSectors_newTable hlayout hadjust
  have hsize : ({ disk with byte } : Disk).size = geo.size := h.source.size
  obtain ⟨gpt', hread, _, hentries, _⟩ := hnew.readBack hlayout haccepted
    hsize hinstalled.table hinstalled.header
  exact ⟨gpt', hread, a.describes hlayout hentries⟩

/-- The first of the new tables that is read describes the partitions. -/
theorem After.found (h : Converts crc32 geo disk gpt mbr skip log)
    (hafter : After crc32 geo disk gpt mbr skip byte) :
    ∃ usedPrimary gpt', readEither crc32 { disk with byte } geo.sectorSize
        geo.sectors = .ok (some (usedPrimary, gpt')) ∧
      Describes gpt geo.oldSectorSize gpt' geo.sectorSize := by
  have hsize : ({ disk with byte } : Disk).size = geo.size := h.source.size
  rcases hafter.primary with hnone | htable
  · obtain ⟨gpt', hread, hdescribes⟩ := hafter.backup.read h
    have hreadPrimary := hnone.read hsize (one_lt_sectors h.sixSectors)
    exact ⟨false, gpt', readEitherBy_backup hreadPrimary hread, hdescribes⟩
  · obtain ⟨gpt', hread, hdescribes⟩ := htable.read h
    exact ⟨true, gpt', readEitherBy_primary hread, hdescribes⟩

/-- There is nothing left to do. -/
theorem After.main (h : Converts crc32 geo disk gpt mbr skip log)
    (hafter : After crc32 geo disk gpt mbr skip byte) (mode : Mode) :
    gptfixMain crc32 { disk with byte } mode skip = pure () := by
  have hsize : ({ disk with byte } : Disk).size = geo.size := h.source.size
  have hsector : ({ disk with byte } : Disk).sectorSize = geo.sectorSize :=
    h.sector
  obtain ⟨usedPrimary, gpt', hread, _⟩ := hafter.found h
  rw [readEither] at hread
  rw [gptfixMain_geometry hsize hsector]
  exact (started hsize h.sixSectors h.source.layout.nonempty
    hafter.mbrAccepted).own_found hread

/-! One run that is cut off. -/

theorem fills_zeros {size s offset count : Nat} (hlow : offset ≤ s * size)
    (hhigh : (s + 1) * size ≤ offset + count) :
    Store.Patch.Fills size s 0 ⟨offset, zeros count⟩ := by
  intro store i hi
  have hfirst := hi.1
  have hbehind := hi.2
  rw [Store.Patch.apply, if_pos (Nat.le_trans hlow hfirst)]
  simp only
  rw [zeros, List.getElem?_replicate, if_pos (by omega)]
  rfl

theorem createPlan_split {new : GPT} {buffer : List UInt8}
    (hadjust : gptAdjustSectors crc32 target geo.sectorSize geo.sectors gpt =
      .ok (new, buffer)) :
    createPlan crc32 geo gpt mbr target = clearPlan geo target mbr ++
        [⟨(new.header.partitionEntryLBA * geo.sectorSize.toUInt64).toNat,
          buffer⟩] ++
      [⟨(new.header.myLBA * geo.sectorSize.toUInt64).toNat,
        headerBuffer new.header geo.sectorSize⟩] := by
  rw [createPlan_eq hadjust, tablePlan, List.append_assoc]
  rfl

/-- The writes in front of the header leave its sector alone, or clear it. -/
theorem NewTable.clears {sectorOffset : UInt64} {new : GPT}
    {buffer : List UInt8} {a : Adjustment geo gpt}
    (hlayout : SourceLayout geo sectorOffset gpt)
    (hnew : NewTable crc32 a target new buffer) (hlt : target < geo.sectors)
    {patch : Write} (hpatch : patch ∈ clearPlan geo target mbr ++
      [⟨(new.header.partitionEntryLBA * geo.sectorSize.toUInt64).toNat,
        buffer⟩]) :
    (∀ i, Store.InSector geo.sectorSize.toNat target.toNat i →
        ¬ patch.Covers i) ∨
      Store.Patch.Fills geo.sectorSize.toNat target.toNat 0 patch := by
  have hnonempty := hlayout.nonempty
  have hcases := geo.size_cases
  obtain ⟨hsector, hinside⟩ := toNat_sector hlt
  have htableOffset := hnew.tableOffset
  have hheaderOffset := hnew.headerOffset hnonempty
  have hlength : buffer.length = a.tableBytes.toNat := by
    rw [hnew.buffer, a.length_buffer hlayout]
  obtain ⟨some', hsome, hsomeUsed⟩ := hlayout.exists_used
  have hback := (a.layout hlayout).backupRoom some' hsome hsomeUsed
  rw [hnew.header.myLBA] at hheaderOffset
  rcases List.mem_append.mp hpatch with hclear | htable
  · rw [clearPlan] at hclear
    by_cases hone : target = 1
    · rw [if_pos hone] at hheaderOffset
      rw [if_neg (hone ▸ one_ne_last_sector hnew.sixSectors)] at hclear
      have hmbr : ∀ i, Store.InSector geo.sectorSize.toNat target.toNat i →
          ¬ Store.Patch.Covers ⟨0, mbrBuffer mbr geo.sectorSize⟩ i := by
        intro i hi hcovers
        have hlow := ((inSector_iff hlt).mp hi).1
        have hhigh := hcovers.2
        rw [length_mbrBuffer] at hhigh
        simp only at hhigh
        omega
      by_cases hbig : geo.sectorSize.toUInt64 = 4096
      · rw [if_pos hbig, List.mem_singleton] at hclear
        exact Or.inl (hclear ▸ hmbr)
      · have hsmall : geo.sectorSize.toNat = 512 := by
          rcases geo.sizes with ⟨h, _⟩ | ⟨h, _⟩
          · rw [h]
            rfl
          · rw [h] at hbig
            exact absurd rfl hbig
        rw [if_neg hbig] at hclear
        simp only [List.mem_cons, List.not_mem_nil, or_false] at hclear
        rcases hclear with rfl | rfl | rfl
        · exact Or.inl hmbr
        · refine Or.inr (fills_zeros ?_ ?_)
          · omega
          · rw [Nat.add_mul]
            omega
        · refine Or.inl fun i hi hcovers => ?_
          have hhigh := ((inSector_iff hlt).mp hi).2
          have hlow := hcovers.1
          simp only at hlow
          omega
    · have hlast := hnew.location.resolve_left hone
      rw [if_neg hone] at hheaderOffset
      rw [if_pos hlast, List.mem_singleton] at hclear
      rw [hclear]
      refine Or.inr (fills_zeros ?_ ?_)
      · omega
      · rw [Nat.add_mul]
        omega
  · rw [List.mem_singleton] at htable
    refine Or.inl fun i hi hcovers => ?_
    obtain ⟨hlow, hhigh⟩ := (inSector_iff hlt).mp hi
    rw [htable, Store.Patch.Covers, hlength, htableOffset] at hcovers
    simp only at hcovers
    rw [hheaderOffset] at hlow hhigh
    split at hlow
    · rename_i hone
      rw [if_pos hone] at hcovers hhigh
      omega
    · rename_i hne
      rw [if_neg hne] at hcovers
      omega

/-- The header is written last and in one piece. -/
theorem NewTable.torn {sectorOffset : UInt64} {new : GPT}
    {buffer : List UInt8} {a : Adjustment geo gpt}
    (hlayout : SourceLayout geo sectorOffset gpt)
    (hnew : NewTable crc32 a target new buffer)
    (hadjust : gptAdjustSectors crc32 target geo.sectorSize geo.sectors gpt =
      .ok (new, buffer)) (hnone : NoHeader crc32 geo target byte)
    (htorn : Store.Torn geo.sectorSize.toNat
      (createPlan crc32 geo gpt mbr target) byte left) :
    left = Store.applyAll (createPlan crc32 geo gpt mbr target) byte ∨
      NoHeader crc32 geo target left := by
  have hcases := geo.size_cases
  have hlt : target < geo.sectors := by
    rcases hnew.location with rfl | rfl
    · exact one_lt_sectors hnew.sixSectors
    · exact last_lt_sectors hlayout.nonempty hnew.sixSectors
  have hoffset : (new.header.myLBA * geo.sectorSize.toUInt64).toNat =
      target.toNat * geo.sectorSize.toNat := by
    rw [hnew.header.myLBA]
    exact (toNat_sector hlt).1
  rw [createPlan_split hadjust] at htorn ⊢
  rcases htorn.concat (by omega) hoffset
    (@length_headerBuffer geo new.header) with hall | hpart
  · exact Or.inl hall
  · rcases hpart.sector fun patch hpatch =>
      hnew.clears hlayout hlt hpatch with hsame | hzero
    · exact Or.inr (hnone.congr hlt hsame)
    · exact Or.inr (noHeader_zeros hnew.sixSectors hlt hzero)

/-- The record in the first sector is written in one piece. -/
theorem NewTable.torn_mbr {sectorOffset : UInt64} {new : GPT}
    {buffer : List UInt8} {a : Adjustment geo gpt}
    (hlayout : SourceLayout geo sectorOffset gpt)
    (hnew : NewTable crc32 a 1 new buffer)
    (hadjust : gptAdjustSectors crc32 1 geo.sectorSize geo.sectors gpt =
      .ok (new, buffer))
    (htorn : Store.Torn geo.sectorSize.toNat
      (createPlan crc32 geo gpt mbr 1) byte left) :
    mbrAt geo left = mbrAt geo byte ∨ mbrAt geo left = mbr := by
  have hcases := geo.size_cases
  have hpositive : 0 < geo.sectorSize.toNat := by omega
  obtain ⟨rest, hplan, hrest⟩ :=
    @createPlan_mbr _ _ _ _ mbr _ _ hlayout _ hnew hadjust
  have hlength := @length_mbrBuffer geo mbr
  have hwhole : ∀ left : Nat → UInt8, (∀ i, i < geo.sectorSize.toNat →
      left i = Store.Patch.apply ⟨0, mbrBuffer mbr geo.sectorSize⟩ byte i) →
      mbrAt geo left = mbr := by
    intro left hleft
    have hread := Store.read_apply ⟨0, mbrBuffer mbr geo.sectorSize⟩ byte
    rw [hlength] at hread
    rw [mbrAt_congr hleft, mbrAt, hread, mbrBuffer, Codec.get_take_append]
  rw [hplan, ← List.singleton_append] at htorn
  rcases htorn.append with hfirst | hlater
  · rw [← List.nil_append [_]] at hfirst
    rcases hfirst.concat hpositive (Nat.zero_mul _).symm hlength with
      hall | hnone
    · exact Or.inr (hwhole left fun i _ => congrFun hall i)
    · rw [hnone.nil hpositive]
      exact Or.inl rfl
  · refine Or.inr (hwhole left fun i hi => ?_)
    rw [hlater.of_not_covers hpositive]
    · rfl
    · intro later hmem hcovers
      have hbehind := hrest later hmem
      have hlow := hcovers.1
      omega

/-- Neither plan writes into a partition. -/
theorem createPlan_clear {sectorOffset : UInt64}
    (hlayout : SourceLayout geo sectorOffset gpt) {write : Write}
    (hwrite : write ∈ createPlan crc32 geo gpt mbr (geo.sectors - 1) ∨
      write ∈ createPlan crc32 geo gpt mbr 1)
    {entry : GPTPartitionEntry} (hentry : entry ∈ gpt.entries)
    (hused : Used entry) {i : Nat}
    (hlow : firstByte entry geo.oldSectorSize ≤ i)
    (hhigh : i < behindByte entry geo.oldSectorSize) : ¬ write.Covers i := by
  intro hcovers
  rcases hwrite with hbackup | hprimary
  · have hbehind := (createPlan_backup hlayout hbackup hentry hused).1
    have hoffset := hcovers.1
    omega
  · have hfront := createPlan_primary hlayout hprimary hentry hused
    have hend := Nat.lt_of_lt_of_le hcovers.2 hfront
    omega

/-- Nothing is written into a partition. -/
theorem Converts.clear (h : Converts crc32 geo disk gpt mbr skip log)
    {write : Write} (hwrite : write ∈ log) {entry : GPTPartitionEntry}
    (hentry : entry ∈ gpt.entries) (hused : Used entry) {i : Nat}
    (hlow : firstByte entry geo.oldSectorSize ≤ i)
    (hhigh : i < behindByte entry geo.oldSectorSize) : ¬ write.Covers i := by
  rw [h.tables.2.2] at hwrite
  exact createPlan_clear h.source.layout (List.mem_append.mp hwrite) hentry
    hused hlow hhigh

/-- The backup plan keeps clear of what stands in front of the partitions. -/
theorem Before.backup_clear
    (h : Converts crc32 geo disk gpt mbr skip log)
    (hbefore : Before crc32 geo disk gpt byte)
    {patches : List Write} (hpatches : ∀ write ∈ patches,
      write ∈ createPlan crc32 geo gpt mbr (geo.sectors - 1))
    (htorn : Store.Torn geo.sectorSize.toNat patches byte left) :
    ∀ entry ∈ gpt.entries, Used entry → ∀ i,
      i < behindByte entry geo.oldSectorSize → left i = disk.byte i := by
  have hcases := geo.size_cases
  intro entry hentry hused i hi
  rw [htorn.of_not_covers (by omega), hbefore.front entry hentry hused i hi]
  intro write hwrite hcovers
  have hbehind := (createPlan_backup h.source.layout (hpatches write hwrite)
    hentry hused).1
  have hoffset := hcovers.1
  omega

/-- A run that comes to its end. -/
theorem Before.complete (h : Converts crc32 geo disk gpt mbr skip log)
    (hbefore : Before crc32 geo disk gpt byte) :
    After crc32 geo disk gpt mbr skip (Store.applyAll log byte) := by
  have hlayout := h.source.layout
  obtain ⟨⟨⟨p, buffer, hprimary⟩, _, hkept⟩,
    ⟨⟨b, buffer', hbackup⟩, _, hkept'⟩⟩ := replaceGpts_ok hlayout h.run byte
  obtain ⟨⟨_, _, hadjust, haccepted⟩, ⟨_, _, hadjust', haccepted'⟩, _⟩ :=
    h.tables
  obtain ⟨rfl, rfl⟩ := Prod.mk.inj (Except.ok.inj (hadjust.symm.trans
    hbackup))
  obtain ⟨rfl, rfl⟩ := Prod.mk.inj (Except.ok.inj (hadjust'.symm.trans
    hprimary))
  obtain ⟨a, hnew⟩ := gptAdjustSectors_newTable hlayout hprimary
  obtain ⟨a', hnew'⟩ := gptAdjustSectors_newTable hlayout hbackup
  refine ⟨?_, ?_, ⟨_, _, hbackup, haccepted, ?_⟩,
    Or.inr ⟨_, _, hprimary, haccepted', ?_⟩⟩
  · intro entry hentry hused i hlow hhigh
    rw [Store.applyAll_of_not_covers fun write hwrite =>
      h.clear hwrite hentry hused hlow hhigh]
    exact hbefore.front entry hentry hused i hhigh
  · rw [mbrAt, read_mbr hlayout hnew hprimary hkept, mbrBuffer,
      Codec.get_take_append]
    exact checkMbr_idem h.mbrAccepted
  · exact hnew'.installed hlayout hbackup hkept'
  · exact hnew.installed hlayout hprimary hkept

/-- The first call is cut off. -/
theorem Before.cut_backup (h : Converts crc32 geo disk gpt mbr skip log)
    (hbefore : Before crc32 geo disk gpt byte)
    (htorn : Store.Torn geo.sectorSize.toNat
      (createPlan crc32 geo gpt mbr (geo.sectors - 1)) byte left) :
    left = Store.applyAll
        (createPlan crc32 geo gpt mbr (geo.sectors - 1)) byte ∨
      Before crc32 geo disk gpt left := by
  have hlayout := h.source.layout
  obtain ⟨⟨_, _, hadjust, _⟩, _⟩ := h.tables
  obtain ⟨a, hnew⟩ := gptAdjustSectors_newTable hlayout hadjust
  rcases hnew.torn hlayout hadjust hbefore.noBackup htorn with hall | hnone
  · exact Or.inl hall
  · exact Or.inr
      ⟨hbefore.backup_clear h (fun _ hwrite => hwrite) htorn, hnone⟩

/-- The second call is cut off. -/
theorem Before.cut_primary (h : Converts crc32 geo disk gpt mbr skip log)
    (hbefore : Before crc32 geo disk gpt byte)
    (htorn : Store.Torn geo.sectorSize.toNat
      (createPlan crc32 geo gpt mbr 1)
      (Store.applyAll (createPlan crc32 geo gpt mbr (geo.sectors - 1)) byte)
      left) : After crc32 geo disk gpt mbr skip left := by
  have hlayout := h.source.layout
  have hsix := h.sixSectors
  have hcases := geo.size_cases
  have hpositive : 0 < geo.sectorSize.toNat := by omega
  obtain ⟨some', hsome, hsomeUsed⟩ := hlayout.exists_used
  obtain ⟨_, hlt, _⟩ := hlayout.ranged some' hsome hsomeUsed
  have hfirst := h.firstByte_ge hsome hsomeUsed
  obtain ⟨⟨_, _, hbackup, haccepted⟩, ⟨_, _, hprimary, _⟩, hlog⟩ := h.tables
  obtain ⟨a, hnew⟩ := gptAdjustSectors_newTable hlayout hprimary
  obtain ⟨a', hnew'⟩ := gptAdjustSectors_newTable hlayout hbackup
  have hfront := hbefore.backup_clear h (fun _ hwrite => hwrite)
    (Store.Torn.whole geo.sectorSize.toNat
      (createPlan crc32 geo gpt mbr (geo.sectors - 1)) byte)
  have hmiddle := hfront some' hsome hsomeUsed
  have hnone : NoHeader crc32 geo 1 (Store.applyAll
      (createPlan crc32 geo gpt mbr (geo.sectors - 1)) byte) := by
    apply h.noPrimary.congr (one_lt_sectors hsix)
    intro i hi
    have hhigh := hi.2
    rw [UInt64.toNat_one] at hhigh
    exact hmiddle i (by omega)
  rcases hnew.torn hlayout hprimary hnone htorn with hall | hnone
  · rw [hall, ← Store.applyAll_append, ← hlog]
    exact hbefore.complete h
  refine ⟨?_, ?_, ⟨_, _, hbackup, haccepted, ?_⟩, Or.inl hnone⟩
  · intro entry hentry hused i hlow hhigh
    rw [htorn.of_not_covers hpositive]
    · exact hfront entry hentry hused i hhigh
    · intro write hwrite
      exact h.clear (hlog ▸ List.mem_append_right _ hwrite) hentry hused hlow
        hhigh
  · rcases hnew.torn_mbr hlayout hprimary htorn with hsame | hnewMbr
    · rw [hsame, mbrAt_congr fun i hi => hmiddle i (by omega)]
      exact h.mbrAccepted
    · rw [hnewMbr]
      exact checkMbr_idem h.mbrAccepted
  · have hkept : ∀ write ∈ createPlan crc32 geo gpt mbr (geo.sectors - 1),
        ∀ i, write.Covers i → left i = Store.applyAll
          (createPlan crc32 geo gpt mbr (geo.sectors - 1)) byte i := by
      intro write hwrite i hi
      exact htorn.of_not_covers hpositive fun later hlater hi' =>
        createPlan_apart hlayout hlater hwrite hi' hi
    exact hnew'.installed hlayout hbackup hkept

/-- A run that is cut off leaves the old primary table or the new backup. -/
theorem Before.cut (h : Converts crc32 geo disk gpt mbr skip log)
    (hbefore : Before crc32 geo disk gpt byte)
    (htorn : Store.Torn geo.sectorSize.toNat log byte left) :
    Before crc32 geo disk gpt left ∨
      After crc32 geo disk gpt mbr skip left := by
  have hcases := geo.size_cases
  rw [h.tables.2.2] at htorn
  rcases htorn.append with hfirst | hsecond
  · rcases hbefore.cut_backup h hfirst with hall | hleft
    · rw [hall]
      exact Or.inr (hbefore.cut_primary h
        ⟨0, fun s => Or.inl fun i _ => rfl⟩)
    · exact Or.inl hleft
  · exact Or.inr (hbefore.cut_primary h hsecond)

end

/-! Runs that are cut off, one after the other. -/

/-- The device that a run of `main` leaves when it is cut off. -/
def Interrupted (crc32 : List UInt8 → UInt32) (skip : Bool)
    (disk disk' : Disk) : Prop :=
  ∃ left, Store.Torn disk.sectorSize.toNat
      (written (gptfixMain crc32 disk .fix skip)) disk.byte left ∧
    disk' = { disk with byte := left }

/-- The device has a table for its sector size, with the old partitions and
their contents. -/
def Converted (crc32 : List UInt8 → UInt32) (geo : Geometry) (gpt : GPT)
    (disk disk' : Disk) : Prop :=
  (∃ usedPrimary gpt', readEither crc32 disk' geo.sectorSize geo.sectors =
      .ok (some (usedPrimary, gpt')) ∧
    Describes gpt geo.oldSectorSize gpt' geo.sectorSize) ∧
  PartitionsKept geo gpt disk.byte disk'.byte

section

variable {crc32 : List UInt8 → UInt32} {geo : Geometry} {disk disk' : Disk}
  {gpt : GPT} {mbr : Mbr} {skip : Bool} {log : List Write}

/-- A run of `main` that returns has converted the device. -/
theorem converts_of_run (hsource : SourceTable crc32 geo disk 1 gpt)
    (hsector : disk.sectorSize = geo.sectorSize)
    (hprimary : NoHeader crc32 geo 1 disk.byte)
    (hbackup : NoHeader crc32 geo (geo.sectors - 1) disk.byte)
    (hrun : (gptfixMain crc32 disk .fix skip).run [] = .ok () log) :
    ∃ mbr, Converts crc32 geo disk gpt mbr skip log := by
  have hnonempty := hsource.layout.nonempty
  rw [gptfixMain_geometry hsource.size hsector] at hrun
  obtain ⟨sectors, mbr, hstarted⟩ := started_of_run hrun
  obtain ⟨_, _, _, hsix, rfl⟩ := checkSizes_eq_ok_iff.mp hstarted.sizes
  have hsix' : 6 ≤ geo.sectors := hsix
  have hagain : SearchesAgain crc32 (fun _ => disk.pread) geo.sectorSize
      geo.size skip geo.sectors mbr :=
    ⟨hstarted, own_none hsource.size hsix' hnonempty hprimary hbackup,
      (geo.other hsix').1⟩
  rw [hagain.other_found (old_found hsix' hsource.read)] at hrun
  exact ⟨mbr, hsource, hsector, hstarted.mbrAt hsource.size hnonempty,
    hprimary, hbackup, hrun⟩

/-- What every interrupted run leaves. -/
theorem Converts.interrupted
    (h : Converts crc32 geo disk gpt mbr skip log)
    (hcut : Relation.ReflTransGen (Interrupted crc32 skip) disk disk') :
    ∃ byte, disk' = { disk with byte } ∧
      (Before crc32 geo disk gpt byte ∨
        After crc32 geo disk gpt mbr skip byte) := by
  induction hcut with
  | refl => exact ⟨disk.byte, rfl, Or.inl (Before.refl h)⟩
  | tail _ hstep ih =>
      obtain ⟨byte, rfl, hstate⟩ := ih
      obtain ⟨left, htorn, rfl⟩ := hstep
      refine ⟨left, rfl, ?_⟩
      rcases hstate with hbefore | hafter
      · rw [hbefore.main h, written, h.run, h.sector] at htorn
        exact hbefore.cut h htorn
      · have hcases := geo.size_cases
        rw [hafter.main h, h.sector] at htorn
        obtain rfl := htorn.nil (by omega)
        exact Or.inr hafter

end

/-- However often the conversion is cut off, another run completes it. -/
theorem gptfixMain_restart (crc32 : List UInt8 → UInt32) (geo : Geometry)
    (disk disk' : Disk) (gpt : GPT) (skip : Bool) (log : List Write)
    (hsource : SourceTable crc32 geo disk 1 gpt)
    (hsector : disk.sectorSize = geo.sectorSize)
    (hprimary : NoHeader crc32 geo 1 disk.byte)
    (hbackup : NoHeader crc32 geo (geo.sectors - 1) disk.byte)
    (hrun : (gptfixMain crc32 disk .fix skip).run [] = .ok () log)
    (hcut : Relation.ReflTransGen (Interrupted crc32 skip) disk disk') :
    ∃ log', (gptfixMain crc32 disk' .fix skip).run [] = .ok () log' ∧
      Converted crc32 geo gpt disk
        { disk' with byte := Store.applyAll log' disk'.byte } := by
  obtain ⟨mbr, h⟩ := converts_of_run hsource hsector hprimary hbackup hrun
  obtain ⟨byte, rfl, hstate⟩ := h.interrupted hcut
  rcases hstate with hbefore | hafter
  · have hcomplete := hbefore.complete h
    have hfound := hcomplete.found h
    refine ⟨log, ?_, hfound, hcomplete.partitions⟩
    rw [hbefore.main h]
    exact h.run
  · have hfound := hafter.found h
    refine ⟨[], ?_, hfound, hafter.partitions⟩
    rw [hafter.main h]
    rfl

/-- A run that is cut off between two writes. -/
def cutAfter (crc32 : List UInt8 → UInt32) (skip : Bool) (count : Nat)
    (disk : Disk) : Disk :=
  { disk with
    byte := Store.applyAll
      ((written (gptfixMain crc32 disk .fix skip)).take count) disk.byte }

theorem interrupted_cutAfter (crc32 : List UInt8 → UInt32) (skip : Bool)
    (count : Nat) (disk : Disk) :
    Interrupted crc32 skip disk (cutAfter crc32 skip count disk) :=
  ⟨_, ⟨count, fun _ => Or.inl fun _ _ => rfl⟩, rfl⟩

/-- The sample device is cut off after two writes, and after four. -/
theorem gptfixMain_restart_sample :
    ∃ log', (gptfixMain zlibCrc32 (cutAfter zlibCrc32 false 4
        (cutAfter zlibCrc32 false 2 sampleDisk)) .fix false).run [] =
          .ok () log' ∧
      Converted zlibCrc32 sampleGeometry sampleGpt sampleDisk
        { sampleDisk with
          byte := Store.applyAll log' (cutAfter zlibCrc32 false 4
            (cutAfter zlibCrc32 false 2 sampleDisk)).byte } := by
  have hprimary : NoHeader zlibCrc32 sampleGeometry 1 sampleDisk.byte := by
    rw [NoHeader]
    decide +kernel
  have hbackup : NoHeader zlibCrc32 sampleGeometry
      (sampleGeometry.sectors - 1) sampleDisk.byte := by
    rw [NoHeader]
    decide +kernel
  obtain ⟨log, hrun⟩ := @Hoare.run_of_returns _ _ _
    (gptfixMain zlibCrc32 sampleDisk .fix false) [] (by decide +kernel)
  exact gptfixMain_restart zlibCrc32 sampleGeometry sampleDisk _ sampleGpt
    false _ sampleSource rfl hprimary hbackup hrun
    ((Relation.ReflTransGen.single (interrupted_cutAfter _ _ _ _)).tail
      (interrupted_cutAfter _ _ _ _))

end QubesUtils
