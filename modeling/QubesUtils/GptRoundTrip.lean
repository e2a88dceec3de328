/-
A conversion there and back: the used entries are the old ones again, and the
partitions hold what they held.
-/
import QubesUtils.GptRestart
import QubesUtils.GptRevalidate

namespace QubesUtils

open ByteCodec

/-- The same device, to be written under the other sector size. -/
def Geometry.swap (geo : Geometry) : Geometry where
  size := geo.size
  sectorSize := geo.oldSectorSize
  oldSectorSize := geo.sectorSize
  sizes := geo.sizes.symm.imp And.symm And.symm
  aligned := geo.aligned
  offT := geo.offT

/-- The device after the writes, behind a sector size. -/
def Disk.rewritten (disk : Disk) (log : List Write) (sectorSize : UInt32) :
    Disk where
  sectorSize
  size := disk.size
  byte := Store.applyAll log disk.byte

/-- The used slots of the second table are used in the first. -/
def UsesOnly (gpt gpt' : GPT) : Prop :=
  ∀ (i : Nat) (entry' : GPTPartitionEntry),
    gpt'.entries[i]? = some entry' → Used entry' →
    ∃ entry, gpt.entries[i]? = some entry ∧ Used entry

/-- The used entries of two tables are the same, in the same slots. -/
def SameUsed (gpt gpt' : GPT) : Prop :=
  ∀ (i : Nat) (entry : GPTPartitionEntry), Used entry →
    (gpt'.entries[i]? = some entry ↔ gpt.entries[i]? = some entry)

/-- What one conversion comes to: a table for the next one to start from. -/
structure Conversion (crc32 : List UInt8 → UInt32) (geo : Geometry)
    (disk : Disk) (gpt gpt' : GPT) (log : List Write)
    (sectorSize : UInt32) : Prop where
  source : SourceTable crc32 geo.swap (disk.rewritten log sectorSize) 1 gpt'
  found : readEither crc32 (disk.rewritten log sectorSize) geo.sectorSize
    geo.sectors = .ok (some (true, gpt'))
  describes : Describes gpt geo.oldSectorSize gpt' geo.sectorSize
  usesOnly : UsesOnly gpt gpt'
  partitions : PartitionsKept geo gpt disk.byte
    (disk.rewritten log sectorSize).byte

section

variable {crc32 : List UInt8 → UInt32} {geo : Geometry} {disk : Disk}
  {sectorOffset : UInt64} {gpt gpt₁ gpt₂ : GPT} {mbr : Mbr}
  {usedPrimary skip : Bool} {log : List Write}

/-- An entry that is described and described back is the same entry. -/
theorem Describes.restores {oldSectorSize sectorSize : UInt32}
    (hpositive : 0 < oldSectorSize.toNat)
    (hforth : Describes gpt oldSectorSize gpt₁ sectorSize)
    (hback : Describes gpt₁ sectorSize gpt₂ oldSectorSize) {i : Nat}
    {entry : GPTPartitionEntry} (hentry : gpt.entries[i]? = some entry)
    (hused : Used entry) : gpt₂.entries[i]? = some entry := by
  obtain ⟨entry₁, hentry₁, hused₁, htype₁, hunique₁, hattributes₁, hname₁,
    hfirst₁, hbehind₁⟩ := hforth i entry hentry hused
  obtain ⟨entry₂, hentry₂, _, htype₂, hunique₂, hattributes₂, hname₂,
    hfirst₂, hbehind₂⟩ := hback i entry₁ hentry₁ hused₁
  have hstart : entry₂.startingLBA = entry.startingLBA :=
    UInt64.toNat_inj.mp
      (Nat.eq_of_mul_eq_mul_right hpositive (hfirst₂.trans hfirst₁))
  have hend : entry₂.endingLBA = entry.endingLBA :=
    UInt64.toNat_inj.mp (Nat.succ.inj
      (Nat.eq_of_mul_eq_mul_right hpositive (hbehind₂.trans hbehind₁)))
  have hsame : entry₂ = entry := by
    cases entry₂
    cases entry
    rw [GPTPartitionEntry.mk.injEq]
    exact ⟨htype₂.trans htype₁, hunique₂.trans hunique₁, hstart, hend,
      hattributes₂.trans hattributes₁, hname₂.trans hname₁⟩
  rw [hentry₂, hsame]

theorem SameUsed.of_describes {oldSectorSize sectorSize : UInt32}
    (hpositive : 0 < oldSectorSize.toNat)
    (hforth : Describes gpt oldSectorSize gpt₁ sectorSize)
    (hback : Describes gpt₁ sectorSize gpt₂ oldSectorSize)
    (honly : UsesOnly gpt gpt₁) (honly' : UsesOnly gpt₁ gpt₂) :
    SameUsed gpt gpt₂ := by
  intro i entry hused
  constructor
  · intro hentry
    obtain ⟨entry₁, hentry₁, hused₁⟩ := honly' i entry hentry hused
    obtain ⟨entry₀, hentry₀, hused₀⟩ := honly i entry₁ hentry₁ hused₁
    have hrestored := hforth.restores hpositive hback hentry₀ hused₀
    rw [hrestored] at hentry
    rw [← hentry]
    exact hentry₀
  · intro hentry
    exact hforth.restores hpositive hback hentry hused

/-- A run that returns and has written something has found the table under
the other sector size, and replaced it. -/
theorem replaced_of_run (hsize : disk.size = geo.size)
    (hsector : disk.sectorSize = geo.sectorSize)
    (hfound : readEither crc32 disk geo.oldSectorSize geo.oldSectors =
      .ok (some (usedPrimary, gpt)))
    (hrun : (gptfixMain crc32 disk .fix skip).run [] = .ok () log)
    (hwrote : log ≠ []) :
    ∃ mbr, (replaceGpts crc32 usedPrimary geo.sectors geo.sectorSize gpt
      mbr).run [] = .ok () log := by
  have hcourse := gptfixMainBy_course crc32 (fun _ => disk.pread)
    geo.sectorSize geo.size .fix skip
  rw [gptfixMain_geometry hsize hsector] at hrun
  rw [hrun] at hcourse
  generalize hresult : EStateM.Result.ok () log = result at hcourse
  cases hcourse with
  | refused _ _ _ => cases hresult
  | notFound _ _ _ _ _ _ _ => cases hresult
  | ownStopped _ _ _ _ _ => cases hresult
  | otherStopped _ _ _ _ _ => cases hresult
  | ownFound _ _ _ _ _ =>
      cases hresult
      exact absurd rfl hwrote
  | otherFound sectors mbr usedPrimary' gpt' _ hagain hother =>
      obtain ⟨_, _, _, hsix, rfl⟩ :=
        checkSizes_eq_ok_iff.mp hagain.started.sizes
      have hsix' : 6 ≤ geo.sectors := hsix
      obtain ⟨_, hold, hsectors⟩ := geo.other hsix'
      change readEither crc32 disk (otherSectorSize geo.sectorSize)
        (otherSectors geo.sectorSize geo.sectors) = _ at hother
      rw [hold, hsectors, hfound] at hother
      obtain ⟨rfl, rfl⟩ :=
        Prod.mk.inj (Option.some.inj (Except.ok.inj hother))
      exact ⟨mbr, rfl⟩

/-- The new primary table is on the device. -/
theorem replaceGpts_hasTable (hlayout : SourceLayout geo sectorOffset gpt)
    (hrun : (replaceGpts crc32 usedPrimary geo.sectors geo.sectorSize gpt
      mbr).run [] = .ok () log) (byte : Nat → UInt8) :
    HasTable crc32 geo gpt 1 (Store.applyAll log byte) := by
  obtain ⟨⟨⟨new, buffer, hadjust⟩, _, hkept⟩, _⟩ :=
    replaceGpts_ok hlayout hrun byte
  obtain ⟨a, hnew⟩ := gptAdjustSectors_newTable hlayout hadjust
  have hcall : ∃ before after,
      (createNewGpt crc32 1 geo.sectors geo.sectorSize gpt mbr).run before =
        .ok () after := by
    obtain ⟨_, middle, hfirst, hsecond⟩ := bind_run_ok hrun
    cases usedPrimary with
    | true => exact ⟨middle, log, hsecond⟩
    | false => exact ⟨[], middle, hfirst⟩
  obtain ⟨_, _, hcall⟩ := hcall
  obtain ⟨_, _, hadjust', haccepted, _⟩ :=
    createNewGpt_ok hlayout.nonempty hcall
  obtain ⟨rfl, rfl⟩ :=
    Prod.mk.inj (Except.ok.inj (hadjust'.symm.trans hadjust))
  exact ⟨_, _, hadjust, haccepted, hnew.installed hlayout hadjust hkept⟩

/-- Every write is part of one of the two plans. -/
theorem replaceGpts_planned (hlayout : SourceLayout geo sectorOffset gpt)
    (hrun : (replaceGpts crc32 usedPrimary geo.sectors geo.sectorSize gpt
      mbr).run [] = .ok () log) {write : Write} (hwrite : write ∈ log) :
    write ∈ createPlan crc32 geo gpt mbr (geo.sectors - 1) ∨
      write ∈ createPlan crc32 geo gpt mbr 1 := by
  have hlog := (appends_replaceGpts hlayout.nonempty usedPrimary).run_ok hrun
  rw [List.nil_append] at hlog
  rw [hlog] at hwrite
  cases usedPrimary with
  | true => exact List.mem_append.mp hwrite
  | false => exact (List.mem_append.mp hwrite).symm

/-- One conversion. -/
theorem conversion_of_run (hsource : SourceTable crc32 geo disk sectorOffset gpt)
    (hsector : disk.sectorSize = geo.sectorSize)
    (hfound : readEither crc32 disk geo.oldSectorSize geo.oldSectors =
      .ok (some (usedPrimary, gpt)))
    (hrun : (gptfixMain crc32 disk .fix skip).run [] = .ok () log)
    (hwrote : log ≠ []) (sectorSize : UInt32) :
    ∃ gpt', Conversion crc32 geo disk gpt gpt' log sectorSize := by
  have hlayout := hsource.layout
  obtain ⟨mbr, hreplace⟩ :=
    replaced_of_run hsource.size hsector hfound hrun hwrote
  obtain ⟨new, buffer, hadjust, haccepted, hinstalled⟩ :=
    replaceGpts_hasTable hlayout hreplace disk.byte
  obtain ⟨a, hnew⟩ := gptAdjustSectors_newTable hlayout hadjust
  have hsize : (disk.rewritten log sectorSize).size = geo.size :=
    hsource.size
  obtain ⟨gpt', hread, hheader, hentries, _⟩ := hnew.readBack hlayout
    haccepted hsize hinstalled.table hinstalled.header
  refine ⟨gpt', ⟨hsize, Or.inl rfl, hread, ?_, ?_⟩,
    readEitherBy_primary hread, a.describes hlayout hentries, ?_, ?_⟩
  · rw [hheader, hnew.header.myLBA]
  · intro entry' hentry' hused'
    rw [hentries] at hentry'
    obtain ⟨entry, hentry, rfl⟩ := List.mem_map.mp hentry'
    have hmem := List.mem_of_mem_take hentry
    have hused := (adjustEntry_identity _ _ entry).2.2.2.2.mp hused'
    obtain ⟨hfirst, hbehind⟩ := adjustEntry_used hlayout a hmem hused
    have hlt := (hlayout.ranged entry hmem hused).2.1
    rw [← hfirst, ← hbehind, firstByte, behindByte] at hlt
    exact UInt64.le_iff_toNat_le.mpr
      (Nat.le_of_lt_succ (Nat.lt_of_mul_lt_mul_right hlt))
  · intro i entry' hentry' hused'
    rw [hentries, Adjustment.entries, List.getElem?_map] at hentry'
    obtain ⟨entry, hentry, rfl⟩ := Option.map_eq_some_iff.mp hentry'
    rw [List.getElem?_take] at hentry
    split at hentry
    · exact ⟨entry, hentry,
        (adjustEntry_identity _ _ entry).2.2.2.2.mp hused'⟩
    · cases hentry
  · intro entry hentry hused i hlow hhigh
    exact Store.applyAll_of_not_covers (fun write hwrite =>
      createPlan_clear hlayout (replaceGpts_planned hlayout hreplace hwrite)
        hentry hused hlow hhigh) disk.byte

end

/-- A device that is converted, and converted back, has its used entries
again, each in its slot, and the partitions hold what they held. -/
theorem gptfixMain_roundTrip (crc32 : List UInt8 → UInt32) (geo : Geometry)
    (disk : Disk) (sectorOffset : UInt64) (gpt : GPT)
    (usedPrimary skip skip' : Bool) (log log' : List Write)
    (hsource : SourceTable crc32 geo disk sectorOffset gpt)
    (hsector : disk.sectorSize = geo.sectorSize)
    (hfound : readEither crc32 disk geo.oldSectorSize geo.oldSectors =
      .ok (some (usedPrimary, gpt)))
    (hforth : (gptfixMain crc32 disk .fix skip).run [] = .ok () log)
    (hwrote : log ≠ [])
    (hback : (gptfixMain crc32 (disk.rewritten log geo.oldSectorSize) .fix
      skip').run [] = .ok () log')
    (hwrote' : log' ≠ []) :
    ∃ gpt', readEither crc32 ((disk.rewritten log
        geo.oldSectorSize).rewritten log' geo.oldSectorSize)
        geo.oldSectorSize geo.oldSectors = .ok (some (true, gpt')) ∧
      SameUsed gpt gpt' ∧
      PartitionsKept geo gpt disk.byte ((disk.rewritten log
        geo.oldSectorSize).rewritten log' geo.oldSectorSize).byte := by
  obtain ⟨gpt₁, hthere⟩ := conversion_of_run hsource hsector hfound hforth
    hwrote geo.oldSectorSize
  have hfound₁ : readEither crc32 (disk.rewritten log geo.oldSectorSize)
      geo.swap.oldSectorSize geo.swap.oldSectors =
        .ok (some (true, gpt₁)) := hthere.found
  have hsector₁ : (disk.rewritten log geo.oldSectorSize).sectorSize =
      geo.swap.sectorSize := rfl
  obtain ⟨gpt₂, hagain⟩ := conversion_of_run hthere.source hsector₁ hfound₁
    hback hwrote' geo.oldSectorSize
  have hpositive : 0 < geo.oldSectorSize.toNat := by
    rcases SourceTable.oldSize_cases geo with h | h
    · omega
    · omega
  refine ⟨gpt₂, hagain.found, SameUsed.of_describes hpositive
    hthere.describes hagain.describes hthere.usesOnly hagain.usesOnly, ?_⟩
  intro entry hentry hused i hlow hhigh
  obtain ⟨slot, hslot⟩ := List.mem_iff_getElem?.mp hentry
  obtain ⟨entry₁, hentry₁, hused₁, _, _, _, _, hfirst, hbehind⟩ :=
    hthere.describes slot entry hslot hused
  have hkept := hagain.partitions entry₁ (List.mem_of_getElem? hentry₁)
    hused₁ i (hfirst.symm ▸ hlow) (hbehind.symm ▸ hhigh)
  rw [hkept]
  exact hthere.partitions entry hentry hused i hlow hhigh

/-- The program returns and has written something. -/
def writes (program : Writer Unit) : Bool :=
  match program.run [] with
  | .ok _ log => !log.isEmpty
  | .error _ _ => false

theorem writes_spec {program : Writer Unit} (h : writes program = true) :
    program.run [] = .ok () (written program) ∧ written program ≠ [] := by
  rw [writes] at h
  rw [written]
  cases hrun : program.run [] with
  | error stop log =>
      rw [hrun] at h
      cases h
  | ok _ log =>
      rw [hrun] at h
      refine ⟨rfl, ?_⟩
      rintro rfl
      cases h

/-! A device of six large sectors, behind small ones. -/

def wideHeader : GPTHeader :=
  let header := { largeHeader with headerSize := 92, headerCRC32 := 0 }
  { header with headerCRC32 := zlibCrc32 (gptHeaderCodec.put header) }

def wideGpt : GPT := ⟨wideHeader, 1, [largeEntry], 4096⟩

def wideDisk : Disk :=
  { largeDisk with
    byte := fun i =>
      if i < 4096 then (mbrCodec.put sampleMbr).getD i 0
      else if i < 8192 then
        (gptHeaderCodec.put wideHeader).getD (i - 4096) 0
      else (gptPartitionEntryCodec.put largeEntry).getD (i - 8192) 0 }

theorem wideSource :
    SourceTable zlibCrc32 largeGeometry wideDisk 1 wideGpt where
  size := rfl
  location := Or.inl rfl
  read := by decide +kernel
  myLBA := rfl
  ordered := by
    intro entry hentry _
    rw [List.mem_singleton.mp hentry]
    decide

def wideLog : List Write :=
  written (gptfixMain zlibCrc32 wideDisk .fix false)

theorem wideDisk_writes :
    writes (gptfixMain zlibCrc32 wideDisk .fix false) = true := by
  decide +kernel

/-- What is read after the writes, without a walk through the writes that do
not cover the place. -/
theorem applyAll_eq_foldl (patches : List Write) (store : Nat → UInt8) :
    Store.applyAll patches store = patches.foldl (fun store patch i =>
      if i < patch.offset ∨ patch.offset + patch.data.length ≤ i then store i
      else (patch.data[i - patch.offset]?).getD (store i)) store := by
  rw [Store.applyAll]
  congr 1
  funext store patch i
  rw [Store.Patch.apply]
  by_cases hlow : patch.offset ≤ i
  · rw [if_pos hlow]
    split
    · rw [List.getElem?_eq_none (by omega)]
      rfl
    · rfl
  · rw [if_neg hlow, if_pos (Or.inl (by omega))]

theorem wideDisk_writesBack :
    writes (gptfixMain zlibCrc32 (wideDisk.rewritten wideLog
      largeGeometry.oldSectorSize) .fix false) = true := by
  rw [Disk.rewritten, applyAll_eq_foldl]
  decide +kernel

/-- The device gets a table for small sectors, and one for large sectors
again. -/
theorem gptfixMain_roundTrip_wideDisk :
    ∃ log' gpt', readEither zlibCrc32 ((wideDisk.rewritten wideLog
        largeGeometry.oldSectorSize).rewritten log'
          largeGeometry.oldSectorSize) largeGeometry.oldSectorSize
        largeGeometry.oldSectors = .ok (some (true, gpt')) ∧
      SameUsed wideGpt gpt' := by
  have hfound : readEither zlibCrc32 wideDisk largeGeometry.oldSectorSize
      largeGeometry.oldSectors = .ok (some (true, wideGpt)) :=
    readEitherBy_primary wideSource.read
  obtain ⟨hforth, hwrote⟩ := writes_spec wideDisk_writes
  obtain ⟨hback, hwrote'⟩ := writes_spec wideDisk_writesBack
  rw [← wideLog] at hforth hwrote
  obtain ⟨gpt', hfinal, hsame, _⟩ := gptfixMain_roundTrip zlibCrc32
    largeGeometry wideDisk 1 wideGpt true false false wideLog _ wideSource
    rfl hfound hforth hwrote hback hwrote'
  exact ⟨_, gpt', hfinal, hsame⟩

end QubesUtils
