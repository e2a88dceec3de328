/-
The calls that `main` makes to its helpers, and what the helpers assert of
their arguments.  The number of sectors is checked once, under the device's
own sector size.
-/
import QubesUtils.GptSearch

namespace QubesUtils

open ByteCodec

inductive Helper
  | readAndCheckGpt
  | checkGptHeader
  | gptAdjustSectors
deriving DecidableEq

section

variable (crc32 : List UInt8 → UInt32) (reads : ReadCall → Pread)
  (sectorSize : UInt32) (size : UInt64) (mode : Mode) (skipBpbCheck : Bool)

/-- The calls of `read_and_check_gpt`, with the sector size and the number of
sectors that they pass. -/
inductive SearchCall :
    (own primary : Bool) → UInt64 → UInt32 → UInt64 → Prop
  | ownPrimary (sectors : UInt64) (mbr : Mbr)
      (hstarted : Started reads sectorSize size skipBpbCheck sectors mbr) :
      SearchCall true true 1 sectorSize sectors
  | ownBackup (sectors : UInt64) (mbr : Mbr)
      (hstarted : Started reads sectorSize size skipBpbCheck sectors mbr)
      (hprimary : readAndCheckGptBy crc32 (reads (.header true true))
        (reads (.entries true true)) 1 sectorSize sectors = .ok none) :
      SearchCall true false (sectors - 1) sectorSize sectors
  | otherPrimary (sectors : UInt64) (mbr : Mbr)
      (hagain : SearchesAgain crc32 reads sectorSize size skipBpbCheck
        sectors mbr) :
      SearchCall false true 1 (otherSectorSize sectorSize)
        (otherSectors sectorSize sectors)
  | otherBackup (sectors : UInt64) (mbr : Mbr)
      (hagain : SearchesAgain crc32 reads sectorSize size skipBpbCheck
        sectors mbr)
      (hprimary : readAndCheckGptBy crc32 (reads (.header false true))
        (reads (.entries false true)) 1 (otherSectorSize sectorSize)
        (otherSectors sectorSize sectors) = .ok none) :
      SearchCall false false (otherSectors sectorSize sectors - 1)
        (otherSectorSize sectorSize) (otherSectors sectorSize sectors)

/-- The calls of `create_new_gpt`; the second comes after the first. -/
inductive InstallCall : UInt64 → UInt64 → GPT → Prop
  | first (sectors : UInt64) (mbr : Mbr) (usedPrimary : Bool) (gpt : GPT)
      (hagain : SearchesAgain crc32 reads sectorSize size skipBpbCheck
        sectors mbr)
      (hother : readEitherBy crc32 reads false (otherSectorSize sectorSize)
        (otherSectors sectorSize sectors) = .ok (some (usedPrimary, gpt)))
      (hmode : mode = .fix) :
      InstallCall (if usedPrimary then sectors - 1 else 1) sectors gpt
  | second (sectors : UInt64) (mbr : Mbr) (usedPrimary : Bool) (gpt : GPT)
      (log : List Write)
      (hagain : SearchesAgain crc32 reads sectorSize size skipBpbCheck
        sectors mbr)
      (hother : readEitherBy crc32 reads false (otherSectorSize sectorSize)
        (otherSectors sectorSize sectors) = .ok (some (usedPrimary, gpt)))
      (hmode : mode = .fix)
      (hfirst : (createNewGpt crc32 (if usedPrimary then sectors - 1 else 1)
        sectors sectorSize gpt mbr).run [] = .ok () log) :
      InstallCall (if usedPrimary then 1 else sectors - 1) sectors gpt

/-- The calls of the helpers, with the sector offset and the number of
sectors that they get. -/
inductive HelperCall : Helper → UInt64 → UInt64 → Prop
  | readAndCheckGpt {own primary : Bool} {sectorOffset sectors : UInt64}
      {blockSize : UInt32}
      (hsearch : SearchCall crc32 reads sectorSize size skipBpbCheck own
        primary sectorOffset blockSize sectors) :
      HelperCall .readAndCheckGpt sectorOffset sectors
  | checkGptHeader {own primary : Bool} {sectorOffset sectors : UInt64}
      {blockSize : UInt32} {buffer : List UInt8}
      (hsearch : SearchCall crc32 reads sectorSize size skipBpbCheck own
        primary sectorOffset blockSize sectors)
      (hread : HeaderRead (reads (.header own primary)) sectorOffset
        blockSize sectors buffer) :
      HelperCall .checkGptHeader sectorOffset sectors
  | gptAdjustSectors {sectorOffset sectors : UInt64} {gpt : GPT}
      (hinstall : InstallCall crc32 reads sectorSize size mode skipBpbCheck
        sectorOffset sectors gpt) :
      HelperCall .gptAdjustSectors sectorOffset sectors
  | revalidation {sectorOffset sectors : UInt64} {gpt new : GPT}
      {buffer : List UInt8}
      (hinstall : InstallCall crc32 reads sectorSize size mode skipBpbCheck
        sectorOffset sectors gpt)
      (hadjust : QubesUtils.gptAdjustSectors crc32 sectorOffset sectorSize
        sectors gpt = .ok (new, buffer)) :
      HelperCall .checkGptHeader sectorOffset sectors

/-- Every call meets the preconditions, and without a table no assertion
fails. -/
structure HonoursPreconditions : Prop where
  calls : ∀ helper sectorOffset sectors,
    HelperCall crc32 reads sectorSize size mode skipBpbCheck helper
      sectorOffset sectors →
    6 ≤ sectors ∧ sectorOffset < sectors
  noAbort : ∀ log,
    (gptfixMainBy crc32 reads sectorSize size mode skipBpbCheck).run [] =
      .error .abort log →
    ∃ sectors mbr usedPrimary gpt,
      SearchesAgain crc32 reads sectorSize size skipBpbCheck sectors mbr ∧
      readEitherBy crc32 reads false (otherSectorSize sectorSize)
        (otherSectors sectorSize sectors) = .ok (some (usedPrimary, gpt))

/-- The second search is made on a device with fewer than six large
sectors. -/
def SearchesTooSmall : Prop :=
  sectorSize = 512 ∧ size < 24576 ∧ ∃ sectors mbr,
    SearchesAgain crc32 reads sectorSize size skipBpbCheck sectors mbr

end

section

variable {crc32 : List UInt8 → UInt32} {reads : ReadCall → Pread}
  {sectorSize : UInt32} {size sectors : UInt64} {skipBpbCheck : Bool}
  {mode : Mode} {mbr : Mbr}

theorem Started.six_le
    (h : Started reads sectorSize size skipBpbCheck sectors mbr) :
    6 ≤ sectors :=
  (checkSizes_eq_ok_iff.mp h.sizes).2.2.2.1

/-- The other number of sectors is too small exactly for the small devices. -/
theorem SearchesAgain.six_le_iff
    (h : SearchesAgain crc32 reads sectorSize size skipBpbCheck sectors
      mbr) :
    6 ≤ otherSectors sectorSize sectors ↔
      ¬ (sectorSize = 512 ∧ size < 24576) := by
  obtain ⟨geo, hgeoSize, hgeoSector, hgeoSectors, _, hother⟩ :=
    checkSizes_geometry h.started.sizes (not_not_intro h.aligned)
  have hmul := geo.oldSectors_mul
  have hown := geo.sectors_mul
  have hsix := UInt64.le_iff_toNat_le.mp h.started.six_le
  have hsmall : (24576 : UInt64).toNat = 24576 := rfl
  have hsix' : (6 : UInt64).toNat = 6 := rfl
  rw [← hgeoSectors, hsix'] at hsix
  rw [otherSectors, ← hother, ← hgeoSize, ← hgeoSector,
    UInt64.le_iff_toNat_le, UInt64.lt_iff_toNat_lt, hsmall, hsix']
  rcases geo.sizes with ⟨hnew, hold⟩ | ⟨hnew, hold⟩
  · rw [hnew] at hown
    rw [hold] at hmul
    change geo.oldSectors.toNat * 4096 = geo.size.toNat at hmul
    rw [hnew]
    simp only [true_and]
    omega
  · rw [hnew] at hown
    rw [hold] at hmul
    change geo.oldSectors.toNat * 512 = geo.size.toNat at hmul
    change geo.sectors.toNat * 4096 = geo.size.toNat at hown
    refine iff_of_true (by omega) fun hboth => ?_
    rw [hnew] at hboth
    exact absurd hboth.1 (by decide)

theorem SearchesTooSmall.otherSectors
    (hagain : SearchesAgain crc32 reads sectorSize size skipBpbCheck sectors
      mbr)
    (h : ¬ SearchesTooSmall crc32 reads sectorSize size skipBpbCheck) :
    6 ≤ QubesUtils.otherSectors sectorSize sectors :=
  hagain.six_le_iff.mpr fun hsmall =>
    h ⟨hsmall.1, hsmall.2, sectors, mbr, hagain⟩

theorem SearchCall.meets {own primary : Bool}
    {sectorOffset otherSectors : UInt64} {blockSize : UInt32}
    (hlarge : ¬ SearchesTooSmall crc32 reads sectorSize size skipBpbCheck)
    (h : SearchCall crc32 reads sectorSize size skipBpbCheck own primary
      sectorOffset blockSize otherSectors) :
    6 ≤ otherSectors ∧ sectorOffset < otherSectors := by
  cases h with
  | ownPrimary _ mbr hstarted =>
      exact ⟨hstarted.six_le, offsets_inside hstarted.six_le (Or.inl rfl)⟩
  | ownBackup _ mbr hstarted _ =>
      exact ⟨hstarted.six_le, offsets_inside hstarted.six_le (Or.inr rfl)⟩
  | otherPrimary sectors mbr hagain =>
      have hsix := SearchesTooSmall.otherSectors hagain hlarge
      exact ⟨hsix, offsets_inside hsix (Or.inl rfl)⟩
  | otherBackup sectors mbr hagain _ =>
      have hsix := SearchesTooSmall.otherSectors hagain hlarge
      exact ⟨hsix, offsets_inside hsix (Or.inr rfl)⟩

theorem InstallCall.meets {sectorOffset : UInt64} {gpt : GPT}
    (h : InstallCall crc32 reads sectorSize size mode skipBpbCheck
      sectorOffset sectors gpt) :
    6 ≤ sectors ∧ sectorOffset < sectors := by
  cases h with
  | first _ mbr usedPrimary _ hagain _ _ =>
      have hsix := hagain.started.six_le
      refine ⟨hsix, offsets_inside hsix ?_⟩
      cases usedPrimary with
      | true => exact Or.inr rfl
      | false => exact Or.inl rfl
  | second _ mbr usedPrimary _ log hagain _ _ _ =>
      have hsix := hagain.started.six_le
      refine ⟨hsix, offsets_inside hsix ?_⟩
      cases usedPrimary with
      | true => exact Or.inl rfl
      | false => exact Or.inr rfl

/-- A search among six sectors or more does not abort. -/
theorem readEitherBy_noAbort {own : Bool} (hsize : BlockSize sectorSize)
    (hsix : 6 ≤ sectors) :
    readEitherBy crc32 reads own sectorSize sectors ≠ .error .abort := by
  have hread : ∀ {preadHeader preadEntries : Pread} {offset : UInt64},
      readAndCheckGptBy crc32 preadHeader preadEntries offset sectorSize
        sectors ≠ .error .abort := by
    intro preadHeader preadEntries offset h
    rcases readAndCheckGptBy_error hsize h with
      ⟨hlt, _⟩ | ⟨_, habort⟩ | ⟨failure, habort, _⟩
    · exact UInt64.not_le.mpr hlt hsix
    · cases habort
    · cases habort
  intro h
  rcases readEitherBy_eq_error_iff.mp h with h | ⟨_, h⟩
  · exact hread h
  · exact hread h

end

/-- The preconditions are met exactly if the second search is not made on a
device with fewer than six large sectors. -/
theorem gptfixMain_preconditions_iff (crc32 : List UInt8 → UInt32)
    (reads : ReadCall → Pread) (sectorSize : UInt32) (size : UInt64)
    (mode : Mode) (skipBpbCheck : Bool) :
    HonoursPreconditions crc32 reads sectorSize size mode skipBpbCheck ↔
      ¬ SearchesTooSmall crc32 reads sectorSize size skipBpbCheck := by
  constructor
  · rintro hhonours ⟨hsector, hsmall, sectors, mbr, hagain⟩
    have hsix := (hhonours.calls _ _ _
      (.readAndCheckGpt (.otherPrimary sectors mbr hagain))).1
    exact hagain.six_le_iff.mp hsix ⟨hsector, hsmall⟩
  · intro hlarge
    refine ⟨?_, ?_⟩
    · intro helper sectorOffset sectors hcall
      cases hcall with
      | readAndCheckGpt hsearch => exact hsearch.meets hlarge
      | checkGptHeader hsearch _ => exact hsearch.meets hlarge
      | gptAdjustSectors hinstall => exact hinstall.meets
      | revalidation hinstall _ => exact hinstall.meets
    · intro log hrun
      have hcourse := gptfixMainBy_course crc32 reads sectorSize size mode
        skipBpbCheck
      rw [hrun] at hcourse
      generalize hresult : EStateM.Result.error Stop.abort log = result
        at hcourse
      cases hcourse with
      | refused stop hreported _ =>
          obtain ⟨failure, rfl, _⟩ := hreported
          cases hresult
      | notFound sectors mbr stop hreported _ _ _ =>
          obtain ⟨failure, rfl, _⟩ := hreported
          cases hresult
      | ownStopped sectors mbr stop hstarted hown =>
          cases hresult
          exact absurd hown (readEitherBy_noAbort
            (checkSizes_eq_ok_iff.mp hstarted.sizes).1 hstarted.six_le)
      | ownFound sectors mbr found hstarted hown => cases hresult
      | otherStopped sectors mbr stop hagain hother =>
          cases hresult
          exact absurd hother (readEitherBy_noAbort
            (otherSectorSize_blockSize sectorSize)
            (SearchesTooSmall.otherSectors hagain hlarge))
      | otherFound sectors mbr usedPrimary gpt hmode hagain hother =>
          exact ⟨sectors, mbr, usedPrimary, gpt, hagain, hother⟩

/-- A device of two large sectors with a protective MBR and zeros. -/
def smallDisk : Disk where
  sectorSize := 512
  size := 8192
  byte i := (mbrCodec.put sampleMbr).getD i 0

def aborted : EStateM.Result Stop (List Write) Unit → Bool
  | .error .abort [] => true
  | _ => false

theorem eq_of_aborted {result : EStateM.Result Stop (List Write) Unit}
    (h : aborted result = true) : result = .error .abort [] := by
  unfold aborted at h
  split at h
  · rfl
  · cases h

/-- It has no table at all, and an assertion fails. -/
theorem smallDisk_aborts :
    (gptfixMain zlibCrc32 smallDisk .check false).run [] =
        .error .abort [] ∧
      ¬ HonoursPreconditions zlibCrc32 (fun _ => smallDisk.pread) 512 8192
        .check false := by
  have hrun : (gptfixMain zlibCrc32 smallDisk .check false).run [] =
      .error .abort [] :=
    eq_of_aborted (by decide +kernel)
  refine ⟨hrun, fun h => ?_⟩
  obtain ⟨sectors, mbr, usedPrimary, gpt, hagain, hother⟩ :=
    h.noAbort [] hrun
  have hsectors : sectors = 16 := by
    rw [(checkSizes_eq_ok_iff.mp hagain.started.sizes).2.2.2.2]
    decide
  have habort : readEitherBy zlibCrc32 (fun _ => smallDisk.pread) false
      (otherSectorSize 512) (otherSectors 512 16) = .error .abort := by
    decide +kernel
  rw [hsectors] at hother
  cases habort.symm.trans hother

end QubesUtils
