/-
The course of `main`: the checks before the first search for a table, the
search under the device's own sector size and the one under the other, and
the ways in which each of them stops.
-/
import QubesUtils.GptAllOrNothing
import QubesUtils.Hoare

namespace QubesUtils

open ByteCodec

/-- The program stops with a message and an exit status that is not zero. -/
def ReportedStop (stop : Stop) : Prop :=
  ∃ failure : Failure, stop = .errx failure ∧ failure.code ≠ 0

theorem Failure.code_eq_zero_iff (failure : Failure) :
    failure.code = 0 ↔ failure = .tableReadError := by
  constructor
  · intro h
    cases failure <;> first | rfl | cases h
  · rintro rfl
    rfl

theorem reported_errx {failure : Failure}
    (h : failure ≠ .tableReadError) : ReportedStop (.errx failure) :=
  ⟨failure, rfl, fun hzero => h (failure.code_eq_zero_iff.mp hzero)⟩

theorem assertC_eq_error {condition : Prop} [Decidable condition]
    {stop : Stop} :
    assertC condition = .error stop ↔ ¬ condition ∧ stop = .abort := by
  rw [assertC]
  by_cases h : condition
  · simp [h]
  · simp [h, eq_comm]

theorem orThrow_eq_error {α : Type} {failure : Failure} {x : Option α}
    {stop : Stop} :
    orThrow failure x = .error stop ↔ x = none ∧ stop = .errx failure := by
  cases x with
  | none => simp [orThrow, eq_comm]
  | some a => simp [orThrow]

theorem ite_error_eq_error {α : Type} {condition : Prop}
    [Decidable condition] {stop stop' : Stop} {x : Except Stop α} :
    (if condition then .error stop else x) = .error stop' ↔
      (condition ∧ stop' = stop) ∨ (¬ condition ∧ x = .error stop') := by
  by_cases h : condition
  · simp [h, eq_comm]
  · simp [h]

theorem ite_ok_eq_error {α : Type} {condition : Prop} [Decidable condition]
    {stop : Stop} {a : α} {x : Except Stop α} :
    (if condition then .ok a else x) = .error stop ↔
      ¬ condition ∧ x = .error stop := by
  by_cases h : condition
  · simp [h]
  · simp [h]

section

variable {crc32 : List UInt8 → UInt32} {header : GPTHeader}
  {sectorOffset sectors tableBytes : UInt64} {sectorSize : UInt32}
  {stop : Stop}

theorem partitionTableUsableSpace_error
    (h : partitionTableUsableSpace header sectorOffset sectors =
      .error stop) : ReportedStop stop := by
  rw [partitionTableUsableSpace] at h
  split at h
  · simp only [ite_ok_eq_error] at h
    exact absurd h.2.2.2 (by simp)
  · simp only [ite_ok_eq_error, ite_error_eq_error] at h
    obtain ⟨_, _, ⟨_, rfl⟩ | ⟨_, hok⟩⟩ := h
    · exact reported_errx (by simp)
    · cases hok

/-- The header is checked with its assertions met, or the program aborts. -/
theorem checkGptHeader_error
    (h : checkGptHeader crc32 header sectorOffset sectorSize sectors =
      .error stop) :
    (¬ (6 ≤ sectors ∧ sectorOffset < sectors) ∧ stop = .abort) ∨
      ReportedStop stop := by
  simp only [checkGptHeader, bind_eq_error, assertC_eq_error, assertC_eq_ok,
    exists_const, ite_ok_eq_error, ite_error_eq_error] at h
  rcases h with ⟨hsix, rfl⟩ | ⟨_, ⟨hinside, rfl⟩ | ⟨_, h⟩⟩
  · exact Or.inl ⟨fun h => hsix h.1, rfl⟩
  · exact Or.inl ⟨fun h => hinside h.2, rfl⟩
  · refine Or.inr ?_
    obtain ⟨_, _, _, _, _, _, _, ⟨_, rfl⟩ | ⟨_, _, _, h⟩⟩ := h
    · exact reported_errx (by simp)
    · rcases h with h | ⟨space, _, h⟩
      · exact partitionTableUsableSpace_error h
      · cases space with
        | none => cases h
        | some space =>
            simp only [ite_ok_eq_error, ite_error_eq_error] at h
            obtain ⟨_, _, ⟨_, rfl⟩ | ⟨_, hok⟩⟩ := h
            · exact reported_errx (by simp)
            · cases hok

/-- The entries are read, or the program stops with status zero. -/
theorem readEntriesBy_error {pread : Pread} (hsize : BlockSize sectorSize)
    (hsmall : tableBytes ≤ 1048576)
    (hentry : 128 ≤ header.sizeOfPartitionEntry)
    (h : readEntriesBy crc32 pread header tableBytes sectorSize =
      .error stop) :
    (∃ needed, roundToNextSector tableBytes sectorSize = .ok needed ∧
      pread needed (sectorSize.toUInt64 * header.partitionEntryLBA) = none ∧
      stop = .errx .tableReadError) ∨ ReportedStop stop := by
  have hsmall' := UInt64.le_iff_toNat_le.mp hsmall
  have hroom : tableBytes.toNat + (sectorSize.toNat - 1) < 2 ^ 64 := by
    change tableBytes.toNat ≤ 1048576 at hsmall'
    rcases hsize.toNat_cases with h | h
    · omega
    · omega
  obtain ⟨needed, hround⟩ := roundToNextSector_total hsize hroom
  simp only [readEntriesBy, hround, bind_eq_error, orThrow_eq_error,
    assertC_eq_error, ite_ok_eq_error, ite_error_eq_error, Except.ok.injEq,
    reduceCtorEq, false_or, exists_eq_left'] at h
  rcases h with ⟨hnone, rfl⟩ | ⟨buffer, _, h⟩
  · exact Or.inl ⟨needed, hround, hnone, rfl⟩
  · refine Or.inr ?_
    rcases h with ⟨_, rfl⟩ | ⟨_, _, ⟨hlow, _⟩ | ⟨_, _, h⟩⟩
    · exact reported_errx (by simp)
    · exact absurd hentry hlow
    · split at h
      · cases h
      · simp only [ite_error_eq_error] at h
        rcases h with ⟨_, rfl⟩ | ⟨_, hok⟩
        · exact reported_errx (by simp)
        · cases hok

end

/-- The header is read whole, from an offset that is not filtered out. -/
structure HeaderRead (preadHeader : Pread) (sectorOffset : UInt64)
    (sectorSize : UInt32) (sectors : UInt64) (buffer : List UInt8) : Prop where
  inside : sectorOffset < sectors
  offset : sectorOffset = 1 ∨ 5 ≤ sectorOffset
  read : preadHeader sectorSize.toUInt64
    (sectorOffset * sectorSize.toUInt64) = some buffer
  whole : buffer.length = sectorSize.toNat

/-- `struct GPTHeader` at the front of a sector. -/
def headerOf (buffer : List UInt8) : GPTHeader :=
  gptHeaderCodec.get (buffer.take gptHeaderCodec.width)

/-- The header is accepted, and the read of its entries fails. -/
def LostTable (crc32 : List UInt8 → UInt32)
    (preadHeader preadEntries : Pread) (sectorOffset : UInt64)
    (sectorSize : UInt32) (sectors : UInt64) : Prop :=
  ∃ buffer tableBytes needed,
    HeaderRead preadHeader sectorOffset sectorSize sectors buffer ∧
    checkGptHeader crc32 (headerOf buffer) sectorOffset sectorSize sectors =
      .ok tableBytes ∧ tableBytes ≠ 0 ∧
    roundToNextSector tableBytes sectorSize = .ok needed ∧
    preadEntries needed
      (sectorSize.toUInt64 * (headerOf buffer).partitionEntryLBA) = none

section

variable {crc32 : List UInt8 → UInt32} {preadHeader preadEntries : Pread}
  {sectorOffset sectors : UInt64} {sectorSize : UInt32} {stop : Stop}

theorem HeaderRead.readAndCheckGptBy {buffer : List UInt8}
    (h : HeaderRead preadHeader sectorOffset sectorSize sectors buffer) :
    readAndCheckGptBy crc32 preadHeader preadEntries sectorOffset sectorSize
        sectors =
      (checkGptHeader crc32 (headerOf buffer) sectorOffset sectorSize
          sectors >>= fun tableBytes =>
        if tableBytes = 0 then .ok none
        else readEntriesBy crc32 preadEntries (headerOf buffer) tableBytes
          sectorSize) := by
  have hoffset : ¬ (sectorOffset ≠ 1 ∧ sectorOffset < 5) := by
    rintro ⟨hne, hlt⟩
    rcases h.offset with heq | hle
    · exact hne heq
    · exact UInt64.not_le.mpr hlt hle
  rw [QubesUtils.readAndCheckGptBy, if_neg (UInt64.not_le.mpr h.inside),
    if_neg hoffset, h.read]
  exact if_neg (not_not_intro h.whole)

/-- A read of the entries that fails ends the program with status zero. -/
theorem LostTable.readAndCheckGptBy
    (h : LostTable crc32 preadHeader preadEntries sectorOffset sectorSize
      sectors) :
    QubesUtils.readAndCheckGptBy crc32 preadHeader preadEntries sectorOffset
      sectorSize sectors = .error (.errx .tableReadError) := by
  obtain ⟨buffer, tableBytes, needed, hread, hcheck, hne, hround, hnone⟩ := h
  rw [hread.readAndCheckGptBy, hcheck]
  change (if tableBytes = 0 then _ else _) = _
  rw [if_neg hne, readEntriesBy, hround]
  change (orThrow _ _ >>= _) = _
  rw [hnone]
  rfl

/-- The ways in which `read_and_check_gpt` stops the program. -/
theorem readAndCheckGptBy_error (hsize : BlockSize sectorSize)
    (h : readAndCheckGptBy crc32 preadHeader preadEntries sectorOffset
      sectorSize sectors = .error stop) :
    (sectors < 6 ∧ stop = .abort) ∨
      (LostTable crc32 preadHeader preadEntries sectorOffset sectorSize
          sectors ∧ stop = .errx .tableReadError) ∨
      ReportedStop stop := by
  simp only [readAndCheckGptBy, ite_ok_eq_error, bind_eq_error,
    orThrow_eq_error, orThrow_eq_ok, ite_error_eq_error, ge_iff_le,
    UInt64.not_le] at h
  obtain ⟨hinside, hoffset, ⟨_, rfl⟩ | ⟨buffer, hread, h⟩⟩ := h
  · exact Or.inr (Or.inr (reported_errx (by simp)))
  · rcases h with ⟨_, rfl⟩ | ⟨hwhole, h⟩
    · exact Or.inr (Or.inr (reported_errx (by simp)))
    · have hoffset' : sectorOffset = 1 ∨ 5 ≤ sectorOffset := by
        rw [not_and_or, ne_eq, Decidable.not_not, UInt64.not_lt] at hoffset
        exact hoffset
      have hheader : HeaderRead preadHeader sectorOffset sectorSize sectors
          buffer := ⟨hinside, hoffset', hread, Decidable.not_not.mp hwhole⟩
      rcases h with h | ⟨tableBytes, hcheck, hne, h⟩
      · rcases checkGptHeader_error h with ⟨hassert, rfl⟩ | hreported
        · refine Or.inl ⟨UInt64.not_le.mp fun hsix => ?_, rfl⟩
          exact hassert ⟨hsix, hinside⟩
        · exact Or.inr (Or.inr hreported)
      · have haccepted := (checkGptHeader_eq_ok_iff hne).mp hcheck
        rcases readEntriesBy_error hsize haccepted.small
          (by rw [haccepted.entrySize]; decide) h with
          ⟨needed, hround, hnone, rfl⟩ | hreported
        · exact Or.inr (Or.inl ⟨⟨buffer, tableBytes, needed, hheader, hcheck,
            hne, hround, hnone⟩, rfl⟩)
        · exact Or.inr (Or.inr hreported)

end

/-! The course of `main`. -/

/-- The sizes and the protective MBR are accepted. -/
structure Started (reads : ReadCall → Pread) (sectorSize : UInt32)
    (size : UInt64) (skipBpbCheck : Bool) (sectors : UInt64) (mbr : Mbr) :
    Prop where
  sizes : checkSizes sectorSize size = .ok sectors
  mbr : ∃ buffer, reads .mbr sectorSize.toUInt64 0 = some buffer ∧
    buffer.length = sectorSize.toNat ∧
    checkMbr (mbrCodec.get (buffer.take mbrCodec.width)) sectors
      skipBpbCheck = .ok mbr

/-- There is no table for the device's own sector size, and the other one is
tried. -/
structure SearchesAgain (crc32 : List UInt8 → UInt32)
    (reads : ReadCall → Pread) (sectorSize : UInt32) (size : UInt64)
    (skipBpbCheck : Bool) (sectors : UInt64) (mbr : Mbr) : Prop where
  started : Started reads sectorSize size skipBpbCheck sectors mbr
  own : readEitherBy crc32 reads true sectorSize sectors = .ok none
  aligned : size % 4096 = 0

def otherSectorSize (sectorSize : UInt32) : UInt32 :=
  if sectorSize = 4096 then 512 else 4096

def otherSectors (sectorSize : UInt32) (sectors : UInt64) : UInt64 :=
  if sectorSize = 4096 then sectors <<< 3 else sectors >>> 3

theorem otherSectorSize_blockSize (sectorSize : UInt32) :
    BlockSize (otherSectorSize sectorSize) := by
  rw [otherSectorSize]
  split
  · exact Or.inl rfl
  · exact Or.inr rfl

/-- The ways in which a run of `main` ends. -/
inductive Course (crc32 : List UInt8 → UInt32) (reads : ReadCall → Pread)
    (sectorSize : UInt32) (size : UInt64) (mode : Mode)
    (skipBpbCheck : Bool) : EStateM.Result Stop (List Write) Unit → Prop
  | refused (stop : Stop) (hreported : ReportedStop stop)
      (hnot : ∀ sectors mbr,
        ¬ Started reads sectorSize size skipBpbCheck sectors mbr) :
      Course crc32 reads sectorSize size mode skipBpbCheck (.error stop [])
  | notFound (sectors : UInt64) (mbr : Mbr) (stop : Stop)
      (hreported : ReportedStop stop)
      (hstarted : Started reads sectorSize size skipBpbCheck sectors mbr)
      (hown : readEitherBy crc32 reads true sectorSize sectors = .ok none)
      (hother : size % 4096 = 0 → ∃ found,
        readEitherBy crc32 reads false (otherSectorSize sectorSize)
          (otherSectors sectorSize sectors) = .ok found) :
      Course crc32 reads sectorSize size mode skipBpbCheck (.error stop [])
  | ownStopped (sectors : UInt64) (mbr : Mbr) (stop : Stop)
      (hstarted : Started reads sectorSize size skipBpbCheck sectors mbr)
      (hown : readEitherBy crc32 reads true sectorSize sectors =
        .error stop) :
      Course crc32 reads sectorSize size mode skipBpbCheck (.error stop [])
  | ownFound (sectors : UInt64) (mbr : Mbr) (found : Bool × GPT)
      (hstarted : Started reads sectorSize size skipBpbCheck sectors mbr)
      (hown : readEitherBy crc32 reads true sectorSize sectors =
        .ok (some found)) :
      Course crc32 reads sectorSize size mode skipBpbCheck (.ok () [])
  | otherStopped (sectors : UInt64) (mbr : Mbr) (stop : Stop)
      (hagain : SearchesAgain crc32 reads sectorSize size skipBpbCheck
        sectors mbr)
      (hother : readEitherBy crc32 reads false (otherSectorSize sectorSize)
        (otherSectors sectorSize sectors) = .error stop) :
      Course crc32 reads sectorSize size mode skipBpbCheck (.error stop [])
  | otherFound (sectors : UInt64) (mbr : Mbr) (usedPrimary : Bool)
      (gpt : GPT) (hmode : mode = .fix)
      (hagain : SearchesAgain crc32 reads sectorSize size skipBpbCheck
        sectors mbr)
      (hother : readEitherBy crc32 reads false (otherSectorSize sectorSize)
        (otherSectors sectorSize sectors) = .ok (some (usedPrimary, gpt))) :
      Course crc32 reads sectorSize size mode skipBpbCheck
        ((replaceGpts crc32 usedPrimary sectors sectorSize gpt mbr).run [])

theorem checkSizes_error {sectorSize : UInt32} {size : UInt64} {stop : Stop}
    (h : checkSizes sectorSize size = .error stop) : ReportedStop stop := by
  simp only [checkSizes, ite_error_eq_error] at h
  rcases h with ⟨_, rfl⟩ | ⟨_, ⟨_, rfl⟩ | ⟨_, ⟨_, rfl⟩ | ⟨_, ⟨_, rfl⟩ |
    ⟨_, hok⟩⟩⟩⟩
  · exact reported_errx (by simp)
  · exact reported_errx (by simp)
  · exact reported_errx (by simp)
  · exact reported_errx (by simp)
  · cases hok

theorem checkMbr_error {mbr : Mbr} {sectors : UInt64} {skip : Bool}
    {stop : Stop} (h : checkMbr mbr sectors skip = .error stop) :
    ReportedStop stop := by
  simp only [checkMbr, ite_error_eq_error] at h
  rcases h with ⟨_, rfl⟩ | ⟨_, ⟨_, rfl⟩ | ⟨_, ⟨_, rfl⟩ | ⟨_, ⟨_, rfl⟩ |
    ⟨_, ⟨_, rfl⟩ | ⟨_, ⟨_, rfl⟩ | ⟨_, ⟨_, rfl⟩ | ⟨_, hok⟩⟩⟩⟩⟩⟩⟩
  · exact reported_errx (by simp)
  · exact reported_errx (by simp)
  · exact reported_errx (by simp)
  · exact reported_errx (by simp)
  · exact reported_errx (by simp)
  · exact reported_errx (by simp)
  · exact reported_errx (by simp)
  · simp only [pure, Except.pure, ite_ok_eq_error, reduceCtorEq, and_false]
      at hok

/-- The second search and the conversion. -/
theorem SearchesAgain.course {crc32 : List UInt8 → UInt32}
    {reads : ReadCall → Pread} {sectorSize : UInt32} {size sectors : UInt64}
    {skipBpbCheck : Bool} {mbr : Mbr} (mode : Mode)
    (h : SearchesAgain crc32 reads sectorSize size skipBpbCheck sectors mbr) :
    Course crc32 reads sectorSize size mode skipBpbCheck
      ((do
        let (usedPrimary, gpt) ← liftStop (do
          orThrow .cannotFindValidGpt
            (← readEitherBy crc32 reads false (otherSectorSize sectorSize)
              (otherSectors sectorSize sectors)))
        match mode with
        | .fix => replaceGpts crc32 usedPrimary sectors sectorSize gpt mbr
        | .check => throw (.errx .needsFix) : Writer Unit).run []) := by
  cases hother : readEitherBy crc32 reads false (otherSectorSize sectorSize)
      (otherSectors sectorSize sectors) with
  | error stop => exact .otherStopped sectors mbr stop h hother
  | ok found =>
      cases found with
      | none =>
          exact .notFound sectors mbr _ (reported_errx (by simp)) h.started
            h.own fun _ => ⟨_, hother⟩
      | some found =>
          obtain ⟨usedPrimary, gpt⟩ := found
          cases mode with
          | check =>
              exact .notFound sectors mbr _ (reported_errx (by simp))
                h.started h.own fun _ => ⟨_, hother⟩
          | fix =>
              exact .otherFound sectors mbr usedPrimary gpt rfl h hother

theorem Started.unique {reads : ReadCall → Pread} {sectorSize : UInt32}
    {size sectors sectors' : UInt64} {skipBpbCheck : Bool} {mbr mbr' : Mbr}
    (h : Started reads sectorSize size skipBpbCheck sectors mbr)
    (h' : Started reads sectorSize size skipBpbCheck sectors' mbr') :
    sectors = sectors' ∧ mbr = mbr' := by
  obtain rfl : sectors = sectors' :=
    Except.ok.inj (h.sizes.symm.trans h'.sizes)
  obtain ⟨buffer, hread, _, hmbr⟩ := h.mbr
  obtain ⟨buffer', hread', _, hmbr'⟩ := h'.mbr
  obtain rfl : buffer = buffer' := Option.some.inj (hread.symm.trans hread')
  exact ⟨rfl, Except.ok.inj (hmbr.symm.trans hmbr')⟩

theorem gptfixMainBy_course (crc32 : List UInt8 → UInt32)
    (reads : ReadCall → Pread) (sectorSize : UInt32) (size : UInt64)
    (mode : Mode) (skipBpbCheck : Bool) :
    Course crc32 reads sectorSize size mode skipBpbCheck
      ((gptfixMainBy crc32 reads sectorSize size mode
        skipBpbCheck).run []) := by
  rw [gptfixMainBy]
  cases hsizes : checkSizes sectorSize size with
  | error stop =>
      refine .refused stop (checkSizes_error hsizes) fun _ _ h => ?_
      cases hsizes.symm.trans h.sizes
  | ok sectors =>
  rw [liftStop_ok_bind]
  cases hread : reads .mbr sectorSize.toUInt64 0 with
  | none =>
      refine .refused _ (reported_errx (by simp)) fun _ _ h => ?_
      obtain ⟨_, hsome, _⟩ := h.mbr
      rw [hread] at hsome
      cases hsome
  | some buffer =>
  rw [orThrow, liftStop_ok_bind]
  by_cases hwhole : buffer.length = sectorSize.toNat
  · rw [if_neg (not_not_intro hwhole)]
    cases hmbr : checkMbr (mbrCodec.get (buffer.take mbrCodec.width)) sectors
        skipBpbCheck with
    | error stop =>
        refine .refused stop (checkMbr_error hmbr) fun _ _ h => ?_
        obtain ⟨_, hsome, _, hok⟩ := h.mbr
        obtain rfl := Option.some.inj (hread.symm.trans hsome)
        obtain rfl := Except.ok.inj (hsizes.symm.trans h.sizes)
        rw [hmbr] at hok
        cases hok
    | ok mbr =>
    have hstarted : Started reads sectorSize size skipBpbCheck sectors mbr :=
      ⟨hsizes, buffer, hread, hwhole, hmbr⟩
    rw [liftStop_ok_bind]
    cases hown : readEitherBy crc32 reads true sectorSize sectors with
    | error stop => exact .ownStopped sectors mbr stop hstarted hown
    | ok found =>
    rw [liftStop_ok_bind]
    cases found with
    | some found => exact .ownFound sectors mbr found hstarted hown
    | none =>
    by_cases haligned : size % 4096 = 0
    · rw [if_neg (not_not_intro haligned)]
      exact SearchesAgain.course mode ⟨hstarted, hown, haligned⟩
    · rw [if_pos haligned]
      exact .notFound sectors mbr _ (reported_errx (by simp)) hstarted hown
        fun h => absurd h haligned
  · rw [if_pos hwhole]
    refine .refused _ (reported_errx (by simp)) fun _ _ h => ?_
    obtain ⟨_, hsome, hlength, _⟩ := h.mbr
    obtain rfl := Option.some.inj (hread.symm.trans hsome)
    exact hwhole hlength

/-- One of the two reads stops, the second after the first found nothing. -/
theorem readEitherBy_eq_error_iff {crc32 : List UInt8 → UInt32}
    {reads : ReadCall → Pread} {own : Bool} {sectorSize : UInt32}
    {sectors : UInt64} {stop : Stop} :
    readEitherBy crc32 reads own sectorSize sectors = .error stop ↔
      readAndCheckGptBy crc32 (reads (.header own true))
          (reads (.entries own true)) 1 sectorSize sectors = .error stop ∨
      (readAndCheckGptBy crc32 (reads (.header own true))
          (reads (.entries own true)) 1 sectorSize sectors = .ok none ∧
        readAndCheckGptBy crc32 (reads (.header own false))
          (reads (.entries own false)) (sectors - 1) sectorSize sectors =
            .error stop) := by
  rw [readEitherBy, bind_eq_error]
  refine or_congr_right ⟨?_, ?_⟩
  · rintro ⟨primary, hprimary, h⟩
    cases primary with
    | some gpt => cases h
    | none =>
        simp only [bind_eq_error] at h
        rcases h with h | ⟨backup, _, h⟩
        · exact ⟨hprimary, h⟩
        · cases backup with
          | none => cases h
          | some gpt => cases h
  · rintro ⟨hprimary, h⟩
    refine ⟨none, hprimary, ?_⟩
    simp only [bind_eq_error]
    exact Or.inl h

/-! Nothing or both. -/

/-- A table that is found behind the other sector size has been checked. -/
theorem SearchesAgain.geometry {crc32 : List UInt8 → UInt32}
    {reads : ReadCall → Pread} {sectorSize : UInt32} {size sectors : UInt64}
    {skipBpbCheck : Bool} {mbr : Mbr} {usedPrimary : Bool} {gpt : GPT}
    (h : SearchesAgain crc32 reads sectorSize size skipBpbCheck sectors mbr)
    (hother : readEitherBy crc32 reads false (otherSectorSize sectorSize)
      (otherSectors sectorSize sectors) = .ok (some (usedPrimary, gpt))) :
    ∃ geo : Geometry, geo.size = size ∧ geo.sectorSize = sectorSize ∧
      geo.sectors = sectors ∧
      readEitherBy crc32 reads false geo.oldSectorSize geo.oldSectors =
        .ok (some (usedPrimary, gpt)) ∧
      TableShape gpt ∧ 4096 ≤ geo.size.toNat ∧
      gpt.sectorSize = geo.oldSectorSize := by
  obtain ⟨geo, hsize, hsectorSize, hsectors, hold, holdSectors⟩ :=
    checkSizes_geometry h.started.sizes (not_not_intro h.aligned)
  have hread : readEitherBy crc32 reads false geo.oldSectorSize
      geo.oldSectors = .ok (some (usedPrimary, gpt)) := by
    rw [hold, holdSectors]
    exact hother
  obtain ⟨hshape, hsame, hsix⟩ := readEitherBy_shape hread
  exact ⟨geo, hsize, hsectorSize, hsectors, hread, hshape,
    geo.nonempty (UInt64.le_iff_toNat_le.mp hsix), hsame⟩

/-- The calls for the two places stop for the same tables, and `main` in fix
mode stops before its first write, or it has found a table for the device's
own sector size and writes nothing, or both calls come to their end. -/
theorem gptfixMain_allOrNothing (crc32 : List UInt8 → UInt32) :
    (∀ (preadHeader preadEntries : Pread)
      (sectorOffset oldSectors size sectors : UInt64)
      (oldSectorSize sectorSize : UInt32) (gpt : GPT),
      readAndCheckGptBy crc32 preadHeader preadEntries sectorOffset
        oldSectorSize oldSectors = .ok (some gpt) →
      checkSizes sectorSize size = .ok sectors →
      (Installable crc32 1 sectorSize sectors gpt ↔
        Installable crc32 (sectors - 1) sectorSize sectors gpt)) ∧
    ∀ (reads : ReadCall → Pread) (sectorSize : UInt32) (size : UInt64)
      (skipBpbCheck : Bool),
      (∀ stop log, (gptfixMainBy crc32 reads sectorSize size .fix
        skipBpbCheck).run [] = .error stop log → log = []) ∧
      ∀ log, (gptfixMainBy crc32 reads sectorSize size .fix
          skipBpbCheck).run [] = .ok () log →
        (log = [] ∧ ∃ sectors found, checkSizes sectorSize size =
            .ok sectors ∧
          readEitherBy crc32 reads true sectorSize sectors =
            .ok (some found)) ∨
        ∃ geo : Geometry, geo.size = size ∧ geo.sectorSize = sectorSize ∧
          ∃ usedPrimary gpt mbr,
            readEitherBy crc32 reads false geo.oldSectorSize geo.oldSectors =
              .ok (some (usedPrimary, gpt)) ∧
            BothCompleted crc32 geo usedPrimary gpt mbr log := by
  refine ⟨?_, fun reads sectorSize size skipBpbCheck => ?_⟩
  · intro preadHeader preadEntries sectorOffset oldSectors size sectors
      oldSectorSize sectorSize gpt hread hsectors
    obtain ⟨hblock, hoff, haligned, _, hdiv⟩ :=
      checkSizes_eq_ok_iff.mp hsectors
    have hshape := (readAndCheckGptBy_shape hread).1
    have hfits : sectors.toNat * sectorSize.toNat < 2 ^ 63 := by
      rw [hdiv, UInt64.toNat_div, UInt32.toNat_toUInt64]
      exact Nat.lt_of_le_of_lt (Nat.div_mul_le_self _ _) hoff
    exact ⟨fun h => h.retarget hshape hblock hfits (Or.inr rfl),
      fun h => h.retarget hshape hblock hfits (Or.inl rfl)⟩
  have hcourse := gptfixMainBy_course crc32 reads sectorSize size .fix
    skipBpbCheck
  generalize (gptfixMainBy crc32 reads sectorSize size .fix
    skipBpbCheck).run [] = result at hcourse
  cases hcourse with
  | refused stop _ _ => exact ⟨fun _ _ h => by cases h; rfl, nofun⟩
  | notFound _ _ stop _ _ _ _ => exact ⟨fun _ _ h => by cases h; rfl, nofun⟩
  | ownStopped _ _ stop _ _ => exact ⟨fun _ _ h => by cases h; rfl, nofun⟩
  | otherStopped _ _ stop _ _ => exact ⟨fun _ _ h => by cases h; rfl, nofun⟩
  | ownFound sectors mbr found hstarted hown =>
      refine ⟨nofun, fun log h => Or.inl ?_⟩
      cases h
      exact ⟨rfl, sectors, found, hstarted.sizes, hown⟩
  | otherFound sectors mbr usedPrimary gpt _ hagain hother =>
      obtain ⟨geo, hsize, rfl, rfl, hread, hshape, hnonempty, hold⟩ :=
        hagain.geometry hother
      refine ⟨fun stop log hrun => replaceGpts_untouched hshape hnonempty hold
        usedPrimary [] stop log hrun, fun log hrun => Or.inr ?_⟩
      exact ⟨geo, hsize, rfl, usedPrimary, gpt, mbr, hread,
        replaceGpts_completed hshape hnonempty hold hrun⟩

/-- The sample device is converted: the backup first, in six writes. -/
theorem gptfixMain_allOrNothing_sample :
    (Installable zlibCrc32 1 4096 6 sampleGpt →
      Installable zlibCrc32 (6 - 1) 4096 6 sampleGpt) ∧
    ∃ log, (gptfixMain zlibCrc32 sampleDisk .fix false).run [] =
        .ok () log ∧
      log.length = 6 ∧
      ∃ geo : Geometry, geo.size = 24576 ∧ geo.sectorSize = 4096 ∧
        ∃ usedPrimary gpt mbr,
          BothCompleted zlibCrc32 geo usedPrimary gpt mbr log := by
  have hmain := gptfixMain_allOrNothing zlibCrc32
  refine ⟨(hmain.1 _ _ 1 48 24576 6 512 4096 sampleGpt sample_read rfl).mp, ?_⟩
  obtain ⟨hreturns, hlength⟩ :
      Hoare.returns (gptfixMain zlibCrc32 sampleDisk .fix false) [] = true ∧
        (Hoare.finalState (gptfixMain zlibCrc32 sampleDisk .fix false)
          []).length = 6 := by
    decide +kernel
  obtain ⟨_, hrun⟩ := Hoare.run_of_returns hreturns
  refine ⟨_, hrun, hlength, ?_⟩
  rcases (hmain.2 _ _ _ _).2 _ hrun with ⟨hnothing, _⟩ |
    ⟨geo, hsize, hsectorSize, usedPrimary, gpt, mbr, _, hboth⟩
  · rw [hnothing] at hlength
    cases hlength
  · exact ⟨geo, hsize, hsectorSize, usedPrimary, gpt, mbr, hboth⟩

end QubesUtils
