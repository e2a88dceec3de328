/-
The exit status of `gptfix`.  Zero is returned by `main`, and passed to `err`
where the read of a partition table fails.
-/
import QubesUtils.GptSearch

namespace QubesUtils

open ByteCodec

/-- The status that the caller sees; an abort is a signal. -/
def Stop.status : Stop → Nat
  | .abort => 134
  | .errx failure => failure.code

def exitStatus : EStateM.Result Stop (List Write) Unit → Nat
  | .ok _ _ => 0
  | .error stop _ => stop.status

theorem ReportedStop.status {stop : Stop} (h : ReportedStop stop) :
    stop.status ≠ 0 := by
  obtain ⟨failure, rfl, hcode⟩ := h
  exact hcode

/-! Computations that do not stop with status zero. -/

def Loud {α : Type} (x : Except Stop α) : Prop :=
  ∀ stop, x = .error stop → stop.status ≠ 0

theorem Loud.ok {α : Type} (a : α) : Loud (.ok a) := by
  intro stop h
  cases h

theorem Loud.pure {α : Type} (a : α) : Loud (Pure.pure a) := Loud.ok a

theorem Loud.bind {α β : Type} {x : Except Stop α} {f : α → Except Stop β}
    (hx : Loud x) (hf : ∀ a, Loud (f a)) : Loud (x >>= f) := by
  intro stop h
  rcases bind_eq_error.mp h with h | ⟨a, _, h⟩
  · exact hx stop h
  · exact hf a stop h

theorem Loud.assertC (condition : Prop) [Decidable condition] :
    Loud (QubesUtils.assertC condition) := by
  intro stop h
  obtain ⟨_, rfl⟩ := assertC_eq_error.mp h
  decide

theorem Loud.ite {α : Type} {condition : Prop} [Decidable condition]
    {failure : Failure} {x : Except Stop α} (hcode : failure.code ≠ 0)
    (hx : Loud x) :
    Loud (if condition then .error (.errx failure) else x) := by
  intro stop h
  rcases ite_error_eq_error.mp h with ⟨_, rfl⟩ | ⟨_, h⟩
  · exact hcode
  · exact hx stop h

theorem roundToNextSector_loud (value : UInt64) (sectorSize : UInt32) :
    Loud (roundToNextSector value sectorSize) :=
  (Loud.assertC _).bind fun _ => (Loud.assertC _).bind fun _ => Loud.pure _

theorem requiredBytes_loud (gpt : GPT) (sectorSize entries : UInt32) :
    Loud (gptPartitionTableRequiredBytes gpt sectorSize entries) :=
  (Loud.assertC _).bind fun _ => roundToNextSector_loud _ _

theorem scanEntries_loud (oldSectorSize sectorSize : UInt32)
    (entries : List GPTPartitionEntry) :
    ∀ i extent,
      Loud (scanEntries oldSectorSize sectorSize entries i extent) := by
  induction entries with
  | nil => exact fun _ extent => Loud.ok extent
  | cons entry entries ih =>
      intro i extent
      rw [scanEntries]
      by_cases hunused : unusedEntry entry = true
      · rw [if_pos hunused]
        exact ih _ _
      · rw [if_neg hunused]
        refine Loud.bind ?_ fun _ => ih _ _
        exact Loud.ite (by decide : EXIT_CONSTRAINT ≠ 0)
          (Loud.ite (by decide : EXIT_CONSTRAINT ≠ 0) (Loud.ok _))

theorem checkRoom_loud (gpt : GPT) (sectorSize : UInt32) (size : UInt64)
    (extent : UsedExtent) : Loud (checkRoom gpt sectorSize size extent) := by
  refine (Loud.assertC _).bind fun _ =>
    (requiredBytes_loud _ _ _).bind fun _ => (Loud.assertC _).bind fun _ => ?_
  exact Loud.ite (by decide : EXIT_CONSTRAINT ≠ 0)
    (Loud.ite (by decide : EXIT_CONSTRAINT ≠ 0) (Loud.ok _))

theorem gptAdjustSectors_loud (crc32 : List UInt8 → UInt32)
    (target : UInt64) (sectorSize : UInt32) (sectors : UInt64) (gpt : GPT) :
    Loud (gptAdjustSectors crc32 target sectorSize sectors gpt) := by
  rw [gptAdjustSectors]
  refine (Loud.assertC _).bind fun _ => (Loud.assertC _).bind fun _ =>
    (Loud.assertC _).bind fun _ => (Loud.assertC _).bind fun _ =>
      (Loud.assertC _).bind fun _ => ?_
  refine (scanEntries_loud _ _ _ _ _).bind fun extent =>
    (checkRoom_loud _ _ _ _).bind fun _ => ?_
  refine ((Loud.assertC _).bind fun _ => Loud.pure _).bind fun count =>
    (requiredBytes_loud _ _ _).bind fun tableBytes => ?_
  refine ((roundToNextSector_loud _ _).bind fun _ => Loud.pure _).bind
    fun header => (Loud.assertC _).bind fun _ => ?_
  exact (Loud.assertC _).bind fun _ => Loud.pure _

theorem checkGptHeader_loud (crc32 : List UInt8 → UInt32)
    (header : GPTHeader) (sectorOffset : UInt64) (sectorSize : UInt32)
    (sectors : UInt64) :
    Loud (checkGptHeader crc32 header sectorOffset sectorSize sectors) := by
  intro stop h
  rcases checkGptHeader_error h with ⟨_, rfl⟩ | hreported
  · decide
  · exact hreported.status

/-- A program that does not stop with status zero. -/
def LoudWriter {α : Type} (program : Writer α) : Prop :=
  ∀ log stop log', program.run log = .error stop log' → stop.status ≠ 0

theorem LoudWriter.bind {α β : Type} {program : Writer α}
    {next : α → Writer β} (hprogram : LoudWriter program)
    (hnext : ∀ a, LoudWriter (next a)) : LoudWriter (program >>= next) := by
  intro log stop log' hrun
  rw [EStateM.run_bind] at hrun
  cases hfirst : program.run log with
  | error stop' middle =>
      rw [hfirst] at hrun
      cases hrun
      exact hprogram log stop log' hfirst
  | ok a middle =>
      rw [hfirst] at hrun
      exact hnext a middle stop log' hrun

theorem LoudWriter.liftStop {α : Type} {x : Except Stop α} (h : Loud x) :
    LoudWriter (QubesUtils.liftStop x) := by
  intro log stop log' hrun
  cases x with
  | ok a => cases hrun
  | error stop' =>
      cases hrun
      exact h stop rfl

theorem syncPwrite_loud (data : List UInt8) (offset : UInt64) :
    LoudWriter (syncPwrite data offset) := by
  refine (LoudWriter.liftStop (Loud.assertC _)).bind fun _ =>
    (LoudWriter.liftStop (Loud.assertC _)).bind fun _ => ?_
  intro log stop log' hrun
  cases hrun

theorem clearOld_loud (target sectors : UInt64) (sectorSize : UInt32)
    (gpt : GPT) (mbr : Mbr) :
    LoudWriter (clearOld target sectors sectorSize gpt mbr) := by
  have hassert : ∀ (condition : Prop) [Decidable condition],
      LoudWriter (liftStop (assertC condition)) :=
    fun _ _ => LoudWriter.liftStop (Loud.assertC _)
  rw [clearOld]
  split
  · exact syncPwrite_loud _ _
  · split
    · split
      · exact (hassert _).bind fun _ => syncPwrite_loud _ _
      · exact (hassert _).bind fun _ => (hassert _).bind fun _ =>
          (syncPwrite_loud _ _).bind fun _ =>
            (syncPwrite_loud _ _).bind fun _ => syncPwrite_loud _ _
    · exact hassert _

theorem createNewGpt_loud (crc32 : List UInt8 → UInt32)
    (target sectors : UInt64) (sectorSize : UInt32) (gpt : GPT)
    (mbr : Mbr) :
    LoudWriter (createNewGpt crc32 target sectors sectorSize gpt mbr) := by
  rw [createNewGpt]
  refine (LoudWriter.liftStop (gptAdjustSectors_loud _ _ _ _ _)).bind
    fun result => ?_
  refine (LoudWriter.liftStop (checkGptHeader_loud _ _ _ _ _)).bind
    fun checked => ?_
  refine (LoudWriter.liftStop (Loud.assertC _)).bind fun _ =>
    (LoudWriter.liftStop (Loud.assertC _)).bind fun _ => ?_
  exact (clearOld_loud _ _ _ _ _).bind fun _ =>
    (syncPwrite_loud _ _).bind fun _ => syncPwrite_loud _ _

theorem replaceGpts_loud (crc32 : List UInt8 → UInt32) (usedPrimary : Bool)
    (sectors : UInt64) (sectorSize : UInt32) (gpt : GPT) (mbr : Mbr) :
    LoudWriter (replaceGpts crc32 usedPrimary sectors sectorSize gpt mbr) :=
  (createNewGpt_loud _ _ _ _ _ _).bind fun _ => createNewGpt_loud _ _ _ _ _ _

/-- A table for the device's own sector size was accepted, or both copies
were written for it. -/
def Successful (crc32 : List UInt8 → UInt32) (reads : ReadCall → Pread)
    (sectorSize : UInt32) (size : UInt64) (mode : Mode)
    (skipBpbCheck : Bool) : Prop :=
  ∃ sectors mbr,
    Started reads sectorSize size skipBpbCheck sectors mbr ∧
    ((∃ found, readEitherBy crc32 reads true sectorSize sectors =
        .ok (some found)) ∨
      (mode = .fix ∧
        readEitherBy crc32 reads true sectorSize sectors = .ok none ∧
        ∃ usedPrimary gpt log,
          readEitherBy crc32 reads false (otherSectorSize sectorSize)
            (otherSectors sectorSize sectors) =
              .ok (some (usedPrimary, gpt)) ∧
          (replaceGpts crc32 usedPrimary sectors sectorSize gpt mbr).run
            [] = .ok () log))

/-- Status zero is kept for success. -/
def SoundStatus (crc32 : List UInt8 → UInt32) (reads : ReadCall → Pread)
    (sectorSize : UInt32) (size : UInt64) (mode : Mode)
    (skipBpbCheck : Bool) : Prop :=
  exitStatus ((gptfixMainBy crc32 reads sectorSize size mode
      skipBpbCheck).run []) = 0 →
    Successful crc32 reads sectorSize size mode skipBpbCheck

/-- One of the searches comes to an accepted header whose entries cannot be
read. -/
def LosesTable (crc32 : List UInt8 → UInt32) (reads : ReadCall → Pread)
    (own : Bool) (sectorSize : UInt32) (sectors : UInt64) : Prop :=
  LostTable crc32 (reads (.header own true)) (reads (.entries own true)) 1
      sectorSize sectors ∨
    (readAndCheckGptBy crc32 (reads (.header own true))
        (reads (.entries own true)) 1 sectorSize sectors = .ok none ∧
      LostTable crc32 (reads (.header own false)) (reads (.entries own false))
        (sectors - 1) sectorSize sectors)

/-- A `pread` of a partition table that `main` gets to fails. -/
def TableReadFails (crc32 : List UInt8 → UInt32) (reads : ReadCall → Pread)
    (sectorSize : UInt32) (size : UInt64) (skipBpbCheck : Bool) : Prop :=
  ∃ sectors mbr,
    Started reads sectorSize size skipBpbCheck sectors mbr ∧
    (LosesTable crc32 reads true sectorSize sectors ∨
      (readEitherBy crc32 reads true sectorSize sectors = .ok none ∧
        size % 4096 = 0 ∧
        LosesTable crc32 reads false (otherSectorSize sectorSize)
          (otherSectors sectorSize sectors)))

section

variable {crc32 : List UInt8 → UInt32} {reads : ReadCall → Pread}
  {own : Bool} {sectorSize : UInt32} {size sectors : UInt64}

theorem LosesTable.readEitherBy
    (h : LosesTable crc32 reads own sectorSize sectors) :
    QubesUtils.readEitherBy crc32 reads own sectorSize sectors =
      .error (.errx .tableReadError) := by
  rw [readEitherBy_eq_error_iff]
  rcases h with h | ⟨hprimary, h⟩
  · exact Or.inl h.readAndCheckGptBy
  · exact Or.inr ⟨hprimary, h.readAndCheckGptBy⟩

/-- A search stops with status zero only where the entries cannot be read. -/
theorem readEitherBy_losesTable (hsize : BlockSize sectorSize) {stop : Stop}
    (h : readEitherBy crc32 reads own sectorSize sectors = .error stop)
    (hzero : stop.status = 0) :
    LosesTable crc32 reads own sectorSize sectors := by
  have hlost : ∀ {preadHeader preadEntries : Pread} {offset : UInt64},
      readAndCheckGptBy crc32 preadHeader preadEntries offset sectorSize
        sectors = .error stop →
      LostTable crc32 preadHeader preadEntries offset sectorSize
        sectors := by
    intro preadHeader preadEntries offset h
    rcases readAndCheckGptBy_error hsize h with
      ⟨_, rfl⟩ | ⟨hlost, _⟩ | hreported
    · cases hzero
    · exact hlost
    · exact absurd hzero hreported.status
  rcases readEitherBy_eq_error_iff.mp h with h | ⟨hprimary, h⟩
  · exact Or.inl (hlost h)
  · exact Or.inr ⟨hprimary, hlost h⟩

end

/-- The read that fails is the end of the run, and the status is zero. -/
theorem TableReadFails.exitStatus {crc32 : List UInt8 → UInt32}
    {reads : ReadCall → Pread} {sectorSize : UInt32} {size : UInt64}
    {mode : Mode} {skipBpbCheck : Bool}
    {result : EStateM.Result Stop (List Write) Unit}
    (h : TableReadFails crc32 reads sectorSize size skipBpbCheck)
    (hcourse : Course crc32 reads sectorSize size mode skipBpbCheck
      result) : exitStatus result = 0 := by
  obtain ⟨sectors, mbr, hstarted, hlost⟩ := h
  have hown : readEitherBy crc32 reads true sectorSize sectors =
        .error (.errx .tableReadError) ∨
      (readEitherBy crc32 reads true sectorSize sectors = .ok none ∧
        size % 4096 = 0 ∧
        readEitherBy crc32 reads false (otherSectorSize sectorSize)
          (otherSectors sectorSize sectors) =
            .error (.errx .tableReadError)) := by
    rcases hlost with hlost | ⟨hnone, haligned, hlost⟩
    · exact Or.inl hlost.readEitherBy
    · exact Or.inr ⟨hnone, haligned, hlost.readEitherBy⟩
  cases hcourse with
  | refused stop _ hnot => exact absurd hstarted (hnot _ _)
  | notFound sectors' mbr' stop _ hstarted' hown' hother =>
      obtain ⟨rfl, rfl⟩ := hstarted.unique hstarted'
      rcases hown with hstop | ⟨_, haligned, hstop⟩
      · cases hstop.symm.trans hown'
      · obtain ⟨found, hfound⟩ := hother haligned
        cases hstop.symm.trans hfound
  | ownStopped sectors' mbr' stop hstarted' hown' =>
      obtain ⟨rfl, rfl⟩ := hstarted.unique hstarted'
      rcases hown with hstop | ⟨hnone, _, _⟩
      · cases hstop.symm.trans hown'
        rfl
      · cases hnone.symm.trans hown'
  | ownFound sectors' mbr' found hstarted' hown' =>
      obtain ⟨rfl, rfl⟩ := hstarted.unique hstarted'
      rfl
  | otherStopped sectors' mbr' stop hagain hother =>
      obtain ⟨rfl, rfl⟩ := hstarted.unique hagain.started
      rcases hown with hstop | ⟨_, _, hstop⟩
      · cases hstop.symm.trans hagain.own
      · cases hstop.symm.trans hother
        rfl
  | otherFound sectors' mbr' usedPrimary gpt _ hagain hother =>
      obtain ⟨rfl, rfl⟩ := hstarted.unique hagain.started
      rcases hown with hstop | ⟨_, _, hstop⟩
      · cases hstop.symm.trans hagain.own
      · cases hstop.symm.trans hother

/-- Neither search has found a table. -/
theorem TableReadFails.not_found {crc32 : List UInt8 → UInt32}
    {reads : ReadCall → Pread} {sectorSize : UInt32} {size : UInt64}
    {mode : Mode} {skipBpbCheck : Bool}
    (h : TableReadFails crc32 reads sectorSize size skipBpbCheck) :
    ¬ Successful crc32 reads sectorSize size mode skipBpbCheck := by
  rintro ⟨sectors', mbr', hstarted', hfound⟩
  obtain ⟨sectors, mbr, hstarted, hlost⟩ := h
  obtain ⟨rfl, rfl⟩ := hstarted.unique hstarted'
  rcases hfound with ⟨found, hown⟩ | ⟨_, hown, _, _, _, hother, _⟩
  · rcases hlost with hlost | ⟨hnone, _⟩
    · cases hlost.readEitherBy.symm.trans hown
    · cases hnone.symm.trans hown
  · rcases hlost with hlost | ⟨_, _, hlost⟩
    · cases hlost.readEitherBy.symm.trans hown
    · cases hlost.readEitherBy.symm.trans hother

/-- The exit status is sound exactly if no read of a partition table that
`main` gets to fails. -/
theorem gptfixMain_soundStatus_iff (crc32 : List UInt8 → UInt32)
    (reads : ReadCall → Pread) (sectorSize : UInt32) (size : UInt64)
    (mode : Mode) (skipBpbCheck : Bool) :
    SoundStatus crc32 reads sectorSize size mode skipBpbCheck ↔
      ¬ TableReadFails crc32 reads sectorSize size skipBpbCheck := by
  have hcourse := gptfixMainBy_course crc32 reads sectorSize size mode
    skipBpbCheck
  rw [SoundStatus]
  generalize (gptfixMainBy crc32 reads sectorSize size mode
    skipBpbCheck).run [] = result at hcourse ⊢
  constructor
  · intro hsound hfails
    exact hfails.not_found (hsound (hfails.exitStatus hcourse))
  · intro hreads hzero
    cases hcourse with
    | refused stop hreported _ => exact absurd hzero hreported.status
    | notFound sectors mbr stop hreported _ _ _ =>
        exact absurd hzero hreported.status
    | ownStopped sectors mbr stop hstarted hown =>
        have hblock := (checkSizes_eq_ok_iff.mp hstarted.sizes).1
        exact absurd ⟨sectors, mbr, hstarted,
          Or.inl (readEitherBy_losesTable hblock hown hzero)⟩ hreads
    | ownFound sectors mbr found hstarted hown =>
        exact ⟨sectors, mbr, hstarted, Or.inl ⟨found, hown⟩⟩
    | otherStopped sectors mbr stop hagain hother =>
        exact absurd ⟨sectors, mbr, hagain.started, Or.inr ⟨hagain.own,
          hagain.aligned, readEitherBy_losesTable
            (otherSectorSize_blockSize sectorSize) hother hzero⟩⟩ hreads
    | otherFound sectors mbr usedPrimary gpt hmode hagain hother =>
        cases hrun : (replaceGpts crc32 usedPrimary sectors sectorSize gpt
            mbr).run [] with
        | ok u log =>
            exact ⟨sectors, mbr, hagain.started, Or.inr ⟨hmode, hagain.own,
              usedPrimary, gpt, log, hother, hrun⟩⟩
        | error stop log =>
            rw [hrun] at hzero
            exact absurd hzero (replaceGpts_loud _ _ _ _ _ _ _ _ _ hrun)

/-- A backup header whose table would begin behind the largest offset that
`pread` takes. -/
def farHeader : GPTHeader :=
  let header := { sampleHeader with
    headerCRC32 := 0
    myLBA := 18014398509481985
    alternateLBA := 1
    partitionEntryLBA := 18014398509481984 }
  { header with headerCRC32 := zlibCrc32 (gptHeaderCodec.put header) }

/-- A device of 48 sectors with a protective MBR and no other table. -/
def farDisk : Disk where
  sectorSize := 512
  size := 24576
  byte i :=
    if i < 512 then (mbrCodec.put sampleMbr).getD i 0
    else if i < 24064 then 0
    else (gptHeaderCodec.put farHeader).getD (i - 24064) 0

theorem farDisk_tableReadFails :
    TableReadFails zlibCrc32 (fun _ => farDisk.pread) 512 24576 false := by
  have hmbr : (checkMbr (mbrCodec.get ((Store.read farDisk.byte 0 512).take
      mbrCodec.width)) 48 false).isOk := by
    decide +kernel
  cases hcheck : checkMbr (mbrCodec.get ((Store.read farDisk.byte 0 512).take
      mbrCodec.width)) 48 false with
  | error stop =>
      rw [hcheck] at hmbr
      cases hmbr
  | ok mbr =>
      refine ⟨48, mbr, ⟨by decide, _, rfl, Store.length_read _ _ _,
        hcheck⟩, Or.inl (Or.inr
        ⟨by decide +kernel, Store.read farDisk.byte 24064 512, 128, 512,
          ⟨by decide, by decide, rfl, Store.length_read _ _ _⟩,
          by decide +kernel,
          by decide, by decide, by decide +kernel⟩)⟩

theorem farDisk_unsound (mode : Mode) :
    exitStatus ((gptfixMain zlibCrc32 farDisk mode false).run []) = 0 ∧
      ¬ SoundStatus zlibCrc32 (fun _ => farDisk.pread) 512 24576 mode
        false := by
  have hzero := farDisk_tableReadFails.exitStatus
    (gptfixMainBy_course zlibCrc32 (fun _ => farDisk.pread) 512 24576 mode
      false)
  exact ⟨hzero, fun hsound =>
    farDisk_tableReadFails.not_found (hsound hzero)⟩

/-- `main` reports success for it, in both modes. -/
theorem farDisk_statusZero :
    (exitStatus ((gptfixMain zlibCrc32 farDisk .check false).run []) = 0 ∧
      ¬ SoundStatus zlibCrc32 (fun _ => farDisk.pread) 512 24576 .check
        false) ∧
    (exitStatus ((gptfixMain zlibCrc32 farDisk .fix false).run []) = 0 ∧
      ¬ SoundStatus zlibCrc32 (fun _ => farDisk.pread) 512 24576 .fix
        false) :=
  ⟨farDisk_unsound .check, farDisk_unsound .fix⟩

end QubesUtils
