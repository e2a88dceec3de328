/-
The on-disk structures of `gptfixer/gpt.c` and the checks that accept or
refuse a partition table.  The CRC comes from zlib and is a parameter; warnings
and the verbose log are left out.
-/
import QubesUtils.ByteCodec
import QubesUtils.Store

namespace QubesUtils

open ByteCodec

structure Guid where
  first : UInt32
  second : UInt16
  third : UInt16
  rest : Vector UInt8 8
deriving DecidableEq

structure GPTHeader where
  signature : Vector UInt8 8
  revision : UInt32
  headerSize : UInt32
  headerCRC32 : UInt32
  reserved : UInt32
  myLBA : UInt64
  alternateLBA : UInt64
  firstUsableLBA : UInt64
  lastUsableLBA : UInt64
  diskGUID : Guid
  partitionEntryLBA : UInt64
  numberOfPartitionEntries : UInt32
  sizeOfPartitionEntry : UInt32
  partitionEntryArrayCRC32 : UInt32
deriving DecidableEq

structure GPTPartitionEntry where
  partitionTypeGUID : Guid
  uniquePartitionGUID : Guid
  startingLBA : UInt64
  endingLBA : UInt64
  attributes : UInt64
  partitionName : Vector UInt8 72
deriving DecidableEq

structure MbrPartitionRecord where
  bootIndicator : UInt8
  startingChs : Vector UInt8 3
  osType : UInt8
  endingChs : Vector UInt8 3
  startingLba : UInt32
  sizeInLba : UInt32
deriving DecidableEq

structure Mbr where
  jmp : Vector UInt8 3
  name : Vector UInt8 8
  bytesPerSector : Vector UInt8 2
  sectorsPerCluster : UInt8
  bootCode : Vector UInt8 426
  uniqueMbrDiskSignature : Vector UInt8 4
  unknown : Vector UInt8 2
  record₁ : MbrPartitionRecord
  record₂ : MbrPartitionRecord
  record₃ : MbrPartitionRecord
  record₄ : MbrPartitionRecord
  signature : Vector UInt8 2
deriving DecidableEq

def guidCodec : Codec Guid :=
  (u32.prod (u16.prod (u16.prod (raw 8)))).iso
    (fun (first, second, third, rest) => ⟨first, second, third, rest⟩)
    (fun g => (g.first, g.second, g.third, g.rest))
    (fun _ => rfl) (fun _ => rfl)

def gptHeaderCodec : Codec GPTHeader :=
  ((raw 8).prod <| u32.prod <| u32.prod <| u32.prod <| u32.prod <|
    u64.prod <| u64.prod <| u64.prod <| u64.prod <| guidCodec.prod <|
    u64.prod <| u32.prod <| u32.prod u32).iso
    (fun (signature, revision, headerSize, headerCRC32, reserved, myLBA,
        alternateLBA, firstUsableLBA, lastUsableLBA, diskGUID,
        partitionEntryLBA, numberOfPartitionEntries, sizeOfPartitionEntry,
        partitionEntryArrayCRC32) =>
      ⟨signature, revision, headerSize, headerCRC32, reserved, myLBA,
        alternateLBA, firstUsableLBA, lastUsableLBA, diskGUID,
        partitionEntryLBA, numberOfPartitionEntries, sizeOfPartitionEntry,
        partitionEntryArrayCRC32⟩)
    (fun h => (h.signature, h.revision, h.headerSize, h.headerCRC32,
      h.reserved, h.myLBA, h.alternateLBA, h.firstUsableLBA,
      h.lastUsableLBA, h.diskGUID, h.partitionEntryLBA,
      h.numberOfPartitionEntries, h.sizeOfPartitionEntry,
      h.partitionEntryArrayCRC32))
    (fun _ => rfl) (fun _ => rfl)

def gptPartitionEntryCodec : Codec GPTPartitionEntry :=
  (guidCodec.prod <| guidCodec.prod <| u64.prod <| u64.prod <|
    u64.prod (raw 72)).iso
    (fun (typeGUID, uniqueGUID, startingLBA, endingLBA, attributes, name) =>
      ⟨typeGUID, uniqueGUID, startingLBA, endingLBA, attributes, name⟩)
    (fun e => (e.partitionTypeGUID, e.uniquePartitionGUID, e.startingLBA,
      e.endingLBA, e.attributes, e.partitionName))
    (fun _ => rfl) (fun _ => rfl)

def mbrPartitionRecordCodec : Codec MbrPartitionRecord :=
  (u8.prod <| (raw 3).prod <| u8.prod <| (raw 3).prod <| u32.prod u32).iso
    (fun (bootIndicator, startingChs, osType, endingChs, startingLba,
        sizeInLba) =>
      ⟨bootIndicator, startingChs, osType, endingChs, startingLba,
        sizeInLba⟩)
    (fun r => (r.bootIndicator, r.startingChs, r.osType, r.endingChs,
      r.startingLba, r.sizeInLba))
    (fun _ => rfl) (fun _ => rfl)

def mbrCodec : Codec Mbr :=
  ((raw 3).prod <| (raw 8).prod <| (raw 2).prod <| u8.prod <|
    (raw 426).prod <| (raw 4).prod <| (raw 2).prod <|
    mbrPartitionRecordCodec.prod <| mbrPartitionRecordCodec.prod <|
    mbrPartitionRecordCodec.prod <| mbrPartitionRecordCodec.prod (raw 2)).iso
    (fun (jmp, name, bytesPerSector, sectorsPerCluster, bootCode,
        diskSignature, unknown, record₁, record₂, record₃, record₄,
        signature) =>
      ⟨jmp, name, bytesPerSector, sectorsPerCluster, bootCode,
        diskSignature, unknown, record₁, record₂, record₃, record₄,
        signature⟩)
    (fun m => (m.jmp, m.name, m.bytesPerSector, m.sectorsPerCluster,
      m.bootCode, m.uniqueMbrDiskSignature, m.unknown, m.record₁, m.record₂,
      m.record₃, m.record₄, m.signature))
    (fun _ => rfl) (fun _ => rfl)

example : gptHeaderCodec.width = 92 ∧ gptPartitionEntryCodec.width = 128 ∧
    mbrCodec.width = 512 := by
  decide

/-- `"EFI PART"` -/
def efiPart : Vector UInt8 8 :=
  #v[0x45, 0x46, 0x49, 0x20, 0x50, 0x41, 0x52, 0x54]

def mbrSignature : Vector UInt8 2 := #v[0x55, 0xAA]

/-- The calls of `errx` and `err`, with what their messages report. -/
inductive Failure
  | invalidMbrSignature (first second : UInt8)
  | notProtectiveMbr
  | recordNotZeroed (record : Nat)
  | notAtFirstBlock
  | mightOverlapVolume
  | startNotMultiple (partition : UInt32) (offset : UInt64)
      (sectorSize : UInt32)
  | endNotMultiple (partition : UInt32) (offset : UInt64)
      (sectorSize : UInt32)
  | noRoomForBackup (partition : UInt32) (lastEnd left required : UInt64)
  | noRoomForPrimary (required : UInt64) (partition : UInt32)
      (firstStart : UInt64)
  | entryTooLarge (size : UInt32)
  | truncated (alternateLBA sectors : UInt64)
  | tableTooLarge (size : UInt64)
  | headerRead
  | tableReadError
  | tableShortRead (expected : UInt64) (actual : Nat)
  | noUsedPartitions
  | unsupportedBlockSize (sectorSize : UInt32)
  | sizeNotOffT (size : UInt64)
  | sizeNotMultiple (size : UInt64) (sectorSize : UInt32)
  | tooFewSectors (sectors : UInt64)
  | mbrRead
  | diskSizeNotMultiple
  | cannotFindValidGpt
  | needsFix
deriving DecidableEq

def EXIT_SUCCESS : Nat := 0
def EXIT_IO : Nat := 2
def EXIT_UNSUPPORTED : Nat := 3
def EXIT_NOT_PARTITIONED : Nat := 4
def EXIT_INVALID_GPT : Nat := 5
def EXIT_CONSTRAINT : Nat := 6
def EXIT_NEEDS_FIX : Nat := 7
def EXIT_TRUNCATED : Nat := 8

def Failure.code : Failure → Nat
  | invalidMbrSignature _ _ => EXIT_NOT_PARTITIONED
  | notProtectiveMbr => EXIT_UNSUPPORTED
  | recordNotZeroed _ => EXIT_UNSUPPORTED
  | notAtFirstBlock => EXIT_INVALID_GPT
  | mightOverlapVolume => EXIT_UNSUPPORTED
  | startNotMultiple _ _ _ => EXIT_CONSTRAINT
  | endNotMultiple _ _ _ => EXIT_CONSTRAINT
  | noRoomForBackup _ _ _ _ => EXIT_CONSTRAINT
  | noRoomForPrimary _ _ _ => EXIT_CONSTRAINT
  | entryTooLarge _ => EXIT_UNSUPPORTED
  | truncated _ _ => EXIT_TRUNCATED
  | tableTooLarge _ => EXIT_UNSUPPORTED
  | headerRead => EXIT_IO
  | tableReadError => EXIT_SUCCESS
  | tableShortRead _ _ => EXIT_IO
  | noUsedPartitions => EXIT_UNSUPPORTED
  | unsupportedBlockSize _ => EXIT_UNSUPPORTED
  | sizeNotOffT _ => EXIT_UNSUPPORTED
  | sizeNotMultiple _ _ => EXIT_UNSUPPORTED
  | tooFewSectors _ => EXIT_UNSUPPORTED
  | mbrRead => EXIT_IO
  | diskSizeNotMultiple => EXIT_UNSUPPORTED
  | cannotFindValidGpt => EXIT_INVALID_GPT
  | needsFix => EXIT_NEEDS_FIX

/-- The ways in which the program stops early. -/
inductive Stop
  | abort
  | errx (failure : Failure)
deriving DecidableEq

/-- `assert` -/
def assertC (condition : Prop) [Decidable condition] : Except Stop Unit :=
  if condition then .ok () else .error .abort

/-- The value of a call that succeeded. -/
def orThrow {α : Type} (failure : Failure) : Option α → Except Stop α
  | none => .error (.errx failure)
  | some a => .ok a

/-- One call of `pread`: the bytes that it delivers for a count and an offset,
or nothing if it fails. -/
abbrev Pread := UInt64 → UInt64 → Option (List UInt8)

/-- A block device as `BLKSSZGET` and `BLKGETSIZE64` describe it. -/
structure Disk where
  sectorSize : UInt32
  size : UInt64
  byte : Nat → UInt8

/-- The bytes that `pread` delivers, or nothing if they end behind the
largest offset. -/
def Disk.pread (disk : Disk) : Pread := fun count offset =>
  if 2 ^ 63 ≤ offset.toNat + count.toNat then none
  else some (Store.read disk.byte offset.toNat
    (min count.toNat (disk.size.toNat - offset.toNat)))

/-- `struct GPT`; the entries are those of the header's count. -/
structure GPT where
  header : GPTHeader
  usedEntries : UInt32
  entries : List GPTPartitionEntry
  sectorSize : UInt32
deriving DecidableEq

def validSectorSize (sectorSize : UInt32) : Bool :=
  decide (512 ≤ sectorSize) && (sectorSize &&& (sectorSize - 1)) == 0

def gptPartitionTableBytes (header : GPTHeader) : UInt64 :=
  header.numberOfPartitionEntries.toUInt64 *
    header.sizeOfPartitionEntry.toUInt64

def roundToNextSector (value : UInt64) (sectorSize : UInt32) :
    Except Stop UInt64 := do
  assertC (validSectorSize sectorSize = true)
  let sum := value + (sectorSize - 1).toUInt64
  assertC (value.toNat + (sectorSize - 1).toNat < 2 ^ 64)
  return sum &&& ~~~(sectorSize - 1).toUInt64

def unusedEntry (entry : GPTPartitionEntry) : Bool :=
  guidCodec.put entry.partitionTypeGUID == List.replicate 16 0

def zeroRecord : MbrPartitionRecord :=
  mbrPartitionRecordCodec.get (List.replicate 16 0)

/-- `check_mbr`, with the record that it may have changed. -/
def checkMbr (mbr : Mbr) (sizeInSectors : UInt64) (skipBpbCheck : Bool) :
    Except Stop Mbr := do
  if mbr.signature ≠ mbrSignature then
    .error (.errx (.invalidMbrSignature mbr.signature[0] mbr.signature[1]))
  else if mbr.record₁.osType ≠ 0xEE then
    .error (.errx .notProtectiveMbr)
  else if mbr.record₂ ≠ zeroRecord then
    .error (.errx (.recordNotZeroed 2))
  else if mbr.record₃ ≠ zeroRecord then
    .error (.errx (.recordNotZeroed 3))
  else if mbr.record₄ ≠ zeroRecord then
    .error (.errx (.recordNotZeroed 4))
  else if mbr.record₁.startingLba ≠ 1 then
    .error (.errx .notAtFirstBlock)
  else if skipBpbCheck = false ∧
      ∃ byte ∈ ((mbrCodec.put mbr).take 14).drop 3, byte ≠ 0 then
    .error (.errx .mightOverlapVolume)
  else
    let expectedSizeInLba :=
      if sizeInSectors - 1 > 0xFFFFFFFF then 0xFFFFFFFF
      else (sizeInSectors - 1).toUInt32
    if mbr.record₁.sizeInLba ≠ expectedSizeInLba then
      return { mbr with
        record₁ := { mbr.record₁ with sizeInLba := expectedSizeInLba } }
    else
      return mbr

section

variable (crc32 : List UInt8 → UInt32)

/-- The bounds that depend on where the header stands: the sectors left for
the partition table, or nothing for a header that is refused. -/
def partitionTableUsableSpace (header : GPTHeader)
    (sectorOffset sectors : UInt64) : Except Stop (Option UInt64) :=
  if sectorOffset ≠ 1 then
    if header.alternateLBA ≠ 1 then .ok none
    else if header.lastUsableLBA ≥ header.partitionEntryLBA then .ok none
    else if header.partitionEntryLBA ≥ header.myLBA then .ok none
    else .ok (some (header.myLBA - header.partitionEntryLBA))
  else if header.partitionEntryLBA ≠ 2 then .ok none
  else if header.lastUsableLBA ≥ header.alternateLBA then .ok none
  else if header.alternateLBA ≥ sectors then
    .error (.errx (.truncated header.alternateLBA sectors))
  else .ok (some (header.firstUsableLBA - header.partitionEntryLBA))

/-- The bytes of the partition entries, or 0 for a header that is refused. -/
def checkGptHeader (header : GPTHeader) (sectorOffset : UInt64)
    (sectorSize : UInt32) (sectors : UInt64) : Except Stop UInt64 := do
  assertC (6 ≤ sectors)
  assertC (sectorOffset < sectors)
  let h := { header with headerCRC32 := 0 }
  if header.signature ≠ efiPart then .ok 0
  else if header.revision ≠ 0x00010000 then .ok 0
  else if header.headerCRC32 ≠ crc32 (gptHeaderCodec.put h) then .ok 0
  else if header.headerSize < 92 then .ok 0
  else if header.headerSize > sectorSize then .ok 0
  else if header.sizeOfPartitionEntry < 128 then .ok 0
  else if header.sizeOfPartitionEntry > sectorSize then .ok 0
  else if header.sizeOfPartitionEntry > 128 then
    .error (.errx (.entryTooLarge header.sizeOfPartitionEntry))
  else if header.firstUsableLBA < 3 then .ok 0
  else if header.lastUsableLBA < header.firstUsableLBA then .ok 0
  else
    match ← partitionTableUsableSpace header sectorOffset sectors with
    | none => .ok 0
    | some space =>
        if header.numberOfPartitionEntries < 1 then .ok 0
        else
          let partitionTableBytes := gptPartitionTableBytes header
          let partitionTableUsableBytes := space * sectorSize.toUInt64
          if partitionTableUsableBytes < partitionTableBytes then .ok 0
          else if partitionTableBytes > 1048576 then
            .error (.errx (.tableTooLarge partitionTableBytes))
          else .ok partitionTableBytes

/-- The loop over the used entries of `read_and_check_gpt`: one more than the
index of the last used entry, or nothing if one is out of range. -/
def checkUsedEntries (header : GPTHeader) :
    List GPTPartitionEntry → UInt32 → UInt32 → Option UInt32
  | [], _, usedEntries => some usedEntries
  | entry :: entries, i, usedEntries =>
      if unusedEntry entry then
        checkUsedEntries header entries (i + 1) usedEntries
      else if entry.startingLBA < header.firstUsableLBA then
        none
      else if entry.endingLBA > header.lastUsableLBA then
        none
      else
        checkUsedEntries header entries (i + 1) (i + 1)

/-- The second half of `read_and_check_gpt`: the entries of an accepted
header. -/
def readEntriesBy (pread : Pread) (header : GPTHeader)
    (partitionTableBytes : UInt64) (sectorSize : UInt32) :
    Except Stop (Option GPT) := do
  let partitionTableOffset := sectorSize.toUInt64 * header.partitionEntryLBA
  let needed ← roundToNextSector partitionTableBytes sectorSize
  let entriesBuffer ←
    orThrow .tableReadError (pread needed partitionTableOffset)
  if entriesBuffer.length ≠ needed.toNat then
    .error (.errx
      (.tableShortRead partitionTableBytes entriesBuffer.length))
  else if header.partitionEntryArrayCRC32 ≠
      crc32 (entriesBuffer.take partitionTableBytes.toNat) then
    .ok none
  else do
    let entries := gptPartitionEntryCodec.getAll
      header.numberOfPartitionEntries.toNat entriesBuffer
    assertC (128 ≤ header.sizeOfPartitionEntry)
    match checkUsedEntries header entries 0 0 with
    | none => .ok none
    | some usedEntries =>
        if usedEntries = 0 then
          .error (.errx .noUsedPartitions)
        else
          .ok (some { header, usedEntries, entries, sectorSize })

/-- The two reads may have any outcome. -/
def readAndCheckGptBy (preadHeader preadEntries : Pread)
    (sectorOffset : UInt64) (sectorSize : UInt32) (sectors : UInt64) :
    Except Stop (Option GPT) :=
  if sectorOffset ≥ sectors then
    .ok none
  else if sectorOffset ≠ 1 ∧ sectorOffset < 5 then
    .ok none
  else do
    let headerBuffer ← orThrow .headerRead (preadHeader sectorSize.toUInt64
      (sectorOffset * sectorSize.toUInt64))
    if headerBuffer.length ≠ sectorSize.toNat then
      .error (.errx .headerRead)
    else do
      let header := gptHeaderCodec.get
        (headerBuffer.take gptHeaderCodec.width)
      let partitionTableBytes ←
        checkGptHeader crc32 header sectorOffset sectorSize sectors
      if partitionTableBytes = 0 then
        .ok none
      else
        readEntriesBy crc32 preadEntries header partitionTableBytes sectorSize

/-! The same on a device whose reads do not fail inside it. -/

def readEntries (disk : Disk) (header : GPTHeader)
    (partitionTableBytes : UInt64) (sectorSize : UInt32) :
    Except Stop (Option GPT) :=
  readEntriesBy crc32 disk.pread header partitionTableBytes sectorSize

def readAndCheckGpt (disk : Disk) (sectorOffset : UInt64)
    (sectorSize : UInt32) (sectors : UInt64) : Except Stop (Option GPT) :=
  readAndCheckGptBy crc32 disk.pread disk.pread sectorOffset sectorSize
    sectors

end

end QubesUtils
