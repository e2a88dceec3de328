/-
The writer of `gptfixer/gpt.c`: the partition table for the new sector size,
the writes that install it, and `main`.
-/
import QubesUtils.Gpt

namespace QubesUtils

open ByteCodec

/-- What the loop over the used entries of `gpt_adjust_sectors` collects. -/
structure UsedExtent where
  firstStartByteOffset : UInt64
  lastEndByteOffset : UInt64
  partitionThatStartsFirst : UInt32
  partitionThatEndsLast : UInt32

def startByteOffset (entry : GPTPartitionEntry) (sectorSize : UInt32) :
    UInt64 :=
  entry.startingLBA * sectorSize.toUInt64

def endByteOffset (entry : GPTPartitionEntry) (sectorSize : UInt32) :
    UInt64 :=
  (entry.endingLBA + 1) * sectorSize.toUInt64

/-- One used entry; a tie goes to the first start and to the last end. -/
def scanEntry (oldSectorSize sectorSize : UInt32) (i : UInt32)
    (entry : GPTPartitionEntry) (extent : UsedExtent) :
    Except Stop UsedExtent :=
  let start := startByteOffset entry oldSectorSize
  let stop := endByteOffset entry oldSectorSize
  if start % sectorSize.toUInt64 ≠ 0 then
    .error (.errx (.startNotMultiple (i + 1) start sectorSize))
  else if stop % sectorSize.toUInt64 ≠ 0 then
    .error (.errx (.endNotMultiple (i + 1) stop sectorSize))
  else
    let extent := if start < extent.firstStartByteOffset
      then { extent with
        firstStartByteOffset := start, partitionThatStartsFirst := i }
      else extent
    .ok (if extent.lastEndByteOffset ≤ stop
      then { extent with
        lastEndByteOffset := stop, partitionThatEndsLast := i }
      else extent)

def scanEntries (oldSectorSize sectorSize : UInt32) :
    List GPTPartitionEntry → UInt32 → UsedExtent → Except Stop UsedExtent
  | [], _, extent => .ok extent
  | entry :: entries, i, extent =>
      if unusedEntry entry then
        scanEntries oldSectorSize sectorSize entries (i + 1) extent
      else do
        let extent ← scanEntry oldSectorSize sectorSize i entry extent
        scanEntries oldSectorSize sectorSize entries (i + 1) extent

def gptPartitionTableRequiredBytes (gpt : GPT) (sectorSize : UInt32)
    (entries : UInt32) : Except Stop UInt64 := do
  assertC (validSectorSize sectorSize = true)
  roundToNextSector
    (gpt.header.sizeOfPartitionEntry.toUInt64 * entries.toUInt64) sectorSize

/-- `__builtin_ctz` -/
def ctz (value : UInt32) : Nat :=
  ((List.range 32).find? fun i => value.toNat.testBit i).getD 32

/-- The macros `min` and `max`. -/
def minC (a b : UInt64) : UInt64 := if a > b then b else a

def maxC (a b : UInt64) : UInt64 := if a > b then a else b

/-- The copy of an entry, with the bounds of a used one converted. -/
def adjustEntry (oldSectorSize sectorSize : UInt32)
    (entry : GPTPartitionEntry) : GPTPartitionEntry :=
  if unusedEntry entry then entry
  else { entry with
    startingLBA :=
      startByteOffset entry oldSectorSize / sectorSize.toUInt64
    endingLBA :=
      endByteOffset entry oldSectorSize / sectorSize.toUInt64 - 1 }

section

variable (crc32 : List UInt8 → UInt32)

/-- The checksums of a new table, and the bytes of its entries filled up with
zeros. -/
def fixupGpt (gpt : GPT) (bytesRequired : UInt64) :
    Except Stop (GPT × List UInt8) := do
  let partitionEntryBytes := gptPartitionTableBytes gpt.header
  assertC (partitionEntryBytes ≤ 0xFFFFFFFF)
  let entries := gptPartitionEntryCodec.putAll gpt.entries
  let header := { gpt.header with
    partitionEntryArrayCRC32 :=
      crc32 (entries.take partitionEntryBytes.toNat) }
  let header := { header with
    headerCRC32 := crc32 (gptHeaderCodec.put header) }
  return ({ gpt with header }, entries ++
    List.replicate (bytesRequired - partitionEntryBytes).toNat 0)

/-- The number of entries that the new table keeps. -/
def newEntriesCount (gpt : GPT) (sectorSize : UInt32) (size : UInt64)
    (extent : UsedExtent) : Except Stop UInt32 := do
  let partitionTableAvailableBytes :=
    minC ((size - sectorSize.toUInt64) - extent.lastEndByteOffset)
      (extent.firstStartByteOffset - 2 * sectorSize.toUInt64)
  let maxPartitionEntries := partitionTableAvailableBytes /
    gpt.header.sizeOfPartitionEntry.toUInt64
  assertC (gpt.usedEntries.toUInt64 ≤ maxPartitionEntries)
  return (minC maxPartitionEntries
    gpt.header.numberOfPartitionEntries.toUInt64).toUInt32

/-- There is room for the used entries on both sides of the partitions. -/
def checkRoom (gpt : GPT) (sectorSize : UInt32) (size : UInt64)
    (extent : UsedExtent) : Except Stop Unit := do
  assertC (extent.firstStartByteOffset < extent.lastEndByteOffset)
  let partitionTableBytes ←
    gptPartitionTableRequiredBytes gpt sectorSize gpt.usedEntries
  let backupGptRequiredBytes := partitionTableBytes + sectorSize.toUInt64
  let primaryGptRequiredBytes :=
    partitionTableBytes + 2 * sectorSize.toUInt64
  assertC (extent.lastEndByteOffset ≤ size)
  if size - extent.lastEndByteOffset < backupGptRequiredBytes then
    .error (.errx (.noRoomForBackup (extent.partitionThatEndsLast + 1)
      extent.lastEndByteOffset (size - extent.lastEndByteOffset)
      backupGptRequiredBytes))
  else if primaryGptRequiredBytes > extent.firstStartByteOffset then
    .error (.errx (.noRoomForPrimary primaryGptRequiredBytes
      (extent.partitionThatStartsFirst + 1) extent.firstStartByteOffset))
  else
    .ok ()

/-- The header for the new sector size, before its checksums. -/
def newHeader (gpt : GPT) (sectorOffset : UInt64) (sectorSize : UInt32)
    (sectors size partitionTableBytes : UInt64) (newEntries : UInt32) :
    Except Stop GPTHeader := do
  let primaryGptRequiredBytes :=
    partitionTableBytes + 2 * sectorSize.toUInt64
  let backupGptRequiredBytes := partitionTableBytes + sectorSize.toUInt64
  let sectorsRequired := partitionTableBytes >>> (ctz sectorSize).toUInt64
  let firstUsableByte :=
    maxC (gpt.header.firstUsableLBA * gpt.sectorSize.toUInt64)
      primaryGptRequiredBytes
  let firstUnusableByte :=
    minC ((gpt.header.lastUsableLBA + 1) * gpt.sectorSize.toUInt64)
      (size - backupGptRequiredBytes)
  let primary := sectorOffset == 1
  let firstUsable ← roundToNextSector firstUsableByte sectorSize
  return {
    signature := efiPart
    revision := gpt.header.revision
    headerSize := gpt.header.headerSize
    headerCRC32 := 0
    reserved := 0
    myLBA := sectorOffset
    alternateLBA := if primary then sectors - 1 else 1
    firstUsableLBA := firstUsable / sectorSize.toUInt64
    lastUsableLBA := firstUnusableByte / sectorSize.toUInt64 - 1
    diskGUID := gpt.header.diskGUID
    partitionEntryLBA :=
      if primary then 2 else sectors - 1 - sectorsRequired
    numberOfPartitionEntries := newEntries
    sizeOfPartitionEntry := gpt.header.sizeOfPartitionEntry
    partitionEntryArrayCRC32 := 0 }

/-- The table for the new sector size and the bytes of its entries, as many
as are allocated for them. -/
def gptAdjustSectors (sectorOffset : UInt64) (sectorSize : UInt32)
    (sectors : UInt64) (gpt : GPT) : Except Stop (GPT × List UInt8) := do
  assertC (6 ≤ sectors)
  assertC (validSectorSize gpt.sectorSize = true)
  assertC (validSectorSize sectorSize = true)
  assertC (sectorOffset = 1 ∨ sectorOffset = sectors - 1)
  let size := sectorSize.toUInt64 * sectors
  assertC (128 ≤ gpt.header.sizeOfPartitionEntry)
  let extent ← scanEntries gpt.sectorSize sectorSize
    (gpt.entries.take gpt.usedEntries.toNat) 0
    ⟨0xFFFFFFFFFFFFFFFF, 0, 0xFFFFFFFF, 0xFFFFFFFF⟩
  checkRoom gpt sectorSize size extent
  let newEntries ← newEntriesCount gpt sectorSize size extent
  let partitionTableBytes ←
    gptPartitionTableRequiredBytes gpt sectorSize newEntries
  let header ← newHeader gpt sectorOffset sectorSize sectors size
    partitionTableBytes newEntries
  assertC (newEntries ≤ gpt.header.numberOfPartitionEntries)
  let entries := (gpt.entries.take newEntries.toNat).map
    (adjustEntry gpt.sectorSize sectorSize)
  fixupGpt crc32
    { header, usedEntries := newEntries, entries, sectorSize := 0 }
    partitionTableBytes

/-- One `pwrite`. -/
abbrev Write := Store.Patch UInt8

/-- A computation that writes to the device, and keeps what it has written
also when it stops. -/
abbrev Writer := EStateM Stop (List Write)

def liftStop {α : Type} : Except Stop α → Writer α
  | .ok a => pure a
  | .error stop => throw stop

def syncPwrite (data : List UInt8) (offset : UInt64) : Writer Unit := do
  liftStop (assertC (data.length < 2 ^ 63))
  liftStop (assertC (offset.toNat < 2 ^ 63))
  modify (· ++ [⟨offset.toNat, data⟩])

/-- `malloc` and `memset`. -/
def zeros (count : Nat) : List UInt8 := List.replicate count 0

/-- The buffer of `sector_size` bytes that begins with the protective MBR. -/
def mbrBuffer (mbr : Mbr) (sectorSize : UInt32) : List UInt8 :=
  mbrCodec.put mbr ++ zeros (sectorSize.toNat - mbrCodec.width)

/-- The sector that begins with the header. -/
def headerBuffer (header : GPTHeader) (sectorSize : UInt32) : List UInt8 :=
  gptHeaderCodec.put header ++
    zeros (sectorSize.toNat - gptHeaderCodec.width)

/-- The writes in front of the entries and the header. -/
def clearOld (sectorToWrite sectors : UInt64) (sectorSize : UInt32)
    (gpt : GPT) (mbr : Mbr) : Writer Unit := do
  let bigSize : UInt64 := 4096
  if sectorToWrite = sectors - 1 then
    syncPwrite (zeros 4096) (sectorSize.toUInt64 * sectors - bigSize)
  else if sectorToWrite = 1 then
    if sectorSize.toUInt64 = bigSize then do
      liftStop (assertC (gpt.sectorSize = 512))
      syncPwrite (mbrBuffer mbr sectorSize) 0
    else do
      liftStop (assertC (sectorSize = 512))
      liftStop (assertC (gpt.sectorSize.toUInt64 = bigSize))
      syncPwrite (mbrBuffer mbr sectorSize) 0
      syncPwrite (zeros 512) 512
      syncPwrite (zeros 4096) bigSize
  else
    liftStop (assertC False)

def createNewGpt (sectorToWrite sectors : UInt64) (sectorSize : UInt32)
    (gpt : GPT) (mbr : Mbr) : Writer Unit := do
  let (newGpt, entries) ← liftStop
    (gptAdjustSectors crc32 sectorToWrite sectorSize sectors gpt)
  let checked ← liftStop
    (checkGptHeader crc32 newGpt.header sectorToWrite sectorSize sectors)
  liftStop (assertC (checked ≠ 0))
  liftStop (assertC (entries.length ≠ 0))
  clearOld sectorToWrite sectors sectorSize gpt mbr
  syncPwrite entries (newGpt.header.partitionEntryLBA * sectorSize.toUInt64)
  syncPwrite (headerBuffer newGpt.header sectorSize)
    (newGpt.header.myLBA * sectorSize.toUInt64)

/-- The two calls of `main`: the copy that was not read is replaced first. -/
def replaceGpts (usedPrimary : Bool) (sectors : UInt64)
    (sectorSize : UInt32) (gpt : GPT) (mbr : Mbr) : Writer Unit := do
  createNewGpt crc32 (if usedPrimary then sectors - 1 else 1) sectors
    sectorSize gpt mbr
  createNewGpt crc32 (if usedPrimary then 1 else sectors - 1) sectors
    sectorSize gpt mbr

inductive Mode
  | check
  | fix
deriving DecidableEq

/-- The sizes that `main` accepts: the number of sectors. -/
def checkSizes (sectorSize : UInt32) (size : UInt64) : Except Stop UInt64 :=
  if sectorSize ≠ 512 ∧ sectorSize ≠ 4096 then
    .error (.errx (.unsupportedBlockSize sectorSize))
  else if 2 ^ 63 ≤ size.toNat then
    .error (.errx (.sizeNotOffT size))
  else if size % sectorSize.toUInt64 ≠ 0 then
    .error (.errx (.sizeNotMultiple size sectorSize))
  else
    let sectors := size / sectorSize.toUInt64
    if sectors < 6 then
      .error (.errx (.tooFewSectors sectors))
    else
      .ok sectors

def checkGeometry (disk : Disk) : Except Stop UInt64 :=
  checkSizes disk.sectorSize disk.size

/-- The calls of `pread` in `main`: under the device's own sector size or the
other one, for the primary table or the backup. -/
inductive ReadCall
  | mbr
  | header (own primary : Bool)
  | entries (own primary : Bool)
deriving DecidableEq

/-- The first of two reads that finds a table, and whether it was the
primary one. -/
def readEitherBy (reads : ReadCall → Pread) (own : Bool)
    (sectorSize : UInt32) (sectors : UInt64) :
    Except Stop (Option (Bool × GPT)) := do
  match ← readAndCheckGptBy crc32 (reads (.header own true))
      (reads (.entries own true)) 1 sectorSize sectors with
  | some gpt => return some (true, gpt)
  | none =>
      match ← readAndCheckGptBy crc32 (reads (.header own false))
          (reads (.entries own false)) (sectors - 1) sectorSize sectors with
      | some gpt => return some (false, gpt)
      | none => return none

def readEither (disk : Disk) (sectorSize : UInt32) (sectors : UInt64) :
    Except Stop (Option (Bool × GPT)) :=
  readEitherBy crc32 (fun _ => disk.pread) true sectorSize sectors

/-- `main`, from the geometry of the device on.  All reads come before the
first write. -/
def gptfixMainBy (reads : ReadCall → Pread) (sectorSize : UInt32)
    (size : UInt64) (mode : Mode) (skipBpbCheck : Bool) : Writer Unit := do
  let sectors ← liftStop (checkSizes sectorSize size)
  let buffer ←
    liftStop (orThrow .mbrRead (reads .mbr sectorSize.toUInt64 0))
  if buffer.length ≠ sectorSize.toNat then
    throw (.errx .mbrRead)
  else do
    let mbr ← liftStop (checkMbr
      (mbrCodec.get (buffer.take mbrCodec.width)) sectors skipBpbCheck)
    match ← liftStop
        (readEitherBy crc32 reads true sectorSize sectors) with
    | some _ => pure ()
    | none =>
        if size % 4096 ≠ 0 then
          throw (.errx .diskSizeNotMultiple)
        else do
          let oldSectorSize : UInt32 :=
            if sectorSize = 4096 then 512 else 4096
          let oldSectors := if sectorSize = 4096
            then sectors <<< 3 else sectors >>> 3
          let (usedPrimary, gpt) ← liftStop (do
            orThrow .cannotFindValidGpt
              (← readEitherBy crc32 reads false oldSectorSize oldSectors))
          match mode with
          | .fix =>
              replaceGpts crc32 usedPrimary sectors sectorSize gpt mbr
          | .check => throw (.errx .needsFix)

def gptfixMain (disk : Disk) (mode : Mode) (skipBpbCheck : Bool) :
    Writer Unit :=
  gptfixMainBy crc32 (fun _ => disk.pread) disk.sectorSize disk.size mode
    skipBpbCheck

end

end QubesUtils
