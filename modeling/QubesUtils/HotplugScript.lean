/-
The block hotplug script `not-script.c` as a program of calls: a device is set
up and published on `add`, and taken down on `remove`.
-/
import QubesUtils.HotplugHost

namespace QubesUtils.NotScript

open Numeral Threads

/-- What is reported in front of `exit(1)`. -/
inductive Complaint
  | open (path : List UInt8)
  | lockFile
  | flock
  | loopCtl (add : Bool)
  | openLoop (devnum : UInt32) (retryCount : Nat)
  | loopConfigure (retryCount : Nat)
  | fstat
  | forbiddenPath (devname : List UInt8)
  | openDmName (major minor : UInt32)
  | readDmName
  | wrongDeviceMapper
  | malloc
  | close
  | loopControl
  | dup3
  | neither (path : List UInt8)
  | getDiskseq
  | log
  | opened (value : List UInt8)
  | read (key : List UInt8)
  | rm (key : List UInt8)
  | write (key value : List UInt8)
  | transactionStart
  | transactionEnd
  | watch (key : List UInt8)
  | readWatch
  | openDevice (devnum : UInt32)
  | wrongLoop (expected : UInt64 × UInt64) (got : UInt32 × UInt32)
  | diskseqMismatch
  | loopClrFd (devnum : UInt32)
  | usage (argc : Nat)
  | noXenbusPath
  | badCommand
  | xenStore
  | nulInParameters
  | notAbsolute
  | badMode (key : List UInt8)
  | badEntry (key : List UInt8)
  | snprintf
deriving DecidableEq

/-- The ways in which the script ends early: `err`, `errx`, a value that is
not read, `abort`; and a loop that has not come to its end. -/
inductive Stop
  | err (complaint : Complaint) (errno : Errno)
  | errx (complaint : Complaint)
  | removal (failure : RemoveFailure)
  | abort
  | outOfFuel
deriving DecidableEq

abbrev Script (α : Type) := Program Call Answer Stop α

def request (call : Call) : Script (Answer call) := Program.request call

def errx {α : Type} (complaint : Complaint) : Script α :=
  .stop (.errx complaint)

/-- `err(1, …)` unless the call is done. -/
def orErr (complaint : Complaint) : Option Errno → Script Unit
  | none => pure ()
  | some errno => .stop (.err complaint errno)

/-- `err(1, …)` unless there is a value. -/
def valueOrErr {α : Type} (complaint : Complaint) : Except Errno α → Script α
  | .ok a => pure a
  | .error errno => .stop (.err complaint errno)

def plain (call : Plain) (complaint : Complaint) : Script Unit := do
  orErr complaint (← request (.plain call))

def liftRemoval {α : Type} : Except RemoveFailure α → Script α
  | .ok a => pure a
  | .error failure => .stop (.removal failure)

def liftSnprintf {α : Type} : Option α → Script α
  | some a => pure a
  | none => errx .snprintf

/-! Setting up a loop device. -/

def retryLimit : Nat := 5

def openMayBeRetried (errno : Errno) : Bool :=
  errno.value = UInt32.ofNat EAGAIN || errno.value = UInt32.ofNat EBUSY ||
    errno.value = UInt32.ofNat ENXIO || errno.value = UInt32.ofNat ENOENT

def configureMayBeRetried (errno : Errno) : Bool :=
  errno.value = UInt32.ofNat EBUSY || errno.value = UInt32.ofNat ENXIO

/-- `struct loop_config config` -/
def loopConfig (fd : Object) (writable autoclear : Bool) : LoopConfig where
  fd
  blockSize := 512
  autoclear
  readOnly := !writable

/-- The body of the loop of `setup_loop`. -/
def setupLoopPass (fd : Object) (writable autoclear : Bool)
    (retryCount : Nat) (again : Script Object) : Script Object := do
  let add := decide (retryCount ≠ 0)
  let status ← valueOrErr (.loopCtl add) (← request (.loopCtl add))
  match ← request (.openLoop status writable) with
  | .error errno =>
      if ¬ openMayBeRetried errno ∨ retryLimit ≤ retryCount then
        .stop (.err (.openLoop status retryCount) errno)
      else
        again
  | .ok devFile => do
      match ← request
        (.loopConfigure devFile (loopConfig fd writable autoclear)) with
      | none => do
          let _ ← request .closeLock
          pure devFile
      | some errno =>
          if ¬ configureMayBeRetried errno ∨ retryLimit ≤ retryCount then
            .stop (.err (.loopConfigure retryCount) errno)
          else do
            match ← request (.closeLoop devFile) with
            | some _ => .stop .abort
            | none => again

/-- The loop of `setup_loop`, with so many retries left. -/
def setupLoopFrom (fd : Object) (writable autoclear : Bool) :
    Nat → Script Object
  | 0 => setupLoopPass fd writable autoclear retryLimit (.stop .outOfFuel)
  | left + 1 =>
      setupLoopPass fd writable autoclear (retryLimit - (left + 1))
        (setupLoopFrom fd writable autoclear left)

def setupLoop (fd : Object) (writable autoclear : Bool) : Script Object := do
  plain .openLock .lockFile
  orErr .flock (← request .flock)
  setupLoopFrom fd writable autoclear retryLimit

/-! The device that is handed to the guest. -/

def devMapper : List UInt8 := text "/dev/mapper/"
def newline : UInt8 := 0x0A

/-- What `process_blk_dev` does for a path in `/dev/mapper`. -/
def checkDmName (devname : List UInt8) (rdev : UInt32 × UInt32) :
    Script Unit := do
  if devname = text "control" ∨ devname = text "." ∨ devname = text ".." ∨
      slash ∈ devname then
    errx (.forbiddenPath devname)
  else do
    plain (.openDmName rdev.1 rdev.2) (.openDmName rdev.1 rdev.2)
    plain .malloc .malloc
    let got ← valueOrErr .readDmName
      (← request (.readDmName (devname.length + 2)))
    if got.length ≠ devname.length + 1 ∨
        got.take devname.length ≠ devname ∨
        got[devname.length]? ≠ some newline then
      errx .wrongDeviceMapper
    else
      plain .closeDmName .close

/-- The descriptor that is left open, and its `st_rdev`. -/
def blkDevOf (fd : Object) (path : List UInt8) (writable autoclear : Bool) :
    Script (Object × UInt32 × UInt32) := do
  let statbuf ← valueOrErr .fstat (← request (.fstat fd))
  match statbuf.kind with
  | .block => do
      if devMapper <+: path then
        checkDmName (path.drop devMapper.length) statbuf.rdev
      else
        pure ()
      pure (fd, statbuf.rdev)
  | .regular => do
      plain .openLoopControl .loopControl
      let loopFd ← setupLoop fd writable autoclear
      plain .dup3 .dup3
      plain .closeDup .close
      plain .closeLoopControl .close
      let statbuf ← valueOrErr .fstat (← request (.fstat loopFd))
      pure (loopFd, statbuf.rdev)
  | .other => errx (.neither path)

/-- `process_blk_dev` -/
def processBlkDev (fd : Object) (path : List UInt8)
    (writable autoclear : Bool) : Script ((UInt32 × UInt32) × UInt64) := do
  let (fd, rdev) ← blkDevOf fd path writable autoclear
  let diskseq ← valueOrErr .getDiskseq (← request (.getDiskseq fd))
  pure (rdev, diskseq)

/-- `redirect_stderr` -/
def redirectStderr : Script Unit := do
  match ← request (.plain .openLog) with
  | some errno =>
      if errno.value = UInt32.ofNat ENOENT ∨
          errno.value = UInt32.ofNat EACCES then pure ()
      else .stop (.err .log errno)
  | none => do
      plain .dup2Log .log
      plain .closeLog .log

/-! `remove` -/

/-- `remove_device`, from where a loop device is opened. -/
def clearLoop (major minor expectedDiskseq : UInt64) : Script Unit := do
  plain .openLoopControl .loopControl
  let loopFd ← valueOrErr (.openDevice minor.toUInt32)
    (← request (.openLoop minor.toUInt32 false))
  let statbuf ← valueOrErr .fstat (← request (.fstat loopFd))
  if statbuf.rdev ≠ (major.toUInt32, minor.toUInt32) then
    errx (.wrongLoop (major, minor) statbuf.rdev)
  else do
    let actualDiskseq ← valueOrErr .getDiskseq
      (← request (.getDiskseq loopFd))
    if expectedDiskseq ≠ actualDiskseq then
      errx .diskseqMismatch
    else do
      match ← request (.loopClrFd loopFd) with
      | some errno =>
          if errno.value ≠ UInt32.ofNat EBUSY then
            .stop (.err (.loopClrFd minor.toUInt32) errno)
          else
            pure ()
      | none => pure ()
      orErr .close (← request (.closeLoop loopFd))
      plain .closeLoopControl .close

def removeDevice (xsPath : List UInt8) : Script Unit := do
  let physdev ← valueOrErr (.read (key xsPath .physicalDevice))
    (← request (.xsRead (key xsPath .physicalDevice)))
  orErr (.rm (key xsPath .physicalDevice))
    (← request (.xsRm (key xsPath .physicalDevice)))
  let (major, minor) ← liftRemoval (parsePhysicalDevice physdev)
  let diskseqStr ← valueOrErr (.read (key xsPath .diskseq))
    (← request (.xsRead (key xsPath .diskseq)))
  orErr (.rm (key xsPath .diskseq))
    (← request (.xsRm (key xsPath .diskseq)))
  let expectedDiskseq ← liftRemoval (parseDiskseq diskseqStr)
  if major ≠ LOOP_MAJOR then
    pure ()
  else do
    let physicalDevicePath ← valueOrErr
      (.read (key xsPath .physicalDevicePath))
      (← request (.xsRead (key xsPath .physicalDevicePath)))
    let params ← valueOrErr (.read (key xsPath .params))
      (← request (.xsRead (key xsPath .params)))
    if params = physicalDevicePath then
      pure ()
    else
      clearLoop major minor expectedDiskseq

/-! `add` -/

def digitOne : UInt8 := 0x31

/-- `get_opened` -/
def getOpened (key : List UInt8) (expected : UInt8) : Script Bool := do
  match ← request (.xsRead key) with
  | .ok value =>
      if value.length ≠ 1 ∨ value.head? ≠ some expected then
        errx (.opened value)
      else
        pure true
  | .error errno =>
      if errno.value ≠ UInt32.ofNat ENOENT then
        .stop (.err (.read key) errno)
      else
        pure false

/-- The entry `mode`: whether the device is writable. -/
def getMode (key : List UInt8) : Script Bool := do
  match ← request (.xsRead key) with
  | .error errno =>
      if errno.value ≠ UInt32.ofNat ENOENT then
        .stop (.err (.read key) errno)
      else
        pure false
  | .ok rw =>
      if rw = text "r" then pure false
      else if rw = text "w" then pure true
      else errx (.badMode key)

/-- What is written to XenStore on `add`. -/
structure Record where
  physDev : List UInt8
  physdevPath : List UInt8
  hexDiskseq : List UInt8
deriving DecidableEq

def xsWrite (key value : List UInt8) : Script Unit := do
  orErr (.write key value) (← request (.xsWrite key value))

/-- The loop around the transaction. -/
def publish (xsPath : List UInt8) (record : Record) : Nat → Script Unit
  | 0 => .stop .outOfFuel
  | fuel + 1 => do
      orErr .transactionStart (← request .xsTransactionStart)
      xsWrite (key xsPath .physicalDevice) record.physDev
      xsWrite (key xsPath .physicalDevicePath) record.physdevPath
      xsWrite (key xsPath .diskseq) record.hexDiskseq
      match ← request .xsTransactionEnd with
      | none => pure ()
      | some errno =>
          if errno.value ≠ UInt32.ofNat EAGAIN then
            .stop (.err .transactionEnd errno)
          else
            publish xsPath record fuel

/-- The loop that waits until the device is opened. -/
def awaitOpened (key : List UInt8) : Nat → Script Unit
  | 0 => .stop .outOfFuel
  | fuel + 1 => do
      plain .xsReadWatch .readWatch
      let value ← valueOrErr (.read key) (← request (.xsRead key))
      if value = [digitOne] then pure ()
      else if value = [zero] then awaitOpened key fuel
      else errx (.badEntry key)

/-- What is written for a device with these numbers that was found under a
path. -/
def recordOf (data : List UInt8) (rdev : UInt32 × UInt32)
    (diskseq : UInt64) : Option Record := do
  let physDev ← formatPhysDev rdev.1 rdev.2
  let hexDiskseq ← formatDiskseq diskseq
  pure ⟨physDev, if rdev.1 = loopMajor then loopPath rdev.2 else data,
    hexDiskseq⟩

/-- What is done for a device that has been found. -/
def announce (fuel : Nat) (xsPath : List UInt8) (autoclear : Bool)
    (record : Record) : Script Unit := do
  if autoclear then
    plain (.xsWatch (key xsPath .opened)) (.watch (key xsPath .opened))
  else
    pure ()
  publish xsPath record fuel
  if autoclear then awaitOpened (key xsPath .opened) fuel else pure ()

/-- What `main` does on `add`, from where `params` is read. -/
def attach (fuel : Nat) (xsPath : List UInt8) (autoclear : Bool) :
    Script Unit := do
  let data ← valueOrErr (.read (key xsPath .params))
    (← request (.xsRead (key xsPath .params)))
  if (0 : UInt8) ∈ data then
    errx .nulInParameters
  else if data.head? ≠ some slash then
    errx .notAbsolute
  else do
    let writable ← getMode (key xsPath .mode)
    let fd ← valueOrErr (.open data) (← request (.openPath data writable))
    let (rdev, diskseq) ← processBlkDev fd data writable autoclear
    let record ← liftSnprintf (recordOf data rdev diskseq)
    announce fuel xsPath autoclear record

def addDevice (fuel : Nat) (xsPath : List UInt8) (experimental : Bool) :
    Script Unit := do
  let autoclear ←
    if experimental then getOpened (key xsPath .opened) zero else pure false
  attach fuel xsPath autoclear

/-! The script. -/

/-- The arguments and the variables of the environment that are looked at. -/
structure Invocation where
  argv : List (List UInt8)
  xenbusPath : Option (List UInt8)
  experimental : Bool

def main (fuel : Nat) (invocation : Invocation) : Script Unit := do
  redirectStderr
  match invocation.argv, invocation.xenbusPath with
  | [_, command], some xsPath =>
      if command = text "add" then do
        plain .xsOpen .xenStore
        plain .malloc .malloc
        addDevice fuel xsPath invocation.experimental
      else if command = text "remove" then do
        plain .xsOpen .xenStore
        plain .malloc .malloc
        removeDevice xsPath
      else
        errx .badCommand
  | [_, _], none => errx .noXenbusPath
  | argv, _ => errx (.usage argv.length)

/-- One process after the other, for one backend.  A loop that goes on has
nothing behind it. -/
def serve (fuel : Nat) :
    List Invocation → Program Call Answer Unit Unit
  | [] => .ret ()
  | invocation :: rest => do
      match ← (main fuel invocation).outcome with
      | .error .outOfFuel => .stop ()
      | _ => do
          let _ ← Program.request .exit
          serve fuel rest

end QubesUtils.NotScript
