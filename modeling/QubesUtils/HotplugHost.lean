/-
The host of the block hotplug script: XenStore, what the paths lead to, the
loop devices, and the calls of the script with their answers.
-/
import QubesUtils.NotScript
import QubesUtils.Process
import QubesUtils.Threads

namespace QubesUtils.NotScript

open Numeral Threads

def EACCES : Nat := 13
def EBUSY : Nat := 16
def ENXIO : Nat := 6

/-- The bytes of a literal. -/
def text (s : String) : List UInt8 := s.toList.map fun c => UInt8.ofNat c.toNat

/-! XenStore. -/

/-- The entries of a backend that the script works on. -/
inductive Entry
  | physicalDevice
  | physicalDevicePath
  | diskseq
  | params
  | mode
  | opened
deriving DecidableEq

def Entry.text : Entry → List UInt8
  | physicalDevice => NotScript.text "physical-device"
  | physicalDevicePath => NotScript.text "physical-device-path"
  | diskseq => NotScript.text "diskseq"
  | params => NotScript.text "params"
  | mode => NotScript.text "mode"
  | opened => NotScript.text "opened"

/-- `xenstore_path_buffer` -/
def key (xsPath : List UInt8) (entry : Entry) : List UInt8 :=
  xsPath ++ slash :: entry.text

abbrev XenStore := List UInt8 → Option (List UInt8)

/-- A path with everything below it. -/
def Below (path other : List UInt8) : Prop :=
  other = path ∨ path ++ [slash] <+: other

instance (path other : List UInt8) : Decidable (Below path other) :=
  inferInstanceAs (Decidable (_ ∨ _))

def XenStore.remove (path : List UInt8) (store : XenStore) : XenStore :=
  fun other => if Below path other then none else store other

/-- The writes of a transaction, all at once. -/
def XenStore.commit (writes : List (List UInt8 × List UInt8))
    (store : XenStore) : XenStore :=
  writes.foldl (fun store write => Function.update store write.1 write.2) store

/-! Devices. -/

/-- What a path leads to. -/
inductive Object
  | block (major minor : UInt32)
  | regular (ino : Nat)
  | other
deriving DecidableEq

inductive FileKind
  | block
  | regular
  | other
deriving DecidableEq

/-- What `fstat` says: the kind, and the two numbers in `st_rdev`. -/
structure DeviceStat where
  kind : FileKind
  rdev : UInt32 × UInt32
deriving DecidableEq

def DeviceStat.Describes (stat : DeviceStat) : Object → Prop
  | .block major minor => stat = ⟨.block, major, minor⟩
  | .regular _ => stat.kind = .regular
  | .other => stat.kind = .other

/-- A loop device: the number of the disk that it is now, what is behind it,
and its flags. -/
structure LoopDevice where
  diskseq : UInt64
  backing : Option Nat
  readOnly : Bool
  autoclear : Bool
deriving DecidableEq

/-- `struct loop_config` -/
structure LoopConfig where
  fd : Object
  blockSize : UInt32
  autoclear : Bool
  readOnly : Bool
deriving DecidableEq

def loopMajor : UInt32 := 7

/-- `"/dev/loop%u"` -/
def loopPath (devnum : UInt32) : List UInt8 :=
  text "/dev/loop" ++ write 10 devnum.toNat

/-! Calls. -/

/-- The calls that leave alone what is modelled here. -/
inductive Plain
  | openLog
  | dup2Log
  | closeLog
  | xsOpen
  | xsWatch (key : List UInt8)
  | xsReadWatch
  | malloc
  | openDmName (major minor : UInt32)
  | closeDmName
  | openLoopControl
  | closeLoopControl
  | openLock
  | dup3
  | closeDup
deriving DecidableEq

inductive Call
  | plain (call : Plain)
  | xsRead (key : List UInt8)
  | xsRm (key : List UInt8)
  | xsTransactionStart
  | xsWrite (key value : List UInt8)
  | xsTransactionEnd
  | openPath (path : List UInt8) (writable : Bool)
  | fstat (fd : Object)
  | readDmName (count : Nat)
  | flock
  | closeLock
  | loopCtl (add : Bool)
  | openLoop (devnum : UInt32) (writable : Bool)
  | loopConfigure (dev : Object) (config : LoopConfig)
  | closeLoop (dev : Object)
  | getDiskseq (fd : Object)
  | loopClrFd (dev : Object)
  | exit
deriving DecidableEq

/-- What a call is answered: an error, a value, or that it is done. -/
@[reducible] def Answer : Call → Type
  | .xsRead _ => Except Errno (List UInt8)
  | .openPath _ _ => Except Errno Object
  | .fstat _ => Except Errno DeviceStat
  | .readDmName _ => Except Errno (List UInt8)
  | .loopCtl _ => Except Errno UInt32
  | .openLoop _ _ => Except Errno Object
  | .getDiskseq _ => Except Errno UInt64
  | .exit => Unit
  | _ => Option Errno

abbrev Trace := List (Threads.Event Call Answer)

/-! The host. -/

/-- What all processes on the host share.  A number of a disk stands for one
loop device, from one configuration to the next, and is never used again.  A
process that has opened a loop device with `O_EXCL` claims it. -/
structure Host (ι : Type) where
  store : XenStore
  pending : ι → List (List UInt8 × List UInt8)
  paths : List UInt8 → Option Object
  symlinks : List UInt8 → Bool
  loops : UInt32 → Option LoopDevice
  disks : UInt64 → Option (UInt32 × Option ι)
  claims : UInt32 → Option ι
  lock : Option ι

namespace Host

variable {ι : Type} [DecidableEq ι]

/-- The object is not a loop device, or one that is there. -/
def There (host : Host ι) (object : Object) : Prop :=
  ∀ n, object = .block loopMajor n → host.loops n ≠ none

/-- The object is not a loop device, or one that nobody claims. -/
def Unclaimed (host : Host ι) (object : Object) : Prop :=
  ∀ n, object = .block loopMajor n → host.claims n = none

def claim (i : ι) (object : Object) (host : Host ι) : Host ι :=
  { host with
    claims := fun n =>
      if object = .block loopMajor n then some i else host.claims n }

def release (i : ι) (object : Object) (host : Host ι) : Host ι :=
  { host with
    claims := fun n =>
      if object = .block loopMajor n ∧ host.claims n = some i then none
      else host.claims n }

/-- A loop device becomes another disk. -/
def renew (n : UInt32) (device : LoopDevice) (owner : Option ι)
    (host : Host ι) : Host ι :=
  { host with
    loops := Function.update host.loops n device
    disks := Function.update host.disks device.diskseq (some (n, owner)) }

/-- A number that no disk has had. -/
def Unused (host : Host ι) (diskseq : UInt64) : Prop :=
  host.disks diskseq = none

/-- A loop device has nothing behind it any more, and is another disk. -/
def Dissociated (n : UInt32) (host after : Host ι) : Prop :=
  ∃ diskseq, host.Unused diskseq ∧
    after = host.renew n ⟨diskseq, none, false, false⟩ none

/-- What becomes of a loop device that is to be cleared, when the last of
those who have it open closes it. -/
def Cleared (n : UInt32) (host after : Host ι) : Prop :=
  (∃ device, host.loops n = some device ∧ device.autoclear = true) ∧
    host.claims n = none ∧ host.Dissociated n after

/-- What a process leaves when it ends. -/
def ended (i : ι) (host : Host ι) : Host ι :=
  { host with
    pending := Function.update host.pending i []
    claims := fun n => if host.claims n = some i then none else host.claims n
    lock := if host.lock = some i then none else host.lock }

end Host

/-- How the host may answer a call of a process, and what it is then.  Every
call may fail.  Whether a device is closed for the last time depends on who
else has it open, which is not modelled: it may be cleared, or not. -/
def Answers {ι : Type} [DecidableEq ι] (i : ι) :
    (c : Call) → Host ι → Answer c → Host ι → Prop
  | .plain _, host, _, after => after = host
  | .xsRead key, host, answer, after => after = host ∧
      (∀ value, answer = .ok value → host.store key = some value) ∧
      (∀ errno, answer = .error errno →
        errno.value = UInt32.ofNat ENOENT → host.store key = none)
  | .xsRm key, host, answer, after =>
      (answer = none → after =
        { host with store := host.store.remove key }) ∧
      (answer ≠ none → after = host)
  | .xsTransactionStart, host, answer, after =>
      (answer = none → after =
        { host with pending := Function.update host.pending i [] }) ∧
      (answer ≠ none → after = host)
  | .xsWrite key value, host, answer, after =>
      (answer = none → after = { host with
        pending := Function.update host.pending i
          (host.pending i ++ [(key, value)]) }) ∧
      (answer ≠ none → after = host)
  | .xsTransactionEnd, host, answer, after =>
      (answer = none → after = { host with
        store := host.store.commit (host.pending i)
        pending := Function.update host.pending i [] }) ∧
      (answer ≠ none → after =
        { host with pending := Function.update host.pending i [] })
  | .openPath path _, host, answer, after => after = host ∧
      ∀ object, answer = .ok object →
        host.paths path = some object ∧ host.There object
  | .fstat fd, host, answer, after => after = host ∧
      ∀ stat, answer = .ok stat → stat.Describes fd
  | .readDmName count, host, answer, after => after = host ∧
      ∀ bytes, answer = .ok bytes → bytes.length ≤ count
  | .flock, host, answer, after =>
      (answer = none → host.lock = none ∧ after = { host with lock := i }) ∧
      (answer ≠ none → after = host)
  | .closeLock, host, _, after => after =
      { host with lock := if host.lock = i then none else host.lock }
  | .loopCtl add, host, answer, after =>
      (∀ n, answer = .ok n →
        (add = false ∧ after = host ∧
          ∃ device, host.loops n = some device ∧ device.backing = none) ∨
        (host.loops n = none ∧ ∃ diskseq, host.Unused diskseq ∧
          after = host.renew n ⟨diskseq, none, false, false⟩ none)) ∧
      (∀ errno, answer = .error errno → after = host)
  | .openLoop devnum _, host, answer, after =>
      (∀ object, answer = .ok object →
        host.paths (loopPath devnum) = some object ∧
          host.symlinks (loopPath devnum) = false ∧ host.There object ∧
          host.Unclaimed object ∧ after = host.claim i object) ∧
      (∀ errno, answer = .error errno → after = host)
  | .loopConfigure dev config, host, answer, after =>
      (answer = none → ∃ n ino device diskseq,
        dev = .block loopMajor n ∧ config.fd = .regular ino ∧
          host.loops n = some device ∧ device.backing = none ∧
          (host.claims n = none ∨ host.claims n = some i) ∧
          host.Unused diskseq ∧ after = host.renew n
            ⟨diskseq, some ino, config.readOnly, config.autoclear⟩ (some i)) ∧
      (answer ≠ none → after = host)
  | .closeLoop dev, host, _, after => after = host.release i dev ∨
      ∃ n, dev = .block loopMajor n ∧ (host.release i dev).Cleared n after
  | .getDiskseq fd, host, answer, after => after = host ∧
      ∀ diskseq, answer = .ok diskseq → ∃ major minor,
        fd = .block major minor ∧ (major = loopMajor → ∃ device,
          host.loops minor = some device ∧ device.diskseq = diskseq)
  | .loopClrFd dev, host, answer, after =>
      (answer = none → ∃ n device, dev = .block loopMajor n ∧
        host.loops n = some device ∧ device.backing ≠ none ∧
          -- A kernel may also clear it at once, for the only one who has it open.
          (after = { host with
            loops := Function.update host.loops n
              (some { device with autoclear := true }) } ∨
          (host.claims n = none ∨ host.claims n = some i) ∧
            host.Dissociated n after)) ∧
      (answer ≠ none → after = host)
  | .exit, host, _, after => Relation.ReflTransGen
      (fun host after => ∃ n, host.Cleared n after) (host.ended i) after

end QubesUtils.NotScript
