/-
The block hotplug script `not-script.c`: the numbers of a device as they are
written to XenStore when it is added, and as they are read back when it is
removed.
-/
import QubesUtils.CNumber

namespace QubesUtils

open CNumber Numeral

def colon : UInt8 := 0x3A

def UINT32_MAX : UInt64 := 0xFFFFFFFF
def UINT64_MAX : UInt64 := 0xFFFFFFFFFFFFFFFF
def LOOP_MAJOR : UInt64 := 7

/-! Writing. -/

/-- What `snprintf` leaves in a buffer, and the length that it returns. -/
def snprintf (size : Nat) (text : List UInt8) : CString × Nat :=
  (CString.ofBuffer (text.take (size - 1)), text.length)

/-- What is written to XenStore: the buffer, as far as the returned length
goes, when that length is in its bounds. -/
def printed (low size : Nat) (text : List UInt8) : Option (List UInt8) :=
  if (snprintf size text).2 < low ∨ (snprintf size text).2 ≥ size then none
  else some ((snprintf size text).1.bytes.take (snprintf size text).2)

/-- `"%lx:%lx"` -/
def physDevText (major minor : UInt32) : List UInt8 :=
  write 16 major.toNat ++ colon :: write 16 minor.toNat

def formatPhysDev (major minor : UInt32) : Option (List UInt8) :=
  printed 3 18 (physDevText major minor)

/-- `"%llx"` -/
def formatDiskseq (diskseq : UInt64) : Option (List UInt8) :=
  printed 1 17 (write 16 diskseq.toNat)

/-! Reading. -/

/-- What ends the removal of a device. -/
inductive RemoveFailure
  | fault (fault : Fault)
  | badPhysicalDevice (value : CString)
  | badDiskseq (value : CString)
deriving DecidableEq

/-- `return **endp == expected` -/
def checkEnd (endp : List UInt8) (expected : UInt8) (res : UInt64) :
    Except RemoveFailure (Option (UInt64 × List UInt8)) :=
  match endp with
  | [] => .error (.fault .outOfBounds)
  | byte :: _ => .ok (if byte = expected then some (res, endp) else none)

/-- The number, and where it ends. -/
def strictStrtoulHex (p : List UInt8) (expected : UInt8) (max : UInt64) :
    Except RemoveFailure (Option (UInt64 × List UInt8)) :=
  match p with
  | [] => .error (.fault .outOfBounds)
  | byte :: rest =>
      if byte = zero then
        checkEnd rest expected 0
      else if (0x31 ≤ byte ∧ byte ≤ 0x39) ∨ (0x61 ≤ byte ∧ byte ≤ 0x66) ∨
          (0x41 ≤ byte ∧ byte ≤ 0x46) then
        let out := strtoull p 16
        if out.value > max ∨ out.range then .ok none
        else checkEnd out.endp expected out.value
      else
        .ok none

/-- What `xs_read` returns has a terminator behind it. -/
def readMemory (value : List UInt8) : List UInt8 := value ++ [0]

/-- The pointer is at the end of the value, `physdev + path_len`. -/
def atEnd (value endp : List UInt8) : Prop :=
  (readMemory value).length - endp.length = value.length

instance (value endp : List UInt8) : Decidable (atEnd value endp) :=
  inferInstanceAs (Decidable (_ = _))

def parsePhysicalDevice (physdev : List UInt8) :
    Except RemoveFailure (UInt64 × UInt64) := do
  let bad := RemoveFailure.badPhysicalDevice
    (CString.ofBuffer (readMemory physdev))
  match ← strictStrtoulHex (readMemory physdev) colon UINT32_MAX with
  | none => throw bad
  | some (major, physdevEnd) =>
      match ← strictStrtoulHex physdevEnd.tail 0 UINT32_MAX with
      | none => throw bad
      | some (minor, physdevEnd) =>
          if atEnd physdev physdevEnd then pure (major, minor) else throw bad

def parseDiskseq (diskseqStr : List UInt8) : Except RemoveFailure UInt64 := do
  let bad := RemoveFailure.badDiskseq
    (CString.ofBuffer (readMemory diskseqStr))
  match ← strictStrtoulHex (readMemory diskseqStr) 0 UINT64_MAX with
  | none => throw bad
  | some (diskseq, diskseqEnd) =>
      if atEnd diskseqStr diskseqEnd then pure diskseq else throw bad

end QubesUtils
