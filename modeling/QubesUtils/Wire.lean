/-
The headers that `libqubes-rpc-filecopy.h` puts on the wire, and the entries
of a transfer: a header, a name and a payload, of the lengths that the header
says.
-/
import QubesUtils.ByteCodec
import QubesUtils.Pure

namespace QubesUtils

open ByteCodec

def MAX_PATH_LENGTH : Nat := 16384
def LEGAL_EOF : Nat := 31415926

/-- `struct file_header` -/
structure FileHeader where
  namelen : UInt32
  mode : UInt32
  filelen : UInt64
  atime : UInt32
  atimeNsec : UInt32
  mtime : UInt32
  mtimeNsec : UInt32
deriving DecidableEq

def fileHeaderCodec : Codec FileHeader :=
  (u32.prod <| u32.prod <| u64.prod <| u32.prod <| u32.prod <|
    u32.prod u32).iso
    (fun (namelen, mode, filelen, atime, atimeNsec, mtime, mtimeNsec) =>
      ⟨namelen, mode, filelen, atime, atimeNsec, mtime, mtimeNsec⟩)
    (fun h => (h.namelen, h.mode, h.filelen, h.atime, h.atimeNsec, h.mtime,
      h.mtimeNsec))
    (fun _ => rfl) (fun _ => rfl)

/-- `struct result_header` -/
structure ResultHeader where
  errorCode : UInt32
  pad : UInt32
  crc32 : UInt64
deriving DecidableEq

def resultHeaderCodec : Codec ResultHeader :=
  (u32.prod <| u32.prod u64).iso
    (fun (errorCode, pad, crc32) => ⟨errorCode, pad, crc32⟩)
    (fun h => (h.errorCode, h.pad, h.crc32))
    (fun _ => rfl) (fun _ => rfl)

/-- `struct result_header_ext`, without the name behind it. -/
def resultHeaderExtCodec : Codec UInt32 := u32

example : fileHeaderCodec.width = 32 ∧ resultHeaderCodec.width = 16 := by
  decide

/-- The type bits of a mode. -/
def fileType (mode : UInt32) : UInt32 := mode &&& 0xF000

def sIsDir (mode : UInt32) : Bool := fileType mode == 0x4000
def sIsReg (mode : UInt32) : Bool := fileType mode == 0x8000
def sIsLnk (mode : UInt32) : Bool := fileType mode == 0xA000

/-- The `enum copy_flags`. -/
def COPY_ALLOW_SYMLINKS : Flags := 1#32 <<< 0
def COPY_ALLOW_DIRECTORIES : Flags := 1#32 <<< 1
def COPY_ALLOW_UNSAFE_CHARACTERS : Flags := 1#32 <<< 2
def COPY_ALLOW_NON_CANONICAL_SYMLINKS : Flags := 1#32 <<< 3
def COPY_ALLOW_UNSAFE_SYMLINKS : Flags := 1#32 <<< 4

theorem sIsDir_exclusive {mode : UInt32} (h : sIsDir mode = true) :
    sIsReg mode = false ∧ sIsLnk mode = false := by
  have htype : fileType mode = 0x4000 := eq_of_beq h
  rw [sIsReg, sIsLnk, htype]
  exact ⟨by decide, by decide⟩

theorem sIsLnk_exclusive {mode : UInt32} (h : sIsLnk mode = true) :
    sIsReg mode = false ∧ sIsDir mode = false := by
  have htype : fileType mode = 0xA000 := eq_of_beq h
  rw [sIsReg, sIsDir, htype]
  exact ⟨by decide, by decide⟩

/-- The bytes behind the name. -/
def FileHeader.payloadLength (header : FileHeader) : Nat :=
  if sIsReg header.mode ∨ sIsLnk header.mode then header.filelen.toNat else 0

/-- One file, directory or link of a transfer. -/
structure Entry where
  header : FileHeader
  name : List UInt8
  payload : List UInt8
  named : header.namelen ≠ 0
  nameLength : name.length = header.namelen.toNat
  payloadLength : payload.length = header.payloadLength
deriving DecidableEq

def Entry.frame (entry : Entry) : List UInt8 :=
  fileHeaderCodec.put entry.header ++ entry.name ++ entry.payload

/-- What identifies an entry. -/
def Entry.key (entry : Entry) : FileHeader × List UInt8 :=
  (entry.header, entry.name)

def frames (entries : List Entry) : List UInt8 := entries.flatMap Entry.frame

end QubesUtils
