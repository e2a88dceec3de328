/-
The sender of `qrexec-lib/pack.c`.  What it finds under the names that it
visits is data; an open file is the bytes that have not been read yet.  What
`set_ignore_quota_error` has set is a parameter.
-/
import QubesUtils.Process

namespace QubesUtils

open ByteCodec Process

def INT_MAX : Nat := 2147483647

/-- What `lstat` says; a size is not negative. -/
structure Stat where
  mode : UInt32
  size : UInt64
  atim : Timespec
  mtim : Timespec
  size_lt : size.toNat < 2 ^ 63
deriving DecidableEq

/-- A name of a directory, what is found there, and for a directory what is
found in it.  The data are the content of a file or the target of a link. -/
inductive Source
  | node (name : CString) (stat : Stat) (data : List UInt8)
      (children : List Source)

def Source.name : Source → CString
  | .node name _ _ _ => name

/-- The open file. -/
structure Packer where
  openFile : List UInt8

abbrev Pack := Process Packer

/-! Results. -/

/-- `sanitize_remote_filename` -/
def sanitizeRemoteFilename (untrustedFilename : List UInt8) : List UInt8 :=
  untrustedFilename.map fun byte =>
    if byte < 0x20 ∨ byte > 0x7E ∨ byte = 0x22 then 0x5F else byte

/-- The name behind a result, or nothing if it cannot be read. -/
def readLastFilename : Pack (List UInt8) := do
  let ext ← readAll resultHeaderExtCodec.width
  let lastNamelen := match ext with
    | none => 0
    | some bytes => min (resultHeaderExtCodec.get bytes).toNat MAX_PATH_LENGTH
  let last ← readAll lastNamelen
  return sanitizeRemoteFilename (CString.ofBuffer (last.getD [])).bytes

section

variable (ignoreQuotaError : Bool)

/-- The messages for the codes of a result. -/
def judgeResult (hdr : ResultHeader) (lastFilename : List UInt8) :
    Pack Unit := do
  let w ← get
  if hdr.errorCode = 0 then
    if hdr.crc32 ≠ w.crc32Sum then
      throw (.message .checksumMismatch)
    else
      pure ()
  else if hdr.errorCode = UInt32.ofNat EEXIST then
    throw (.message (.alreadyExists lastFilename))
  else if hdr.errorCode = UInt32.ofNat EINVAL then
    throw (.message (.corruptedData lastFilename))
  else if hdr.errorCode = UInt32.ofNat EILSEQ then
    throw (.message (.forbiddenCharacter lastFilename))
  else if hdr.errorCode = UInt32.ofNat ENOLINK then
    throw (.message (.brokenLink lastFilename))
  else if hdr.errorCode = UInt32.ofNat EDQUOT ∧ ignoreQuotaError then
    pure ()
  else
    throw (.message (.fileCopy hdr.errorCode lastFilename))

/-- `wait_for_result`; without a result and with an open pipe it returns. -/
def waitForResult : Pack Unit := do
  match ← readAll resultHeaderCodec.width with
  | none => do
      let w ← get
      if w.errno = UInt32.ofNat EAGAIN then
        pure ()
      else
        throw (.exit 1)
  | some bytes => do
      let lastFilename ← readLastFilename
      setErrno (resultHeaderCodec.get bytes).errorCode
      judgeResult ignoreQuotaError (resultHeaderCodec.get bytes) lastFilename

/-- What follows a failed write. -/
def giveUp {α : Type} : Pack α := do
  setBlock
  waitForResult ignoreQuotaError
  throw (.exit 1)

/-! Entries. -/

/-- `write_headers` -/
def writeHeaders (hdr : FileHeader) (filename : CString) : Pack Unit := do
  if ← writeAllWithCrc (fileHeaderCodec.put hdr) then
    if ← writeAllWithCrc
        ((filename.bytes ++ [0]).take hdr.namelen.toNat) then
      pure ()
    else
      giveUp ignoreQuotaError
  else
    giveUp ignoreQuotaError

def fileHeader (filename : CString) (st : Stat) (filelen : UInt64) :
    FileHeader where
  namelen := UInt32.ofNat (filename.bytes.length + 1)
  mode := st.mode
  filelen
  atime := st.atim.sec.toUInt32
  atimeNsec := st.atim.nsec.toUInt32
  mtime := st.mtim.sec.toUInt32
  mtimeNsec := st.mtim.nsec.toUInt32

/-- `open` for reading. -/
def openSource (data : List UInt8) : Pack (Option Unit) := do
  match ← attempt with
  | none => pure none
  | some _ => do
      modify fun w => { w with statics := { w.statics with openFile := data } }
      pure (some ())

/-- `read` from the open file. -/
def readSource (count : Nat) : Pack ReadResult := do
  let outcome ← nextOutcome
  match outcome.error with
  | some errno => do
      setErrno errno.value
      pure .error
  | none => do
      let w ← get
      if w.statics.openFile = [] then
        pure .eof
      else do
        let size := min count (outcome.amount + 1)
        modify fun w => { w with statics := { w.statics with
          openFile := w.statics.openFile.drop size } }
        pure (.data (w.statics.openFile.take size))

/-- The target of a link, cut at the size of the buffer; no target has as
many bytes as an `int` can count. -/
def readlink (target : List UInt8) (bufsize : Nat) :
    Pack (Option (List UInt8)) := do
  match ← attempt with
  | none => pure none
  | some _ =>
      if INT_MAX ≤ target.length then do
        setErrno (UInt32.ofNat ENAMETOOLONG)
        pure none
      else
        pure (some (target.take bufsize))

/-- A regular file. -/
def sendRegular (filename : CString) (st : Stat) (data : List UInt8) :
    Pack Unit := do
  match ← openSource data with
  | none => throw (.message (.open filename.bytes))
  | some () => do
      writeHeaders ignoreQuotaError (fileHeader filename st st.size) filename
      match ← copyFile readSource writeStdout st.size.toNat with
      | .readEof => throw (.message (.copying filename.bytes false))
      | .readError => throw (.message (.copying filename.bytes true))
      | .writeError => giveUp ignoreQuotaError
      | .ok => pure ()

/-- A symbolic link. -/
def sendLink (filename : CString) (st : Stat) (data : List UInt8) :
    Pack Unit := do
  match ← readlink data (st.size.toNat + 1) with
  | none => throw (.message (.readlink filename.bytes))
  | some name =>
      if name.length ≠ st.size.toNat then
        throw (.message (.readlink filename.bytes))
      else do
        writeHeaders ignoreQuotaError (fileHeader filename st st.size) filename
        if ← writeAllWithCrc name then pure () else giveUp ignoreQuotaError

/-- Objects of other types are not sent. -/
def sendByType (filename : CString) (st : Stat) (data : List UInt8) :
    Pack Unit :=
  if sIsReg st.mode then sendRegular ignoreQuotaError filename st data
  else if sIsDir st.mode then
    writeHeaders ignoreQuotaError (fileHeader filename st 0) filename
  else if sIsLnk st.mode then sendLink ignoreQuotaError filename st data
  else pure ()

def singleFileProcessor (filename : CString) (st : Stat)
    (data : List UInt8) : Pack Unit := do
  sendByType ignoreQuotaError filename st data
  waitForResult ignoreQuotaError

/-! The walk. -/

/-- `lstat`; no path has as many bytes as an `int` can count. -/
def lstat (file : CString) : Pack (Option Outcome) := do
  if INT_MAX ≤ file.bytes.length then do
    setErrno (UInt32.ofNat ENAMETOOLONG)
    pure none
  else
    attempt

/-- A name in a directory: `"%s/%s"`. -/
def pathUnder (file name : CString) : CString where
  bytes := file.bytes ++ slash :: name.bytes
  noNul := by
    intro h
    rcases List.mem_append.mp h with h | h
    · exact file.noNul h
    · rcases List.mem_cons.mp h with h | h
      · exact absurd h (by decide)
      · exact name.noNul h

/-- The names that every directory has. -/
def skipped (name : CString) : Bool :=
  name.bytes == [dot] || name.bytes == [dot, dot]

/-- `opendir` -/
def opendir (file : CString) : Pack Unit := do
  match ← attempt with
  | none => throw (.message (.opendir file.bytes))
  | some _ => pure ()

/-- `asprintf` -/
def asprintf : Pack Unit := do
  match ← attempt with
  | none => throw (.exit 1)
  | some _ => pure ()

mutual

def doFsWalk (ignoreSymlinks : Bool) (file : CString) : Source → Pack Unit
  | .node _ st data children => do
      match ← lstat file with
      | none => throw (.message (.stat file.bytes))
      | some _ =>
          if sIsLnk st.mode ∧ ignoreSymlinks then
            pure ()
          else do
            singleFileProcessor ignoreQuotaError file st data
            if sIsDir st.mode then do
              opendir file
              walkEntries ignoreSymlinks file children
              singleFileProcessor ignoreQuotaError file st data
            else
              pure ()

/-- The loop over the entries of a directory. -/
def walkEntries (ignoreSymlinks : Bool) (file : CString) :
    List Source → Pack Unit
  | [] => pure ()
  | entry :: rest =>
      if skipped entry.name then
        walkEntries ignoreSymlinks file rest
      else do
        asprintf
        doFsWalk ignoreSymlinks (pathUnder file entry.name) entry
        walkEntries ignoreSymlinks file rest

end

/-! The protocol. -/

def qfilePackInit : Pack Unit :=
  modify fun w => { w with
    crc32Sum := 0
    nonblocking := true }

def endHeader : FileHeader := ⟨0, 0, 0, 0, 0, 0, 0⟩

/-- The first half of `notify_end_and_wait_for_result`. -/
def notifyEnd : Pack Unit := do
  let _ ← writeAllWithCrc (fileHeaderCodec.put endHeader)
  setBlock

/-- What a program does between `qfile_pack_init` and
`notify_end_and_wait_for_result`.  A name that is passed directly is one that
has been looked up. -/
inductive Call
  | single (filename : CString) (st : Stat) (data : List UInt8)
      (short : filename.bytes.length < INT_MAX)
  | walk (ignoreSymlinks : Bool) (file : CString) (source : Source)

def Call.run : Call → Pack Unit
  | .single filename st data _ =>
      singleFileProcessor ignoreQuotaError filename st data
  | .walk ignoreSymlinks file source =>
      doFsWalk ignoreQuotaError ignoreSymlinks file source

end

end QubesUtils
