/-
The receiver of `qrexec-lib/unpack.c`.  Its system calls change a file system
and are recorded, each with the entry that is being processed; descriptors are
the objects they refer to, and closing one has no effect here.
-/
import QubesUtils.Process

namespace QubesUtils

open ByteCodec Process FileSystem

def ENOMEM : Nat := 12
def EREMOTEIO : Nat := 121
def EOPNOTSUPP : Nat := 95

/-- What a successful call did. -/
inductive Effect
  | create (dir : Path) (name : Name) (ino : Nat)
  | tmpfile (dir : Path) (ino : Nat)
  | write (ino : Nat)
  | link (ino : Nat) (dir : Path) (name : Name)
  | mkdir (dir : Path) (name : Name)
  | symlink (target : CString) (dir : Path) (name : Name)
  | chmod (object : Object)
  | utimes (object : Object)

/-- One change of the file system, made for the entry that was received as
`name` when the file system was `start`. -/
structure Mutation where
  name : CString
  start : FileSystem
  effect : Effect
  before : FileSystem
  after : FileSystem

/-- The static variables, the current directory and the file system.  `start`
and `mutations` are a record of the run and are never read. -/
structure Unpacker where
  untrustedNamebuf : CString
  totalBytes : UInt64
  totalFiles : UInt64
  useTmpfile : Bool
  cwd : Path
  fs : FileSystem
  start : FileSystem
  mutations : List Mutation

/-- What `set_size_limit` and `set_wait_for_space` have set; the table of
`unicode-allowlist-table.c`. -/
structure Limits where
  table : AllowTable
  bytesLimit : UInt64
  filesLimit : UInt64
  waitForSpaceMargin : UInt64

abbrev Unpack := Process Unpacker

/-! System calls. -/

/-- The file system after a call, and the record of the call. -/
def Unpacker.record (u : Unpacker) (effect : Effect) (fs : FileSystem) :
    Unpacker :=
  { u with
    fs
    mutations := u.mutations ++
      [⟨u.untrustedNamebuf, u.start, effect, u.fs, fs⟩] }

def commit (effect : Effect) (fs : FileSystem) : Unpack Unit :=
  modify fun w => { w with statics := w.statics.record effect fs }

/-- A call that fails, or changes the file system. -/
def perform {α : Type} (call : FileSystem → Outcome →
    Except Errno (α × Effect × FileSystem)) : Unpack (Option α) := do
  match ← attempt with
  | none => pure none
  | some outcome => do
      let w ← get
      match call w.statics.fs outcome with
      | .error errno => do
          setErrno errno.value
          pure none
      | .ok (result, effect, fs) => do
          commit effect fs
          pure (some result)

def openDir (dir : Path) (segment : Name) : Unpack (Option Path) := do
  match ← attempt with
  | none => pure none
  | some _ => do
      let w ← get
      match w.statics.fs.openDirAt dir segment with
      | .error errno => do
          setErrno errno.value
          pure none
      | .ok path => pure (some path)

/-- `openat` with `O_CREAT | O_EXCL | O_NOFOLLOW` and mode 0. -/
def createFile (dir : Path) (segment : Name) : Unpack (Option Nat) :=
  perform fun fs outcome => do
    let fs' ← fs.createAt dir segment 0 outcome.now
    return (fs.next, .create dir segment fs.next, fs')

/-- `openat` with `O_TMPFILE` and mode 0700. -/
def openTmpfile (dir : Path) : Unpack (Option Nat) :=
  perform fun fs outcome => do
    let fs' ← fs.tmpfileAt dir 0o700 outcome.now
    return (fs.next, .tmpfile dir fs.next, fs')

/-- `write` to a file: the number of bytes that were taken, which may be 0. -/
def writeFile (ino : Nat) (data : List UInt8) : Unpack (Option Nat) :=
  perform fun fs outcome =>
    let part := data.take outcome.count
    .ok (part.length, .write ino, fs.append ino part outcome.now)

/-- `linkat` through the directory of open descriptors. -/
def linkFile (ino : Nat) (dir : Path) (segment : Name) :
    Unpack (Option Unit) :=
  perform fun fs outcome => do
    let fs' ← fs.linkAt ino dir segment outcome.now
    return ((), .link ino dir segment, fs')

def makeDir (dir : Path) (segment : Name) : Unpack (Option Unit) :=
  perform fun fs outcome => do
    let fs' ← fs.mkdirAt dir segment 0o700 outcome.now
    return ((), .mkdir dir segment, fs')

def makeLink (target : CString) (dir : Path) (segment : Name) :
    Unpack (Option Unit) :=
  perform fun fs outcome => do
    let fs' ← fs.symlinkAt target.bytes dir segment outcome.now
    return ((), .symlink target dir segment, fs')

def fchmod (object : Object) (mode : UInt32) : Unpack (Option Unit) :=
  perform fun fs _ =>
    .ok ((), .chmod object, fs.change object fun a => { a with mode })

def futimens (object : Object) (atime mtime : Timespec) :
    Unpack (Option Unit) :=
  perform fun fs _ => .ok ((), .utimes object,
    fs.change object fun a => { a with atime, mtime })

/-- `fstatvfs` reports the free space until there is enough, or fails. -/
def pollSpace (howMuch : UInt64) :
    List Outcome → Option Errno × List Outcome
  | [] => (none, [])
  | outcome :: rest =>
      match outcome.error with
      | some errno => (some errno, rest)
      | none =>
          if outcome.amount < howMuch.toNat then pollSpace howMuch rest
          else (none, rest)

def waitForSpace (howMuch : UInt64) : Unpack Unit :=
  modify fun w => { w with
    errno := ((pollSpace howMuch w.outcomes).1.map Errno.value).getD w.errno
    outcomes := (pollSpace howMuch w.outcomes).2 }

/-! Results. -/

/-- `send_status_and_crc` -/
def sendStatusAndCrc (code : UInt32) (lastFilename : Option CString) :
    Unpack Unit := do
  let w ← get
  let _ ← writeAll writeStdout
    (resultHeaderCodec.put ⟨code, 0, w.crc32Sum⟩)
  match lastFilename with
  | none => pure ()
  | some name => do
      let _ ← writeAll writeStdout
        (resultHeaderExtCodec.put (UInt32.ofNat name.bytes.length))
      let _ ← writeAll writeStdout name.bytes
      pure ()
  setErrno w.errno

def doExit {α : Type} (code : UInt32) (lastFilename : Option CString) :
    Unpack α := do
  sendStatusAndCrc code lastFilename
  throw (.exit code)

/-- `do_exit(errno, ...)` -/
def doExitErrno {α : Type} (lastFilename : Option CString) : Unpack α := do
  let w ← get
  doExit w.errno lastFilename

/-- `strdup` -/
def strdup (lastFilename : CString) : Unpack Unit := do
  match ← attempt with
  | none => doExit (UInt32.ofNat ENOMEM) (some lastFilename)
  | some _ => pure ()

def validateUtimeNsec (untrustedNsec : UInt32) : Unpack UInt64 :=
  if untrustedNsec > 999999999 then
    throw (.message (.invalidNanoseconds untrustedNsec))
  else
    pure untrustedNsec.toUInt64

/-- The mode of a symbolic link is not changed. -/
def setMode (object : Object) (hdr : FileHeader) : Unpack (Option Unit) :=
  if sIsLnk hdr.mode then pure (some ())
  else fchmod object (hdr.mode &&& 0o7777)

def fixTimesAndPerms (object : Object) (hdr : FileHeader)
    (name : CString) : Unpack Unit := do
  let atimeNsec ← validateUtimeNsec hdr.atimeNsec
  let mtimeNsec ← validateUtimeNsec hdr.mtimeNsec
  match ← setMode object hdr with
  | none => doExitErrno (some name)
  | some () => do
      match ← futimens object ⟨hdr.atime.toUInt64, atimeNsec⟩
          ⟨hdr.mtime.toUInt64, mtimeNsec⟩ with
      | none => doExitErrno (some name)
      | some () => pure ()

/-- `opendir_safe` on the pieces of the path, which it cuts at each slash: the
directory of the last one. -/
def opendirSafe (dir : Path) : List Name → Unpack (Path × Name)
  | [] => throw .abort
  | [last] => pure (dir, last)
  | segment :: rest =>
      if segment.length ≤ 2 ∧
          segment = dotdotComponent.take segment.length then
        throw .abort
      else do
        match ← openDir dir segment with
        | none => doExitErrno (some (CString.ofBuffer segment))
        | some dir => opendirSafe dir rest

section

variable (limits : Limits)

def setUseTmpfile (value : Bool) : Unpack Unit :=
  modify fun w => { w with
    statics := { w.statics with useTmpfile := value } }

/-- A file without a name, or nothing if the kernel or the file system cannot
make one. -/
def tryTmpfile (dir : Path) (name : CString) : Unpack (Option Nat) := do
  let w ← get
  if w.statics.useTmpfile then do
    match ← openTmpfile dir with
    | some ino => pure (some ino)
    | none => do
        let w ← get
        if w.errno = UInt32.ofNat ENOENT ∨
            w.errno = UInt32.ofNat EOPNOTSUPP then do
          setUseTmpfile false
          pure none
        else
          doExitErrno (some name)
  else
    pure none

/-- The file that is written to. -/
def openOutput (dir : Path) (segment : Name) (name : CString) :
    Unpack Nat := do
  match ← tryTmpfile dir name with
  | some ino => pure ino
  | none => do
      match ← createFile dir segment with
      | some ino => pure ino
      | none => doExitErrno (some name)

/-- The limits on the size of a file. -/
def checkQuota (filelen : UInt64) (name : CString) : Unpack Unit := do
  let w ← get
  if filelen.toNat ≥ 2 ^ 63 ∨
      (limits.bytesLimit ≠ 0 ∧ filelen > limits.bytesLimit) then
    doExit (UInt32.ofNat EDQUOT) (some name)
  else if limits.bytesLimit ≠ 0 ∧
      w.statics.totalBytes > limits.bytesLimit - filelen then
    doExit (UInt32.ofNat EDQUOT) (some name)
  else
    pure ()

def addTotalBytes (count : UInt64) : Unpack Unit :=
  modify fun w => { w with
    statics := { w.statics with totalBytes := w.statics.totalBytes + count } }

def reserveSpace (filelen : UInt64) : Unpack Unit :=
  if limits.waitForSpaceMargin ≠ 0 then
    waitForSpace (filelen + limits.waitForSpaceMargin)
  else
    pure ()

/-- The content of a file, from the stream. -/
def fillOutput (fdout : Nat) (hdr : FileHeader) (name : CString) :
    Unpack Unit := do
  checkQuota limits hdr.filelen name
  reserveSpace limits hdr.filelen
  addTotalBytes hdr.filelen
  match ← copyFile read (writeFile fdout) hdr.filelen.toNat with
  | .readEof => doExit (UInt32.ofNat LEGAL_EOF) (some name)
  | .readError => doExit (UInt32.ofNat LEGAL_EOF) (some name)
  | .writeError => doExitErrno (some name)
  | .ok => pure ()

/-- A file without a name gets its name when it is complete. -/
def nameOutput (fdout : Nat) (dir : Path) (segment : Name) :
    Unpack (Option Unit) := do
  let w ← get
  if w.statics.useTmpfile then linkFile fdout dir segment
  else pure (some ())

def processOneFileReg (hdr : FileHeader) (name : CString) (flags : Flags) :
    Unpack Unit := do
  let ret ← liftFault (qubesPureValidateFileNameV2 limits.table name flags)
  if ret ≠ 0 then
    doExit (UInt32.ofInt (-ret)) (some name)
  else do
    strdup name
    let w ← get
    let (dir, last) ← opendirSafe w.statics.cwd (components name.bytes)
    let fdout ← openOutput dir last name
    fillOutput limits fdout hdr name
    match ← nameOutput fdout dir last with
    | none => doExitErrno (some name)
    | some () => fixTimesAndPerms (.file fdout) hdr name

def processOneFileDir (hdr : FileHeader) (name : CString) (flags : Flags) :
    Unpack Unit := do
  let rc ← liftFault (qubesPureValidateFileNameV2 limits.table name flags)
  if rc ≠ 0 then
    doExit (UInt32.ofInt rc) (some name)
  else do
    strdup name
    let w ← get
    let (dir, last) ← opendirSafe w.statics.cwd (components name.bytes)
    match ← makeDir dir last with
    | some () => pure ()
    | none => do
        let w ← get
        if w.errno ≠ UInt32.ofNat EEXIST then
          doExitErrno (some name)
        else do
          match ← openDir dir last with
          | none => doExitErrno (some name)
          | some path => do
              match ← attempt with
              | none => doExitErrno (some name)
              | some stat => do
                  addTotalBytes (UInt64.ofNat stat.amount)
                  fixTimesAndPerms (.dir path) hdr name

def processOneFileLink (hdr : FileHeader) (name : CString) (flags : Flags) :
    Unpack Unit := do
  if hdr.filelen.toNat > MAX_PATH_LENGTH - 1 then
    doExit (UInt32.ofNat ENAMETOOLONG) (some name)
  else do
    addTotalBytes hdr.filelen
    let w ← get
    if limits.bytesLimit ≠ 0 ∧ w.statics.totalBytes > limits.bytesLimit then
      doExit (UInt32.ofNat EDQUOT) (some name)
    else do
      match ← readAllWithCrc hdr.filelen.toNat with
      | none => doExit (UInt32.ofNat LEGAL_EOF) (some name)
      | some bytes => do
          let content := CString.ofBuffer bytes
          let rc ← liftFault
            (qubesPureValidateSymbolicLinkV2 limits.table name content flags)
          if rc ≠ 0 then
            doExit (UInt32.ofInt (-rc)) (some content)
          else do
            strdup name
            let w ← get
            let (dir, last) ←
              opendirSafe w.statics.cwd (components name.bytes)
            match ← makeLink content dir last with
            | none => doExitErrno (some name)
            | some () => pure ()

/-- The flags for the validators that the flags of the caller give. -/
def validateFlags (flags : Flags) : Flags :=
  flags >>> 2 &&& (qubesPureAllowUnsafeCharacters |||
    qubesPureAllowUnsafeSymlinks ||| qubesPureAllowNonCanonicalSymlinks)

/-- The handler for the type of a file. -/
def processByType (hdr : FileHeader) (name : CString) (flags : Flags) :
    Unpack Unit :=
  if sIsReg hdr.mode then
    processOneFileReg limits hdr name (validateFlags flags)
  else if sIsLnk hdr.mode ∧ hasFlag flags COPY_ALLOW_SYMLINKS then
    processOneFileLink limits hdr name (validateFlags flags)
  else if sIsDir hdr.mode ∧ hasFlag flags COPY_ALLOW_DIRECTORIES then
    processOneFileDir limits hdr name (validateFlags flags)
  else
    doExit (UInt32.ofNat EINVAL) (some name)

/-- The name that is processed now. -/
def beginEntry (name : CString) : Unpack Unit :=
  modify fun w => { w with statics := { w.statics with
    untrustedNamebuf := name, start := w.statics.fs } }

def processOneFile (hdr : FileHeader) (flags : Flags) : Unpack Unit := do
  if hdr.namelen.toNat > MAX_PATH_LENGTH - 1 then
    doExit (UInt32.ofNat ENAMETOOLONG) none
  else do
    match ← readAllWithCrc hdr.namelen.toNat with
    | none => doExit (UInt32.ofNat LEGAL_EOF) none
    | some bytes => do
        beginEntry (CString.ofBuffer bytes)
        processByType limits hdr (CString.ofBuffer bytes) flags
        emit (.processed hdr bytes)

def countFile : Unpack Unit :=
  modify fun w => { w with
    statics := { w.statics with totalFiles := w.statics.totalFiles + 1 } }

/-- The loop of `do_unpack_ext`: whether it has seen the end of the transfer.
Every pass but the last reads a header. -/
def unpackLoop (flags : Flags) : Nat → Unpack Bool
  | 0 => throw .outOfFuel
  | fuel + 1 => do
      match ← readAllWithCrc fileHeaderCodec.width with
      | none => pure false
      | some bytes => do
          let hdr := fileHeaderCodec.get bytes
          if hdr.namelen = 0 then do
            setErrno 0
            pure true
          else do
            countFile
            let w ← get
            if limits.filesLimit ≠ 0 ∧
                w.statics.totalFiles > limits.filesLimit then
              doExit (UInt32.ofNat EDQUOT) (some w.statics.untrustedNamebuf)
            else do
              processOneFile limits hdr flags
              unpackLoop flags fuel

/-- `syncfs` -/
def syncfs : Unpack (Option Outcome) := do
  match ← attempt with
  | none => pure none
  | some outcome => do
      emit .synced
      pure (some outcome)

/-- The current directory is opened, synced and closed, in that order and as
long as nothing fails. -/
def syncCwd (savedErrno : UInt32) : Unpack Unit := do
  match ← attempt with
  | none => pure ()
  | some _ => do
      match ← syncfs with
      | none => pure ()
      | some _ => do
          match ← attempt with
          | none => pure ()
          | some _ => setErrno savedErrno

def doUnpackExt (flags : Flags) : Unpack UInt32 := do
  modify fun w => { w with
    crc32Sum := 0
    statics := { w.statics with totalBytes := 0, totalFiles := 0 } }
  let w ← get
  let endOfTransferMarkerSeen ← unpackLoop limits flags (w.stdin.length + 1)
  let w ← get
  let savedErrno := if endOfTransferMarkerSeen = false ∧ w.errno = 0
    then UInt32.ofNat EREMOTEIO else w.errno
  setErrno savedErrno
  syncCwd savedErrno
  let w ← get
  sendStatusAndCrc w.errno (some w.statics.untrustedNamebuf)
  return w.errno

def doUnpack : Unpack UInt32 :=
  doUnpackExt limits (COPY_ALLOW_DIRECTORIES ||| COPY_ALLOW_SYMLINKS)

end

end QubesUtils
