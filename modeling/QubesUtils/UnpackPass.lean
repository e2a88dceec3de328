/-
The loop of the receiver, cut into passes: the part of a pass that reads a
header and a name, the handling of the entry, and the passes of a run.
-/
import QubesUtils.Unpack

namespace QubesUtils

open Process ByteCodec

/-! One pass. -/

/-- What a pass finds: no more entries, after the end marker or without it,
or an entry. -/
inductive PassStart
  | ended (seen : Bool)
  | entry (hdr : FileHeader) (name : List UInt8)

section

variable (limits : Limits)

/-- The part of `process_one_file` in front of the handler. -/
def startEntry (hdr : FileHeader) : Unpack PassStart := do
  if hdr.namelen.toNat > MAX_PATH_LENGTH - 1 then
    doExit (UInt32.ofNat ENAMETOOLONG) none
  else do
    match ← readAllWithCrc hdr.namelen.toNat with
    | none => doExit (UInt32.ofNat LEGAL_EOF) none
    | some bytes => do
        beginEntry (CString.ofBuffer bytes)
        pure (.entry hdr bytes)

/-- A pass up to the handler. -/
def startPass : Unpack PassStart := do
  match ← readAllWithCrc fileHeaderCodec.width with
  | none => pure (.ended false)
  | some bytes => do
      let hdr := fileHeaderCodec.get bytes
      if hdr.namelen = 0 then do
        setErrno 0
        pure (.ended true)
      else do
        countFile
        let w ← get
        if limits.filesLimit ≠ 0 ∧
            w.statics.totalFiles > limits.filesLimit then
          doExit (UInt32.ofNat EDQUOT) (some w.statics.untrustedNamebuf)
        else
          startEntry hdr

/-- The rest of the pass. -/
def handleEntry (flags : Flags) (hdr : FileHeader) (name : List UInt8) :
    Unpack Unit := do
  processByType limits hdr (CString.ofBuffer name) flags
  emit (.processed hdr name)

/-- `process_one_file_reg` up to the first file: the place of the file. -/
def filePlace (name : CString) (flags : Flags) : Unpack (Path × Name) := do
  let ret ← liftFault (qubesPureValidateFileNameV2 limits.table name flags)
  if ret ≠ 0 then
    doExit (UInt32.ofInt (-ret)) (some name)
  else do
    strdup name
    let w ← get
    opendirSafe w.statics.cwd (components name.bytes)

/-- The rest of `process_one_file_reg`. -/
def saveFile (hdr : FileHeader) (name : CString) :
    Path × Name → Unpack Unit
  | (dir, last) => do
      let fdout ← openOutput dir last name
      fillOutput limits fdout hdr name
      match ← nameOutput fdout dir last with
      | none => doExitErrno (some name)
      | some () => fixTimesAndPerms (.file fdout) hdr name

/-- `process_one_file_reg` up to the content: the open file, and its place. -/
def openFile (name : CString) (flags : Flags) :
    Unpack (Nat × Path × Name) := do
  let ret ← liftFault (qubesPureValidateFileNameV2 limits.table name flags)
  if ret ≠ 0 then
    doExit (UInt32.ofInt (-ret)) (some name)
  else do
    strdup name
    let w ← get
    let (dir, last) ← opendirSafe w.statics.cwd (components name.bytes)
    let fdout ← openOutput dir last name
    return (fdout, dir, last)

/-- The content of a file, up to the status of the copy. -/
def copyOutput (fdout : Nat) (hdr : FileHeader) (name : CString) :
    Unpack CopyStatus := do
  checkQuota limits hdr.filelen name
  reserveSpace limits hdr.filelen
  addTotalBytes hdr.filelen
  copyFile read (writeFile fdout) hdr.filelen.toNat

/-- What is made of the status of the copy. -/
def checkCopy (name : CString) : CopyStatus → Unpack Unit
  | .readEof => doExit (UInt32.ofNat LEGAL_EOF) (some name)
  | .readError => doExit (UInt32.ofNat LEGAL_EOF) (some name)
  | .writeError => doExitErrno (some name)
  | .ok => pure ()

def nameOrExit (name : CString) (fdout : Nat) (dir : Path)
    (segment : Name) : Unpack Nat := do
  match ← nameOutput fdout dir segment with
  | none => doExitErrno (some name)
  | some () => pure fdout

/-- The content and the name of an open file. -/
def fillFile (hdr : FileHeader) (name : CString) :
    Nat × Path × Name → Unpack Nat
  | (fdout, dir, last) => do
      fillOutput limits fdout hdr name
      nameOrExit name fdout dir last

/-- `process_one_file_reg` up to the times: the file, under its name. -/
def completeFile (hdr : FileHeader) (name : CString) (flags : Flags) :
    Unpack Nat := do
  let ret ← liftFault (qubesPureValidateFileNameV2 limits.table name flags)
  if ret ≠ 0 then
    doExit (UInt32.ofInt (-ret)) (some name)
  else do
    strdup name
    let w ← get
    let (dir, last) ← opendirSafe w.statics.cwd (components name.bytes)
    let fdout ← openOutput dir last name
    fillOutput limits fdout hdr name
    match ← nameOutput fdout dir last with
    | none => doExitErrno (some name)
    | some () => pure fdout

/-- `process_one_file_dir` up to the times: a directory that was there. -/
def reopenDir (name : CString) (flags : Flags) : Unpack (Option Path) := do
  let rc ← liftFault (qubesPureValidateFileNameV2 limits.table name flags)
  if rc ≠ 0 then
    doExit (UInt32.ofInt rc) (some name)
  else do
    strdup name
    let w ← get
    let (dir, last) ← opendirSafe w.statics.cwd (components name.bytes)
    match ← makeDir dir last with
    | some () => pure none
    | none => do
        let w ← get
        if w.errno ≠ UInt32.ofNat EEXIST then
          doExitErrno (some name)
        else do
          match ← openDir dir last with
          | none => doExitErrno (some name)
          | some path => do
              match ← attempt with
              | none => doExitErrno (some name)
              | some stat => do
                  addTotalBytes (UInt64.ofNat stat.amount)
                  pure (some path)

/-- `process_one_file_dir` up to `fstat`: a directory that was there, and
what is reported of it. -/
def statDir (name : CString) (flags : Flags) :
    Unpack (Option (Path × Outcome)) := do
  let rc ← liftFault (qubesPureValidateFileNameV2 limits.table name flags)
  if rc ≠ 0 then
    doExit (UInt32.ofInt rc) (some name)
  else do
    strdup name
    let w ← get
    let (dir, last) ← opendirSafe w.statics.cwd (components name.bytes)
    match ← makeDir dir last with
    | some () => pure none
    | none => do
        let w ← get
        if w.errno ≠ UInt32.ofNat EEXIST then
          doExitErrno (some name)
        else do
          match ← openDir dir last with
          | none => doExitErrno (some name)
          | some path => do
              match ← attempt with
              | none => doExitErrno (some name)
              | some stat => pure (some (path, stat))

def countDir : Option (Path × Outcome) → Unpack (Option Path)
  | none => pure none
  | some (path, stat) => do
      addTotalBytes (UInt64.ofNat stat.amount)
      pure (some path)

def fixReopened (hdr : FileHeader) (name : CString) :
    Option Path → Unpack Unit
  | none => pure ()
  | some path => fixTimesAndPerms (.dir path) hdr name

/-- `process_one_file_link` up to the validator: the target. -/
def receiveTarget (hdr : FileHeader) (name : CString) : Unpack CString := do
  if hdr.filelen.toNat > MAX_PATH_LENGTH - 1 then
    doExit (UInt32.ofNat ENAMETOOLONG) (some name)
  else do
    addTotalBytes hdr.filelen
    let w ← get
    if limits.bytesLimit ≠ 0 ∧ w.statics.totalBytes > limits.bytesLimit then
      doExit (UInt32.ofNat EDQUOT) (some name)
    else do
      match ← readAllWithCrc hdr.filelen.toNat with
      | none => doExit (UInt32.ofNat LEGAL_EOF) (some name)
      | some bytes => pure (CString.ofBuffer bytes)

def linkTarget (name : CString) (flags : Flags) (content : CString) :
    Unpack Unit := do
  let rc ← liftFault
    (qubesPureValidateSymbolicLinkV2 limits.table name content flags)
  if rc ≠ 0 then
    doExit (UInt32.ofInt (-rc)) (some content)
  else do
    strdup name
    let w ← get
    let (dir, last) ← opendirSafe w.statics.cwd (components name.bytes)
    match ← makeLink content dir last with
    | none => doExitErrno (some name)
    | some () => pure ()

/-- What follows the first part of a pass. -/
def finishPass (flags : Flags) (next : Unpack Bool) : PassStart → Unpack Bool
  | .ended seen => pure seen
  | .entry hdr name => do
      handleEntry limits flags hdr name
      next

end

section

variable {limits : Limits} {flags : Flags}

theorem doExit_bind {α β : Type} (code : UInt32) (last : Option CString)
    (next : α → Unpack β) :
    (doExit code last >>= next) = doExit code last := by
  rw [doExit, doExit, bind_assoc]
  rfl

theorem doExitErrno_bind {α β : Type} (last : Option CString)
    (next : α → Unpack β) :
    (doExitErrno last >>= next) = doExitErrno last := by
  rw [doExitErrno, doExitErrno, bind_assoc]
  congr 1
  funext w
  exact doExit_bind _ _ _

theorem processByType_reg {hdr : FileHeader} {name : CString}
    (hreg : sIsReg hdr.mode = true) : processByType limits hdr name flags =
      processOneFileReg limits hdr name (validateFlags flags) := by
  rw [processByType, if_pos hreg]

theorem processByType_link {hdr : FileHeader} {name : CString}
    (hlink : sIsLnk hdr.mode = true)
    (hflag : hasFlag flags COPY_ALLOW_SYMLINKS = true) :
    processByType limits hdr name flags =
      processOneFileLink limits hdr name (validateFlags flags) := by
  obtain ⟨hreg, _⟩ := sIsLnk_exclusive hlink
  rw [processByType, if_neg (by simp [hreg]), if_pos ⟨hlink, hflag⟩]

theorem processByType_dir {hdr : FileHeader} {name : CString}
    (hdir : sIsDir hdr.mode = true)
    (hflag : hasFlag flags COPY_ALLOW_DIRECTORIES = true) :
    processByType limits hdr name flags =
      processOneFileDir limits hdr name (validateFlags flags) := by
  obtain ⟨hreg, hlink⟩ := sIsDir_exclusive hdir
  rw [processByType, if_neg (by simp [hreg]), if_neg (by simp [hlink]),
    if_pos ⟨hdir, hflag⟩]

theorem fillOutput_eq (fdout : Nat) (hdr : FileHeader) (name : CString) :
    fillOutput limits fdout hdr name =
      copyOutput limits fdout hdr name >>= checkCopy name := by
  rw [fillOutput, copyOutput]
  simp only [bind_assoc]
  congr 1

theorem completeFile_eq (hdr : FileHeader) (name : CString) :
    completeFile limits hdr name flags =
      openFile limits name flags >>= fillFile limits hdr name := by
  rw [completeFile, openFile, bind_assoc]
  congr 1
  funext ret
  split
  · exact (doExit_bind _ _ _).symm
  · simp only [bind_assoc, pure_bind, fillFile, nameOrExit]

theorem reopenDir_eq (name : CString) :
    reopenDir limits name flags = statDir limits name flags >>= countDir := by
  rw [reopenDir, statDir, bind_assoc]
  congr 1
  funext rc
  split
  · exact (doExit_bind _ _ _).symm
  · simp only [bind_assoc]
    congr 1
    funext _
    congr 1
    funext w
    congr 1
    funext place
    congr 1
    funext made
    cases made with
    | some _ => simp only [pure_bind, countDir]
    | none =>
        simp only [bind_assoc]
        congr 1
        funext w'
        split
        · exact (doExitErrno_bind _ _).symm
        · rw [bind_assoc]
          congr 1
          funext opened
          cases opened with
          | none => exact (doExitErrno_bind _ _).symm
          | some path =>
              simp only [bind_assoc]
              congr 1
              funext stat
              cases stat with
              | none => exact (doExitErrno_bind _ _).symm
              | some stat => simp only [pure_bind, countDir]

theorem processOneFileReg_place (hdr : FileHeader) (name : CString) :
    processOneFileReg limits hdr name flags =
      filePlace limits name flags >>= saveFile limits hdr name := by
  rw [processOneFileReg, filePlace, bind_assoc]
  congr 1
  funext ret
  split
  · exact (doExit_bind _ _ _).symm
  · rw [bind_assoc]
    congr 1

theorem processOneFileReg_eq (hdr : FileHeader) (name : CString) :
    processOneFileReg limits hdr name flags =
      completeFile limits hdr name flags >>= fun fdout =>
        fixTimesAndPerms (.file fdout) hdr name := by
  rw [processOneFileReg, completeFile, bind_assoc]
  congr 1
  funext ret
  split
  · exact (doExit_bind _ _ _).symm
  · simp only [bind_assoc]
    congr 1
    funext _
    congr 1
    funext w
    congr 1
    funext place
    congr 1
    funext fdout
    congr 1
    funext _
    congr 1
    funext result
    cases result with
    | none => exact (doExitErrno_bind _ _).symm
    | some _ => rw [pure_bind]

theorem processOneFileDir_eq (hdr : FileHeader) (name : CString) :
    processOneFileDir limits hdr name flags =
      reopenDir limits name flags >>= fixReopened hdr name := by
  rw [processOneFileDir, reopenDir, bind_assoc]
  congr 1
  funext rc
  split
  · exact (doExit_bind _ _ _).symm
  · simp only [bind_assoc]
    congr 1
    funext _
    congr 1
    funext w
    congr 1
    funext place
    congr 1
    funext made
    cases made with
    | some _ => rw [pure_bind, fixReopened]
    | none =>
        simp only [bind_assoc]
        congr 1
        funext w
        split
        · exact (doExitErrno_bind _ _).symm
        · rw [bind_assoc]
          congr 1
          funext opened
          cases opened with
          | none => exact (doExitErrno_bind _ _).symm
          | some path =>
              simp only [bind_assoc]
              congr 1
              funext stat
              cases stat with
              | none => exact (doExitErrno_bind _ _).symm
              | some stat => simp only [bind_assoc, pure_bind, fixReopened]

theorem processOneFileLink_eq (hdr : FileHeader) (name : CString) :
    processOneFileLink limits hdr name flags =
      receiveTarget limits hdr name >>= linkTarget limits name flags := by
  rw [processOneFileLink, receiveTarget]
  split
  · exact (doExit_bind _ _ _).symm
  · rw [bind_assoc]
    congr 1
    funext _
    rw [bind_assoc]
    congr 1
    funext w
    split
    · exact (doExit_bind _ _ _).symm
    · rw [bind_assoc]
      congr 1
      funext result
      cases result with
      | none => exact (doExit_bind _ _ _).symm
      | some bytes => exact (pure_bind _ _).symm

theorem startEntry_finishPass (hdr : FileHeader) (next : Unpack Bool) :
    (startEntry hdr >>= finishPass limits flags next) =
      processOneFile limits hdr flags >>= fun _ => next := by
  rw [startEntry, processOneFile]
  split
  · rw [doExit_bind, doExit_bind]
  · rw [bind_assoc, bind_assoc]
    congr 1
    funext result
    cases result with
    | none =>
        change (doExit _ _ >>= _) = (doExit _ _ >>= _)
        rw [doExit_bind, doExit_bind]
    | some bytes =>
        simp only [bind_assoc, pure_bind, finishPass, handleEntry]

/-- The loop is one pass after the other. -/
theorem unpackLoop_succ (fuel : Nat) :
    unpackLoop limits flags (fuel + 1) =
      startPass limits >>=
        finishPass limits flags (unpackLoop limits flags fuel) := by
  rw [unpackLoop, startPass, bind_assoc]
  congr 1
  funext result
  cases result with
  | none => rfl
  | some bytes =>
      simp only
      split
      · rfl
      · rw [bind_assoc]
        congr 1
        funext _
        rw [bind_assoc]
        congr 1
        funext w
        split
        · exact (doExit_bind _ _ _).symm
        · exact (startEntry_finishPass _ _).symm

end

/-- Passes that come to their end, and what they have processed. -/
inductive Passes (limits : Limits) (flags : Flags) :
    World Unpacker → List (FileHeader × List UInt8) → World Unpacker → Prop
  | nil (w : World Unpacker) : Passes limits flags w [] w
  | cons {w w₁ w₂ w₃ : World Unpacker} {hdr : FileHeader}
      {name : List UInt8} {done : List (FileHeader × List UInt8)}
      (hstart : (startPass limits).run w = .ok (.entry hdr name) w₁)
      (hentry : (handleEntry limits flags hdr name).run w₁ = .ok () w₂)
      (hrest : Passes limits flags w₂ done w₃) :
      Passes limits flags w ((hdr, name) :: done) w₃

end QubesUtils
