/-
The points of a run of the receiver at which an entry is counted, a size is
added to the total or checked, or content is received, and the pieces of the
program between them.
-/
import QubesUtils.UnpackRun

namespace QubesUtils

open Hoare Process ByteCodec FileSystem

/-- A point of the loop: between two entries, or behind the loop; where
`process_one_file` is called; where the size of an open file is checked next,
and where its content is copied next; where the size of a link has been added,
and where its content is read next; where the size of a directory that was
there has been added. -/
inductive Point
  | between
  | ended (seen : Bool)
  | handed (hdr : FileHeader)
  | opened (hdr : FileHeader) (name : List UInt8) (output : Nat × Path × Name)
  | copying (hdr : FileHeader) (name : List UInt8) (output : Nat × Path × Name)
  | raised (hdr : FileHeader) (name : List UInt8)
  | reading (hdr : FileHeader) (name : List UInt8)
  | reopened (hdr : FileHeader) (name : List UInt8) (path : Path)
      (size : UInt64)

/-! Pieces of a pass. -/

section

variable (limits : Limits) (flags : Flags)

/-- The next header, with the limit on the number of entries. -/
def nextHeader : Unpack Point := do
  match ← readAllWithCrc fileHeaderCodec.width with
  | none => pure (.ended false)
  | some bytes => do
      let hdr := fileHeaderCodec.get bytes
      if hdr.namelen = 0 then do
        setErrno 0
        pure (.ended true)
      else do
        countFile
        let w ← get
        if limits.filesLimit ≠ 0 ∧
            w.statics.totalFiles > limits.filesLimit then
          doExit (UInt32.ofNat EDQUOT) (some w.statics.untrustedNamebuf)
        else
          pure (.handed hdr)

def receiveName (hdr : FileHeader) : Unpack (List UInt8) := do
  if hdr.namelen.toNat > MAX_PATH_LENGTH - 1 then
    doExit (UInt32.ofNat ENAMETOOLONG) none
  else do
    match ← readAllWithCrc hdr.namelen.toNat with
    | none => doExit (UInt32.ofNat LEGAL_EOF) none
    | some bytes => do
        beginEntry (CString.ofBuffer bytes)
        pure bytes

/-- The size of a link is added before it is checked. -/
def raiseTotal (hdr : FileHeader) (name : List UInt8) : Unpack Point := do
  if hdr.filelen.toNat > MAX_PATH_LENGTH - 1 then
    doExit (UInt32.ofNat ENAMETOOLONG) (some (CString.ofBuffer name))
  else do
    addTotalBytes hdr.filelen
    pure (.raised hdr name)

def checkTotal (hdr : FileHeader) (name : List UInt8) : Unpack Point := do
  let w ← get
  if limits.bytesLimit ≠ 0 ∧ w.statics.totalBytes > limits.bytesLimit then
    doExit (UInt32.ofNat EDQUOT) (some (CString.ofBuffer name))
  else
    pure (.reading hdr name)

def readTarget (hdr : FileHeader) (name : List UInt8) : Unpack CString := do
  match ← readAllWithCrc hdr.filelen.toNat with
  | none => doExit (UInt32.ofNat LEGAL_EOF) (some (CString.ofBuffer name))
  | some bytes => pure (CString.ofBuffer bytes)

def finishEntry (hdr : FileHeader) (name : List UInt8) : Unpack Point := do
  emit (.processed hdr name)
  pure .between

/-- The size of a directory that was there is added and not checked. -/
def countReopened (hdr : FileHeader) (name : List UInt8) :
    Option (Path × Outcome) → Unpack Point
  | none => finishEntry hdr name
  | some (path, stat) => do
      addTotalBytes (UInt64.ofNat stat.amount)
      pure (.reopened hdr name path (UInt64.ofNat stat.amount))

/-- The handler for the type of a file, up to the first size. -/
def dispatch (hdr : FileHeader) (name : List UInt8) : Unpack Point :=
  if sIsReg hdr.mode then do
    let output ← openFile limits (CString.ofBuffer name) (validateFlags flags)
    pure (.opened hdr name output)
  else if sIsLnk hdr.mode ∧ hasFlag flags COPY_ALLOW_SYMLINKS then
    raiseTotal hdr name
  else if sIsDir hdr.mode ∧ hasFlag flags COPY_ALLOW_DIRECTORIES then do
    let found ← statDir limits (CString.ofBuffer name) (validateFlags flags)
    countReopened hdr name found
  else
    doExit (UInt32.ofNat EINVAL) (some (CString.ofBuffer name))

/-- The size of a file is checked before it is added. -/
def checkSize (hdr : FileHeader) (name : List UInt8)
    (output : Nat × Path × Name) : Unpack Point := do
  checkQuota limits hdr.filelen (CString.ofBuffer name)
  reserveSpace limits hdr.filelen
  addTotalBytes hdr.filelen
  pure (.copying hdr name output)

def copyContent (hdr : FileHeader) (name : List UInt8) :
    Nat × Path × Name → Unpack Unit
  | (fdout, dir, last) => do
      let status ← copyFile read (writeFile fdout) hdr.filelen.toNat
      checkCopy (CString.ofBuffer name) status
      let fdout ← nameOrExit (CString.ofBuffer name) fdout dir last
      fixTimesAndPerms (.file fdout) hdr (CString.ofBuffer name)

/-- From a point to the next one. -/
def advance : Point → Unpack Point
  | .between => nextHeader limits
  | .ended seen => pure (.ended seen)
  | .handed hdr => do
      let name ← receiveName hdr
      dispatch limits flags hdr name
  | .opened hdr name output => checkSize limits hdr name output
  | .copying hdr name output => do
      copyContent hdr name output
      finishEntry hdr name
  | .raised hdr name => checkTotal limits hdr name
  | .reading hdr name => do
      let content ← readTarget hdr name
      linkTarget limits (CString.ofBuffer name) (validateFlags flags) content
      finishEntry hdr name
  | .reopened hdr name path _ => do
      fixTimesAndPerms (.dir path) hdr (CString.ofBuffer name)
      finishEntry hdr name

/-- What is left of the loop at a point, with the passes that follow. -/
def Point.rest (next : Unpack Bool) : Point → Unpack Bool
  | .between => next
  | .ended seen => pure seen
  | .handed hdr => do
      processOneFile limits hdr flags
      next
  | .opened hdr name output => do
      let fdout ← fillFile limits hdr (CString.ofBuffer name) output
      fixTimesAndPerms (.file fdout) hdr (CString.ofBuffer name)
      emit (.processed hdr name)
      next
  | .copying hdr name output => do
      copyContent hdr name output
      emit (.processed hdr name)
      next
  | .raised hdr name => do
      let _ ← checkTotal limits hdr name
      let content ← readTarget hdr name
      linkTarget limits (CString.ofBuffer name) (validateFlags flags) content
      emit (.processed hdr name)
      next
  | .reading hdr name => do
      let content ← readTarget hdr name
      linkTarget limits (CString.ofBuffer name) (validateFlags flags) content
      emit (.processed hdr name)
      next
  | .reopened hdr name path _ => do
      fixTimesAndPerms (.dir path) hdr (CString.ofBuffer name)
      emit (.processed hdr name)
      next

end

/-! The pieces make up the loop. -/

section

variable {limits : Limits} {flags : Flags} {hdr : FileHeader}
  {name : List UInt8} {next : Unpack Bool}

theorem unpackLoop_advance (fuel : Nat) :
    unpackLoop limits flags (fuel + 1) = advance limits flags .between >>=
      Point.rest limits flags (unpackLoop limits flags fuel) := by
  rw [unpackLoop, advance, nextHeader, bind_assoc]
  congr 1
  funext result
  cases result with
  | none => rfl
  | some bytes =>
      simp only
      split
      · rfl
      · rw [bind_assoc]
        congr 1
        funext _
        rw [bind_assoc]
        congr 1
        funext w
        split
        · exact (doExit_bind _ _ _).symm
        · rfl

theorem processOneFile_name (hdr : FileHeader) :
    (processOneFile limits hdr flags >>= fun _ => next) =
      receiveName hdr >>= fun name =>
        processByType limits hdr (CString.ofBuffer name) flags >>= fun _ =>
          emit (.processed hdr name) >>= fun _ => next := by
  rw [processOneFile, receiveName]
  split
  · rw [doExit_bind, doExit_bind]
  · rw [bind_assoc, bind_assoc]
    congr 1
    funext result
    cases result with
    | none =>
        change (doExit _ _ >>= _) = (doExit _ _ >>= _)
        rw [doExit_bind, doExit_bind]
    | some bytes => simp only [bind_assoc, pure_bind]

theorem finishEntry_rest :
    (finishEntry hdr name >>= Point.rest limits flags next) =
      emit (.processed hdr name) >>= fun _ => next := by
  rw [finishEntry, bind_assoc]
  rfl

theorem processOneFileReg_opened :
    processOneFileReg limits hdr (CString.ofBuffer name)
        (validateFlags flags) =
      openFile limits (CString.ofBuffer name) (validateFlags flags) >>=
        fun output => fillFile limits hdr (CString.ofBuffer name) output >>=
          fun fdout =>
            fixTimesAndPerms (.file fdout) hdr (CString.ofBuffer name) := by
  rw [processOneFileReg_eq, completeFile_eq, bind_assoc]

theorem processOneFileLink_raised :
    (processOneFileLink limits hdr (CString.ofBuffer name)
        (validateFlags flags) >>= fun _ =>
          emit (.processed hdr name) >>= fun _ => next) =
      raiseTotal hdr name >>= Point.rest limits flags next := by
  rw [processOneFileLink_eq, receiveTarget, raiseTotal]
  split
  · rw [doExit_bind, doExit_bind, doExit_bind]
  · simp only [bind_assoc, pure_bind, Point.rest, checkTotal]
    congr 1
    funext _
    congr 1
    funext w
    split
    · rw [doExit_bind, doExit_bind]
    · rw [pure_bind]
      rfl

theorem processOneFileDir_reopened :
    (processOneFileDir limits hdr (CString.ofBuffer name)
        (validateFlags flags) >>= fun _ =>
          emit (.processed hdr name) >>= fun _ => next) =
      statDir limits (CString.ofBuffer name) (validateFlags flags) >>=
        fun found => countReopened hdr name found >>=
          Point.rest limits flags next := by
  rw [processOneFileDir_eq, reopenDir_eq, bind_assoc, bind_assoc]
  congr 1
  funext found
  cases found with
  | none => rfl
  | some place => rfl

theorem dispatch_rest :
    (processByType limits hdr (CString.ofBuffer name) flags >>= fun _ =>
        emit (.processed hdr name) >>= fun _ => next) =
      dispatch limits flags hdr name >>= Point.rest limits flags next := by
  rw [processByType, dispatch]
  split
  · rw [processOneFileReg_opened]
    simp only [bind_assoc, pure_bind, Point.rest]
  · split
    · exact processOneFileLink_raised
    · split
      · rw [processOneFileDir_reopened, bind_assoc]
      · rw [doExit_bind, doExit_bind]

theorem fillFile_copying {output : Nat × Path × Name} :
    (fillFile limits hdr (CString.ofBuffer name) output >>= fun fdout =>
        fixTimesAndPerms (.file fdout) hdr (CString.ofBuffer name) >>=
          fun _ => emit (.processed hdr name) >>= fun _ => next) =
      checkSize limits hdr name output >>= Point.rest limits flags next := by
  obtain ⟨fdout, dir, last⟩ := output
  simp only [fillFile, fillOutput_eq, copyOutput, checkSize, bind_assoc,
    pure_bind, Point.rest, copyContent]

/-- What is left at a point is the piece up to the next point, and what is
left there. -/
theorem Point.rest_advance (next : Unpack Bool) {p : Point}
    (hp : p ≠ .between) : p.rest limits flags next =
      advance limits flags p >>= Point.rest limits flags next := by
  cases p with
  | between => exact absurd rfl hp
  | ended seen => rfl
  | handed hdr =>
      rw [Point.rest, advance, processOneFile_name, bind_assoc]
      congr 1
      funext name
      exact dispatch_rest
  | opened hdr name output => exact fillFile_copying
  | copying hdr name output =>
      rw [Point.rest, advance, bind_assoc]
      congr 1
  | raised hdr name =>
      simp only [Point.rest, advance, checkTotal, bind_assoc]
      congr 1
      funext w
      split
      · rw [doExit_bind, doExit_bind]
      · rfl
  | reading hdr name =>
      simp only [Point.rest, advance, bind_assoc, finishEntry_rest]
  | reopened hdr name path size =>
      simp only [Point.rest, advance, bind_assoc, finishEntry_rest]

end

/-! Runs from point to point. -/

/-- The points that are passed from a state on, up to the last of them. -/
inductive Reaches (limits : Limits) (flags : Flags) (w : World Unpacker) :
    List Point → Point → World Unpacker → Prop
  | start : Reaches limits flags w [] .between w
  | step {trail : List Point} {p p' : Point} {w₁ w₂ : World Unpacker}
      (hreaches : Reaches limits flags w trail p w₁)
      (hrun : (advance limits flags p).run w₁ = .ok p' w₂) :
      Reaches limits flags w (trail ++ [p']) p' w₂

section

variable {limits : Limits} {flags : Flags} {w w' : World Unpacker}
  {trail : List Point} {p : Point}

/-- A run of the loop goes on from each point that it reaches. -/
theorem Reaches.loop (h : Reaches limits flags w trail p w') :
    ∃ passes, ∀ fuel, (unpackLoop limits flags (fuel + passes)).run w =
      (p.rest limits flags (unpackLoop limits flags fuel)).run w' := by
  induction h with
  | start => exact ⟨0, fun _ => rfl⟩
  | @step trail p p' w₁ w₂ _ hrun ih =>
      obtain ⟨passes, hloop⟩ := ih
      by_cases hp : p = .between
      · subst hp
        refine ⟨passes + 1, fun fuel => ?_⟩
        rw [← Nat.add_assoc, Nat.add_right_comm, hloop, Point.rest,
          unpackLoop_advance, EStateM.run_bind, hrun]
      · refine ⟨passes, fun fuel => ?_⟩
        rw [hloop, Point.rest_advance _ hp, EStateM.run_bind, hrun]

/-- The loop does not depend on the number of passes that it may make. -/
theorem unpackLoop_enough {fuel : Nat} (htrace : w.trace = [])
    (hfuel : w.stdin.length < fuel) :
    (unpackLoop limits flags fuel).run w.started =
      (unpackLoop limits flags (w.stdin.length + 1)).run w.started := by
  obtain ⟨_, _, hloop⟩ := @unpackLoop_loopRun limits flags fuel w.started
    (started_steady htrace) hfuel
  exact (hloop.loop htrace).symm

/-- A run goes on from each point that it reaches. -/
theorem Reaches.run (h : Reaches limits flags w.started trail p w')
    (htrace : w.trace = []) : (doUnpackExt limits flags).run w =
      (p.rest limits flags (unpackLoop limits flags (w.stdin.length + 1)) >>=
        finishUnpack).run w' := by
  obtain ⟨passes, hloop⟩ := h.loop
  have henough := @unpackLoop_enough limits flags w
    (w.stdin.length + 1 + passes) htrace (by omega)
  rw [doUnpackExt_run, EStateM.run_bind, EStateM.run_bind, ← hloop, henough]

end

end QubesUtils
