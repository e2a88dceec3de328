/-
An entry that a check of the receiver refuses: the tree is as it was in front
of the entry, unless the check comes after the file has got its name.
-/
import QubesUtils.PartialFiles
import QubesUtils.Rejection

namespace QubesUtils

open Hoare Process ByteCodec FileSystem

/-! What is to be shown. -/

/-- The same names, with the same content, permissions and times. -/
structure SameTree (fs fs' : FileSystem) : Prop where
  tree : fs'.tree = fs.tree
  files : ∀ path ino, fs.tree path = some (.file ino) →
    fs'.inodes ino = fs.inodes ino

/-- A name has come. -/
def NewName (fs fs' : FileSystem) : Prop :=
  ∃ path, fs.tree path = none ∧ fs'.tree path ≠ none

/-- The checks of the receiver.  The size of a file is checked when the file
has its name, or when it has none yet. -/
inductive Check
  | fileCount
  | nameLength
  | type
  | fileName
  | fileQuota (named : Bool)
  | fileTimes
  | dirName
  | dirTimes
  | linkLength
  | linkQuota
  | linkTarget
deriving DecidableEq

/-- The check comes before anything that can be seen. -/
def Check.isFirst : Check → Bool
  | .fileQuota named => !named
  | .fileTimes => false
  | _ => true

/-- A file that is too large. -/
def OverQuota (limits : Limits) (filelen totalBytes : UInt64) : Prop :=
  filelen.toNat ≥ 2 ^ 63 ∨
    (limits.bytesLimit ≠ 0 ∧ filelen > limits.bytesLimit) ∨
    (limits.bytesLimit ≠ 0 ∧ totalBytes > limits.bytesLimit - filelen)

/-- A check of the handler fails. -/
inductive FailsCheck (limits : Limits) (flags : Flags) (hdr : FileHeader)
    (name : CString) (w : World Unpacker) : Check → Prop
  | type (hreg : sIsReg hdr.mode = false)
      (hlink : ¬ (sIsLnk hdr.mode ∧ hasFlag flags COPY_ALLOW_SYMLINKS))
      (hdir : ¬ (sIsDir hdr.mode ∧ hasFlag flags COPY_ALLOW_DIRECTORIES)) :
      FailsCheck limits flags hdr name w .type
  | fileName {ret : Int} (hreg : sIsReg hdr.mode = true)
      (hret : qubesPureValidateFileNameV2 limits.table name
        (validateFlags flags) = .ok ret) (hne : ret ≠ 0) :
      FailsCheck limits flags hdr name w .fileName
  | fileQuota {place : Nat × Path × Name} {w' : World Unpacker}
      (hreg : sIsReg hdr.mode = true)
      (hopen : (openFile limits name (validateFlags flags)).run w =
        .ok place w')
      (hover : OverQuota limits hdr.filelen w'.statics.totalBytes) :
      FailsCheck limits flags hdr name w
        (.fileQuota (!w'.statics.useTmpfile))
  | fileTimes {fdout : Nat} {w' : World Unpacker}
      (hreg : sIsReg hdr.mode = true)
      (hcomplete : (completeFile limits hdr name
        (validateFlags flags)).run w = .ok fdout w')
      (hrange : OutOfRange hdr) :
      FailsCheck limits flags hdr name w .fileTimes
  | dirName {rc : Int} (hdir : sIsDir hdr.mode = true)
      (hflag : hasFlag flags COPY_ALLOW_DIRECTORIES = true)
      (hrc : qubesPureValidateFileNameV2 limits.table name
        (validateFlags flags) = .ok rc) (hne : rc ≠ 0) :
      FailsCheck limits flags hdr name w .dirName
  | dirTimes {path : Path} {w' : World Unpacker}
      (hdir : sIsDir hdr.mode = true)
      (hflag : hasFlag flags COPY_ALLOW_DIRECTORIES = true)
      (hreopen : (reopenDir limits name (validateFlags flags)).run w =
        .ok (some path) w') (hrange : OutOfRange hdr) :
      FailsCheck limits flags hdr name w .dirTimes
  | linkLength (hlink : sIsLnk hdr.mode = true)
      (hflag : hasFlag flags COPY_ALLOW_SYMLINKS = true)
      (hlong : hdr.filelen.toNat > MAX_PATH_LENGTH - 1) :
      FailsCheck limits flags hdr name w .linkLength
  | linkQuota (hlink : sIsLnk hdr.mode = true)
      (hflag : hasFlag flags COPY_ALLOW_SYMLINKS = true)
      (hshort : ¬ hdr.filelen.toNat > MAX_PATH_LENGTH - 1)
      (hover : limits.bytesLimit ≠ 0 ∧
        w.statics.totalBytes + hdr.filelen > limits.bytesLimit) :
      FailsCheck limits flags hdr name w .linkQuota
  | linkTarget {content : CString} {rc : Int} {w' : World Unpacker}
      (hlink : sIsLnk hdr.mode = true)
      (hflag : hasFlag flags COPY_ALLOW_SYMLINKS = true)
      (hread : (receiveTarget limits hdr name).run w = .ok content w')
      (hrc : qubesPureValidateSymbolicLinkV2 limits.table name content
        (validateFlags flags) = .ok rc) (hne : rc ≠ 0) :
      FailsCheck limits flags hdr name w .linkTarget

/-- A check of the pass that starts here fails. -/
inductive RefusesEntry (limits : Limits) (flags : Flags) (w : World Unpacker) :
    Check → Prop
  | fileCount {bytes : List UInt8} {w' : World Unpacker}
      (hread : (readAllWithCrc fileHeaderCodec.width).run w =
        .ok (some bytes) w')
      (hmore : (fileHeaderCodec.get bytes).namelen ≠ 0)
      (hlimit : limits.filesLimit ≠ 0 ∧
        w'.statics.totalFiles + 1 > limits.filesLimit) :
      RefusesEntry limits flags w .fileCount
  | nameLength {bytes : List UInt8} {w' : World Unpacker}
      (hread : (readAllWithCrc fileHeaderCodec.width).run w =
        .ok (some bytes) w')
      (hmore : (fileHeaderCodec.get bytes).namelen ≠ 0)
      (hlimit : ¬ (limits.filesLimit ≠ 0 ∧
        w'.statics.totalFiles + 1 > limits.filesLimit))
      (hlong : (fileHeaderCodec.get bytes).namelen.toNat >
        MAX_PATH_LENGTH - 1) :
      RefusesEntry limits flags w .nameLength
  | handler {hdr : FileHeader} {name : List UInt8} {w' : World Unpacker}
      {check : Check}
      (hstart : (startPass limits).run w = .ok (.entry hdr name) w')
      (hfails : FailsCheck limits flags hdr (CString.ofBuffer name) w'
        check) : RefusesEntry limits flags w check

/-! Trees. -/

section

variable {fs fs' : FileSystem}

theorem SameTree.refl (fs : FileSystem) : SameTree fs fs :=
  ⟨rfl, fun _ _ _ => rfl⟩

theorem NewName.not_sameTree (h : NewName fs fs') : ¬ SameTree fs fs' := by
  obtain ⟨path, hfree, htaken⟩ := h
  intro hsame
  rw [hsame.tree] at htaken
  exact htaken hfree

theorem sameTree_alloc (fs : FileSystem) (inode : Inode) :
    SameTree fs (fs.alloc inode) where
  tree := rfl
  files path ino hpath := by
    have hne : ino ≠ fs.next := Nat.ne_of_lt (fs.allocated path ino hpath)
    rw [FileSystem.alloc]
    exact Function.update_of_ne hne _ _

theorem newName_of_added {middle : FileSystem} {dir : Path} {name : Name}
    {node : Node} {now : Timespec} (h : Added middle dir name node now fs')
    (htree : middle.tree = fs.tree) : NewName fs fs' := by
  refine ⟨dir ++ [name], htree ▸ h.free, ?_⟩
  rw [h.entry]
  simp

end

/-! Programs that leave the tree alone. -/

/-- The file system has not changed. -/
def Still (fs : FileSystem) (u : Unpacker) : Prop :=
  u.fs = fs

section

variable {fs : FileSystem} {limits : Limits} {flags : Flags}
  {hdr : FileHeader} {name : CString} {w w' : World Unpacker}

theorem addTotalBytes_still (count : UInt64) :
    Preserves (OnStatics (Still fs)) (addTotalBytes count) :=
  addTotalBytes_statics fun _ _ h => h

theorem startPass_still (limits : Limits) :
    Preserves (OnStatics (Still fs)) (startPass limits) :=
  startPass_statics limits (fun _ _ h => h) fun _ _ h => h

theorem receiveTarget_still (limits : Limits) (hdr : FileHeader)
    (name : CString) :
    Preserves (OnStatics (Still fs)) (receiveTarget limits hdr name) := by
  refine .ite (doExit_triple _ _) ?_
  refine (addTotalBytes_still _).bind fun _ => .get_bind fun w => ?_
  refine .ite (doExit_triple _ _) ((readAllWithCrc_stable _).bind
    fun result => ?_)
  cases result with
  | none => exact doExit_triple _ _
  | some bytes => exact .ret _

/-- An exit is an end of the process with the same static variables. -/
theorem doExit_ends {α : Type} (code : UInt32) (last : Option CString)
    (w : World Unpacker) : ∃ w',
      (doExit code last : Unpack α).run w = .error (.exit code) w' ∧
        w'.statics = w.statics := by
  obtain ⟨w', hsends, _⟩ := sendStatusAndCrc_returns code last w
  exact ⟨w', doExit_run hsends, (sendStatusAndCrc_statics
    (P := (· = w.statics)) code last).run_ok rfl hsends⟩

/-- A directory that is opened again was there. -/
theorem reopenDir_still :
    Triple (OnStatics (Still fs)) (reopenDir limits name flags)
      (fun result w => result ≠ none → OnStatics (Still fs) w)
      fun _ => OnStatics (Still fs) := by
  refine Triple.bind (liftFault_preserves _) fun rc =>
    .ite (fun _ => doExit_triple _ _) fun _ => ?_
  refine Triple.bind (strdup_statics name) fun _ => ?_
  refine .get_bind fun w hw => Triple.from_state ?_ hw
  refine Triple.bind (opendirSafe_statics _ _) fun place => ?_
  refine Triple.bind (perform_triple (P := Still fs) (Q := fun _ _ => True)
    fun _ _ _ _ _ _ _ => trivial) fun made => ?_
  cases made with
  | some _ => exact .ret fun _ _ h => absurd rfl h
  | none =>
      refine .get_bind fun w hw => Triple.from_state ?_ hw
      refine .ite (fun _ => doExitErrno_triple _) fun _ => ?_
      refine Triple.bind (openDir_statics _ _) fun opened => ?_
      cases opened with
      | none => exact doExitErrno_triple _
      | some path =>
          refine Triple.bind attempt_stable fun stat => ?_
          cases stat with
          | none => exact doExitErrno_triple _
          | some stat =>
              exact Triple.bind (addTotalBytes_still _) fun _ =>
                .ret fun _ h _ => h

/-! Files. -/

/-- An open file has a new name, or it has none and nothing has changed. -/
structure OutputOpen (fs : FileSystem) (u : Unpacker) : Prop where
  unnamed : u.useTmpfile = true → SameTree fs u.fs
  named : u.useTmpfile = false → NewName fs u.fs

/-- An open file has a new name, or there is none. -/
structure OutputNamed (fs : FileSystem) (u : Unpacker) : Prop where
  unnamed : u.useTmpfile = true → u.fs.tree = fs.tree
  named : u.useTmpfile = false → NewName fs u.fs

theorem OutputOpen.outputNamed {u : Unpacker} (h : OutputOpen fs u) :
    OutputNamed fs u :=
  ⟨fun htmp => (h.unnamed htmp).tree, h.named⟩

theorem openTmpfile_open (dir : Path) {E : Exit → World Unpacker → Prop} :
    Triple (OnStatics fun u => Still fs u ∧ u.useTmpfile = true)
      (openTmpfile dir)
      (OnResult (fun u => Still fs u ∧ u.useTmpfile = true)
        fun _ => OutputOpen fs) E := by
  refine perform_triple fun u outcome ino effect fs' hu hcall => ?_
  obtain ⟨rfl, htrue⟩ := hu
  obtain ⟨fs'', htmpfile, heq⟩ := map_eq_ok.mp hcall
  simp only [Prod.mk.injEq] at heq
  obtain ⟨rfl, rfl, rfl⟩ := heq
  rw [tmpfileAt] at htmpfile
  split at htmpfile
  · rw [Except.ok.injEq] at htmpfile
    subst htmpfile
    exact ⟨fun _ => sameTree_alloc _ _,
      fun hfalse => absurd (htrue.symm.trans hfalse) (by decide)⟩
  · cases htmpfile

theorem createFile_open (dir : Path) (segment : Name)
    {E : Exit → World Unpacker → Prop} :
    Triple (OnStatics fun u => Still fs u ∧ u.useTmpfile = false)
      (createFile dir segment)
      (OnResult (fun u => Still fs u ∧ u.useTmpfile = false)
        fun _ => OutputOpen fs) E := by
  refine perform_triple fun u outcome ino effect fs' hu hcall => ?_
  obtain ⟨rfl, hfalse⟩ := hu
  obtain ⟨fs'', hcreate, heq⟩ := map_eq_ok.mp hcall
  simp only [Prod.mk.injEq] at heq
  obtain ⟨rfl, rfl, rfl⟩ := heq
  have hadded := add_ok hcreate
  have hnew : NewName u.fs fs'' := newName_of_added hadded rfl
  exact ⟨fun htrue => absurd (hfalse.symm.trans htrue) (by decide),
    fun _ => hnew⟩

theorem tryTmpfile_open (dir : Path) :
    Triple (OnStatics (Still fs)) (tryTmpfile dir name)
      (OnResult (fun u => Still fs u ∧ u.useTmpfile = false)
        fun _ => OutputOpen fs) fun _ => OnStatics (Still fs) := by
  refine .get_bind fun w hw => .ite (fun htrue => ?_) fun hfalse => ?_
  · refine ((openTmpfile_open dir).from_state ⟨hw, htrue⟩).bind
      fun result => ?_
    cases result with
    | some ino => exact .ret fun _ h => h
    | none =>
        refine .get_bind fun w' hw' => .ite (fun _ => ?_) fun _ => ?_
        · have hset : Triple (· = w') (setUseTmpfile false)
              (fun _ => OnStatics fun u => Still fs u ∧
                u.useTmpfile = false) fun _ => OnStatics (Still fs) :=
            .modify fun _ h => h ▸ ⟨hw'.1, rfl⟩
          exact hset.bind fun _ => .ret fun _ h => h
        · exact (doExitErrno_triple _).from_state hw'.1
  · exact .ret fun _ h => h ▸ ⟨hw, Bool.eq_false_iff.mpr hfalse⟩

theorem openOutput_open (dir : Path) (segment : Name) :
    Triple (OnStatics (Still fs)) (openOutput dir segment name)
      (fun _ => OnStatics (OutputOpen fs)) fun _ => OnStatics (Still fs) := by
  refine (tryTmpfile_open dir).bind fun result => ?_
  cases result with
  | some ino => exact .ret fun _ h => h
  | none =>
      refine (createFile_open dir segment).bind fun result => ?_
      cases result with
      | some ino => exact .ret fun _ h => h
      | none => exact (doExitErrno_triple _).pre_mono fun _ h => h.1

theorem openFile_open :
    Triple (OnStatics (Still fs)) (openFile limits name flags)
      (fun _ => OnStatics (OutputOpen fs)) fun _ => OnStatics (Still fs) := by
  refine Triple.bind (liftFault_preserves _) fun ret =>
    .ite (fun _ => doExit_triple _ _) fun _ => ?_
  refine Triple.bind (strdup_statics name) fun _ => ?_
  refine .get_bind fun w hw => Triple.from_state ?_ hw
  refine Triple.bind (opendirSafe_statics _ _) fun place => ?_
  exact (openOutput_open _ _).bind fun fdout => .ret fun _ h => h

theorem writeFile_named (ino : Nat) (data : List UInt8) :
    Preserves (OnStatics (OutputNamed fs)) (writeFile ino data) := by
  refine (perform_triple (Q := fun _ => OutputNamed fs)
    fun u outcome count effect fs' hu hcall => ?_).post_mono
      fun _ _ h => h.same
  simp only [Except.ok.injEq, Prod.mk.injEq] at hcall
  obtain ⟨rfl, rfl, rfl⟩ := hcall
  exact ⟨hu.unnamed, hu.named⟩

theorem fillOutput_named (fdout : Nat) :
    Preserves (OnStatics (OutputNamed fs))
      (fillOutput limits fdout hdr name) := by
  refine (checkQuota_statics limits _ name).bind fun _ => ?_
  refine (reserveSpace_statics limits _).bind fun _ => ?_
  refine (addTotalBytes_statics fun _ _ h => ⟨h.unnamed, h.named⟩).bind
    fun _ => ?_
  refine (copyFileLoop_preserves retryInterrupted_stable read_stable
    (fun data => addCrc_stable data) (writeFile_named fdout) _ _).bind
      fun status => ?_
  cases status with
  | ok => exact .ret _
  | readEof => exact doExit_triple _ _
  | readError => exact doExit_triple _ _
  | writeError => exact doExitErrno_triple _

theorem linkFile_named (fdout : Nat) (dir : Path) (segment : Name)
    {E : Exit → World Unpacker → Prop} :
    Triple (OnStatics fun u => u.fs.tree = fs.tree)
      (linkFile fdout dir segment)
      (OnResult (fun u => u.fs.tree = fs.tree)
        fun _ u => NewName fs u.fs) E := by
  refine perform_triple fun u outcome result effect fs' hu hcall => ?_
  obtain ⟨fs'', hlink, heq⟩ := map_eq_ok.mp hcall
  simp only [Prod.mk.injEq, true_and] at heq
  obtain ⟨rfl, rfl⟩ := heq
  exact newName_of_added (add_ok hlink) hu

/-- A file that is completed has a new name. -/
theorem completeFile_named :
    Triple (OnStatics (Still fs)) (completeFile limits hdr name flags)
      (fun _ => OnStatics fun u => NewName fs u.fs) fun _ _ => True := by
  rw [completeFile_eq]
  refine openFile_open.forget_exit.bind fun place => ?_
  obtain ⟨fdout, dir, segment⟩ := place
  refine Triple.pre_mono ?_ fun _ h => h.outputNamed
  refine (Triple.forget_exit (fillOutput_named fdout)).bind fun _ => ?_
  have hname : Triple (OnStatics (OutputNamed fs))
      (nameOutput fdout dir segment)
      (fun result => OnStatics fun u => result = some () →
        NewName fs u.fs) fun _ _ => True := by
    refine .get_bind fun w hw => .ite (fun htrue => ?_) fun hfalse => ?_
    · refine ((linkFile_named fdout dir segment).from_state
        (hw.unnamed htrue)).post_mono fun result w' h => ?_
      cases result with
      | none => exact fun h => by cases h
      | some _ => exact fun _ => h
    · refine .ret fun _ h => h ▸ fun _ => ?_
      exact hw.named (Bool.eq_false_iff.mpr hfalse)
  refine hname.bind fun result => ?_
  cases result with
  | none => exact (doExitErrno_triple _).forget_exit
  | some _ => exact .ret fun _ h => h rfl

/-! Checks. -/

/-- The handler ends in an exit, from a state with the same tree. -/
theorem untouched_of_exit (code : UInt32) (last : Option CString)
    {before : World Unpacker}
    (hrun : (processByType limits hdr name flags).run w =
      (doExit code last).run before)
    (hsame : SameTree w.statics.fs before.statics.fs) :
    ∃ e w', (processByType limits hdr name flags).run w = .error e w' ∧
      SameTree w.statics.fs w'.statics.fs := by
  obtain ⟨w', hexit, hstatics⟩ := @doExit_ends Unit code last before
  exact ⟨_, w', hrun.trans hexit, hstatics ▸ hsame⟩

theorem checkQuota_over {filelen : UInt64}
    (h : OverQuota limits filelen w.statics.totalBytes) :
    (checkQuota limits filelen name).run w =
      (doExit (UInt32.ofNat EDQUOT) (some name)).run w := by
  rw [checkQuota, EStateM.run_bind, EStateM.run_get]
  simp only
  by_cases hfirst : filelen.toNat ≥ 2 ^ 63 ∨
      (limits.bytesLimit ≠ 0 ∧ filelen > limits.bytesLimit)
  · rw [if_pos hfirst]
  · rw [if_neg hfirst, if_pos ((or_assoc.mpr h).resolve_left hfirst)]

theorem receiveTarget_overQuota
    (hshort : ¬ hdr.filelen.toNat > MAX_PATH_LENGTH - 1)
    (hover : limits.bytesLimit ≠ 0 ∧
      w.statics.totalBytes + hdr.filelen > limits.bytesLimit) :
    ∃ before : World Unpacker, before.statics.fs = w.statics.fs ∧
      (receiveTarget limits hdr name).run w =
        (doExit (UInt32.ofNat EDQUOT) (some name)).run before := by
  refine ⟨{ w with statics := { w.statics with
    totalBytes := w.statics.totalBytes + hdr.filelen } }, rfl, ?_⟩
  have hadd : (addTotalBytes hdr.filelen).run w = .ok () { w with
      statics := { w.statics with
        totalBytes := w.statics.totalBytes + hdr.filelen } } := rfl
  rw [receiveTarget, if_neg hshort, EStateM.run_bind, hadd]
  simp only
  rw [EStateM.run_bind, EStateM.run_get]
  simp only
  rw [if_pos hover]

theorem fileQuota_ends {place : Nat × Path × Name}
    (hreg : sIsReg hdr.mode = true)
    (hopen : (openFile limits name (validateFlags flags)).run w =
      .ok place w')
    (hover : OverQuota limits hdr.filelen w'.statics.totalBytes) :
    ∃ e after, (processByType limits hdr name flags).run w =
      .error e after ∧ after.statics = w'.statics := by
  obtain ⟨fdout, dir, segment⟩ := place
  obtain ⟨after, hexit, hstatics⟩ :=
    @doExit_ends Unit (UInt32.ofNat EDQUOT) (some name) w'
  refine ⟨.exit (UInt32.ofNat EDQUOT), after, ?_, hstatics⟩
  rw [processByType_reg hreg, processOneFileReg_eq, completeFile_eq,
    EStateM.run_bind, EStateM.run_bind, hopen]
  simp only
  rw [fillFile, EStateM.run_bind, fillOutput, EStateM.run_bind,
    checkQuota_over hover, hexit]

/-- A check that fails ends the process.  Nothing has changed if and only if
it is not one of those that come too late. -/
theorem FailsCheck.ends {check : Check}
    (h : FailsCheck limits flags hdr name w check) :
    ∃ e w', (processByType limits hdr name flags).run w = .error e w' ∧
      (SameTree w.statics.fs w'.statics.fs ↔ check.isFirst = true) := by
  have hfirst : check.isFirst = true →
      (∃ e w', (processByType limits hdr name flags).run w = .error e w' ∧
        SameTree w.statics.fs w'.statics.fs) →
      ∃ e w', (processByType limits hdr name flags).run w = .error e w' ∧
        (SameTree w.statics.fs w'.statics.fs ↔ check.isFirst = true) := by
    rintro hcheck ⟨e, w', hrun, hsame⟩
    exact ⟨e, w', hrun, fun _ => hcheck, fun _ => hsame⟩
  cases h with
  | type hreg hlink hdir =>
      refine hfirst rfl (untouched_of_exit (UInt32.ofNat EINVAL) (some name)
        ?_ (.refl _))
      rw [processByType, if_neg (by simp [hreg]), if_neg hlink, if_neg hdir]
  | @fileName ret hreg hret hne =>
      refine hfirst rfl (untouched_of_exit (UInt32.ofInt (-ret)) (some name)
        ?_ (.refl _))
      rw [processByType_reg hreg, processOneFileReg, EStateM.run_bind,
        liftFault_ok hret]
      simp only [if_pos hne]
  | @fileQuota place w' hreg hopen hover =>
      obtain ⟨e, after, hrun, hstatics⟩ := fileQuota_ends hreg hopen hover
      have hopened := openFile_open.run_ok (rfl : Still _ _) hopen
      refine ⟨e, after, hrun, ?_⟩
      rw [hstatics]
      cases htmp : w'.statics.useTmpfile with
      | true => exact ⟨fun _ => rfl, fun _ => hopened.unnamed htmp⟩
      | false =>
          exact ⟨fun hsame => absurd hsame (hopened.named htmp).not_sameTree,
            fun hcheck => by cases hcheck⟩
  | @fileTimes fdout w' hreg hcomplete hrange =>
      obtain ⟨value, hfix⟩ :=
        fixTimesAndPerms_outOfRange (.file fdout) name hrange w'
      have hnew := completeFile_named.run_ok (rfl : Still _ _) hcomplete
      refine ⟨.message (.invalidNanoseconds value), w', ?_,
        fun hsame => absurd hsame (NewName.not_sameTree hnew),
        fun hcheck => by cases hcheck⟩
      rw [processByType_reg hreg, processOneFileReg_eq, EStateM.run_bind,
        hcomplete]
      exact hfix
  | @dirName rc hdir hflag hrc hne =>
      refine hfirst rfl (untouched_of_exit (UInt32.ofInt rc) (some name)
        ?_ (.refl _))
      rw [processByType_dir hdir hflag, processOneFileDir, EStateM.run_bind,
        liftFault_ok hrc]
      simp only [if_pos hne]
  | @dirTimes path w' hdir hflag hreopen hrange =>
      obtain ⟨value, hfix⟩ :=
        fixTimesAndPerms_outOfRange (.dir path) name hrange w'
      have hstill := reopenDir_still.run_ok (rfl : Still _ _) hreopen
        (by simp)
      refine hfirst rfl ⟨.message (.invalidNanoseconds value), w', ?_, ?_⟩
      · rw [processByType_dir hdir hflag, processOneFileDir_eq,
          EStateM.run_bind, hreopen]
        exact hfix
      · rw [hstill]
        exact .refl _
  | linkLength hlink hflag hlong =>
      refine hfirst rfl (untouched_of_exit (UInt32.ofNat ENAMETOOLONG)
        (some name) ?_ (.refl _))
      rw [processByType_link hlink hflag, processOneFileLink, if_pos hlong]
  | linkQuota hlink hflag hshort hover =>
      obtain ⟨before, hfs, hreceive⟩ :=
        receiveTarget_overQuota hshort hover
      obtain ⟨w', hexit, _⟩ := @doExit_ends CString
        (UInt32.ofNat EDQUOT) (some name) before
      refine hfirst rfl ⟨.exit (UInt32.ofNat EDQUOT), w', ?_, ?_⟩
      · rw [processByType_link hlink hflag, processOneFileLink_eq,
          EStateM.run_bind, hreceive, hexit]
      · have hstill := (receiveTarget_still limits hdr name).run_error
          (rfl : Still _ _) (hreceive.trans hexit)
        rw [hstill]
        exact .refl _
  | @linkTarget content rc w' hlink hflag hread hrc hne =>
      have hstill := Triple.run_ok (receiveTarget_still limits hdr name)
        (rfl : Still _ _) hread
      refine hfirst rfl (@untouched_of_exit limits flags hdr name w
        (UInt32.ofInt (-rc)) (some content) w' ?_ ?_)
      · rw [processByType_link hlink hflag, processOneFileLink_eq,
          EStateM.run_bind, hread]
        simp only
        rw [QubesUtils.linkTarget, EStateM.run_bind, liftFault_ok hrc]
        simp only [if_pos hne]
      · rw [hstill]
        exact .refl _

/-- The checks of a header end the run of a pass. -/
theorem startPass_refuses {bytes : List UInt8}
    (hread : (readAllWithCrc fileHeaderCodec.width).run w =
      .ok (some bytes) w')
    (hmore : (fileHeaderCodec.get bytes).namelen ≠ 0)
    (hcheck : (limits.filesLimit ≠ 0 ∧
        w'.statics.totalFiles + 1 > limits.filesLimit) ∨
      (fileHeaderCodec.get bytes).namelen.toNat > MAX_PATH_LENGTH - 1) :
    ∃ e after, (startPass limits).run w = .error e after ∧
      SameTree w.statics.fs after.statics.fs := by
  have hrun : ∃ e after, (startPass limits).run w = .error e after := by
    have hcount : countFile.run w' = .ok () { w' with statics :=
        { w'.statics with totalFiles := w'.statics.totalFiles + 1 } } := rfl
    rw [startPass, EStateM.run_bind, hread]
    simp only
    rw [if_neg hmore, EStateM.run_bind, hcount]
    simp only
    rw [EStateM.run_bind, EStateM.run_get]
    simp only
    split
    · obtain ⟨after, hexit, _⟩ := @doExit_ends PassStart _ _ _
      exact ⟨_, after, hexit⟩
    · rename_i hlimit
      rw [startEntry, if_pos (hcheck.resolve_left hlimit)]
      obtain ⟨after, hexit, _⟩ := @doExit_ends PassStart _ _ _
      exact ⟨_, after, hexit⟩
  obtain ⟨e, after, hrun⟩ := hrun
  have hstill := (startPass_still limits).run_error (rfl : Still _ _) hrun
  refine ⟨e, after, hrun, ?_⟩
  rw [hstill]
  exact .refl _

theorem RefusesEntry.ends {check : Check}
    (h : RefusesEntry limits flags w check) :
    ∃ e after, LastPass limits flags w (.error e after) ∧
      (SameTree w.statics.fs after.statics.fs ↔ check.isFirst = true) := by
  cases h with
  | fileCount hread hmore hlimit =>
      obtain ⟨e, after, hstart, hsame⟩ :=
        startPass_refuses hread hmore (Or.inl hlimit)
      exact ⟨e, after, .refused hstart, fun _ => rfl, fun _ => hsame⟩
  | nameLength hread hmore hlimit hlong =>
      obtain ⟨e, after, hstart, hsame⟩ :=
        startPass_refuses hread hmore (Or.inr hlong)
      exact ⟨e, after, .refused hstart, fun _ => rfl, fun _ => hsame⟩
  | handler hstart hfails =>
      obtain ⟨e, after, hrun, hsame⟩ := hfails.ends
      have hstill := (startPass_still limits).run_ok (rfl : Still _ _) hstart
      rw [hstill] at hsame
      refine ⟨e, after, .stopped hstart ?_, hsame⟩
      rw [handleEntry, EStateM.run_bind, hrun]

/-- A check that fails is the end of the run, and the tree is as it was in
front of the entry if and only if the check comes in time. -/
theorem refused_untouched_iff {done : List (FileHeader × List UInt8)}
    {last : World Unpacker} {check : Check} (htrace : w.trace = [])
    (hpasses : Passes limits flags w.started done last)
    (hrefuses : RefusesEntry limits flags last check) :
    ∃ e after, (doUnpackExt limits flags).run w = .error e after ∧
      (SameTree last.statics.fs after.statics.fs ↔
        check.isFirst = true) := by
  obtain ⟨e, after, hlast, hsame⟩ := hrefuses.ends
  exact ⟨e, after, doUnpackExt_lastPass htrace hpasses hlast, hsame⟩

end

/-- The regular file `a`, of two bytes. -/
def twoBytes : FileHeader := ⟨2, 0x81A4, 2, 0, 0, 0, 0⟩

def twoBytesStream : List UInt8 :=
  fileHeaderCodec.put twoBytes ++ [0x61, 0] ++ [0x78, 0x79]

/-- A limit of one byte. -/
def oneByte : Limits := ⟨committedTable, 1, 0, 0⟩

/-- The receiver when the entry has arrived, and when the file is open. -/
def twoBytesBegun (useTmpfile : Bool) : World Unpacker :=
  finalState (startPass oneByte) (freshWorld twoBytesStream
    useTmpfile).started

def twoBytesOpened (useTmpfile : Bool) : World Unpacker :=
  finalState (openFile oneByte (CString.ofBuffer [0x61, 0])
    (validateFlags 0#32)) (twoBytesBegun useTmpfile)

theorem twoBytes_refuses (useTmpfile : Bool) :
    RefusesEntry oneByte 0#32 (freshWorld twoBytesStream useTmpfile).started
      (.fileQuota (!(twoBytesOpened useTmpfile).statics.useTmpfile)) := by
  have hentry : foundEntry ((startPass oneByte).run (freshWorld
      twoBytesStream useTmpfile).started) = some (twoBytes, [0x61, 0]) := by
    cases useTmpfile with
    | true => decide +kernel
    | false => decide +kernel
  have hreturns : returns (openFile oneByte (CString.ofBuffer [0x61, 0])
      (validateFlags 0#32)) (twoBytesBegun useTmpfile) = true := by
    cases useTmpfile with
    | true => decide +kernel
    | false => decide +kernel
  obtain ⟨_, hopen⟩ := run_of_returns hreturns
  exact .handler (startPass_of_foundEntry hentry)
    (.fileQuota (by decide) hopen (Or.inr (Or.inl (by decide))))

/-- In plain mode the file is there after the refusal. -/
theorem twoBytes_named :
    RefusesEntry oneByte 0#32 (freshWorld twoBytesStream false).started
        (.fileQuota true) ∧
      ∃ e after, (doUnpackExt oneByte 0#32).run
          (freshWorld twoBytesStream false) = .error e after ∧
        ¬ SameTree emptyFileSystem after.statics.fs := by
  have hplain : (twoBytesOpened false).statics.useTmpfile = false := by
    decide +kernel
  have hrefuses := twoBytes_refuses false
  rw [hplain] at hrefuses
  obtain ⟨e, after, hlast, hsame⟩ := hrefuses.ends
  refine ⟨hrefuses, e, after, doUnpackExt_lastPass rfl (.nil _) hlast, ?_⟩
  exact fun h => absurd (hsame.mp h) (by decide)

theorem refused_untouched_tmpfile :
    ∃ e after, (doUnpackExt oneByte 0#32).run
        (freshWorld twoBytesStream true) = .error e after ∧
      SameTree emptyFileSystem after.statics.fs := by
  have htmp : (twoBytesOpened true).statics.useTmpfile = true := by
    decide +kernel
  have hrefuses := twoBytes_refuses true
  rw [htmp] at hrefuses
  obtain ⟨e, after, hrun, hsame⟩ :=
    refused_untouched_iff rfl (.nil _) hrefuses
  exact ⟨e, after, hrun, hsame.mpr rfl⟩

end QubesUtils
