/-
The receiver writes only where the names it received lead: every change of the
file system is confined to the object that a name denotes, through real
directories.
-/
import QubesUtils.UnpackCalls

namespace QubesUtils

open Hoare Process FileSystem Separated

/-! Names that pass the validators. -/

theorem hasFlag_validateFlags (flags bit : Flags)
    (hbit : 7#32 &&& bit = 0#32) :
    hasFlag (validateFlags flags) bit = false := by
  have hmask : qubesPureAllowUnsafeCharacters |||
      qubesPureAllowUnsafeSymlinks |||
      qubesPureAllowNonCanonicalSymlinks = 7#32 := by
    decide
  rw [hasFlag, validateFlags, hmask, BitVec.and_assoc, hbit, BitVec.and_zero]
  rfl

theorem flagCheck_validateFlags (flags : Flags) :
    flagCheck (validateFlags flags) = true := by
  have hmask : qubesPureAllowUnsafeCharacters |||
      qubesPureAllowUnsafeSymlinks |||
      qubesPureAllowNonCanonicalSymlinks = 7#32 := by
    decide
  have hrest : 7#32 &&& ~~~(qubesPureAllowUnsafeCharacters |||
      qubesPureAllowNonCanonicalSymlinks ||| qubesPureAllowNonCanonicalPaths |||
      qubesPureAllowTrailingSlash ||| qubesPureAllowUnsafeSymlinks) =
        0#32 := by
    decide
  rw [flagCheck, validateFlags, hmask, BitVec.and_assoc, hrest,
    BitVec.and_zero]
  rfl

/-- A path of the language without the flags for non-canonical paths has
normal components only. -/
theorem PathLanguage.normal {table : AllowTable} {name : CString}
    {flags : Flags} (h : PathLanguage table name 0 flags)
    (hpaths : hasFlag flags qubesPureAllowNonCanonicalPaths = false)
    (hslash : hasFlag flags qubesPureAllowTrailingSlash = false) :
    ∀ component ∈ components name.bytes, Normal component := by
  have hpaths' : ¬ hasFlag flags qubesPureAllowNonCanonicalPaths = true := by
    rw [hpaths]
    decide
  have hslash' : ¬ hasFlag flags qubesPureAllowTrailingSlash = true := by
    rw [hslash]
    decide
  intro component hcomponent
  refine ⟨?_, ?_, ?_⟩
  · rintro rfl
    obtain ⟨front, last, hpieces⟩ :=
      (components name.bytes).eq_nil_or_concat'.resolve_left
        (components_ne_nil _)
    rw [hpieces, List.mem_append, List.mem_singleton] at hcomponent
    rcases hcomponent with hfront | hlast
    · refine hpaths' (h.noEmpty ?_)
      rw [hpieces, List.dropLast_concat]
      exact hfront
    · by_cases hnil : front = []
      · refine hpaths' (h.nonempty
          ((splitOn_eq_singleton_nil_iff slash _).mp ?_))
        rw [← components, hpieces, hnil, ← hlast]
        rfl
      · refine hslash' (h.noTrailingSlash
          ((getLast?_eq_sep_iff slash _).mpr ?_))
        have hlength : 0 < front.length := List.length_pos_iff.mpr hnil
        rw [← components, hpieces, List.length_append, List.length_singleton,
          List.getLast?_concat, hlast]
        exact ⟨by omega, rfl⟩
  · rintro rfl
    exact hpaths' (h.noDot hcomponent)
  · rintro rfl
    exact not_mem_of_budget_zero h hcomponent

theorem normal_of_fileName {table : AllowTable} {name : CString}
    {flags : Flags} (h : qubesPureValidateFileNameV2 table name
      (validateFlags flags) = .ok 0) :
    ∀ component ∈ components name.bytes, Normal component :=
  ((qubesPureValidateFileNameV2_eq_zero_iff name
    (flagCheck_validateFlags flags)).mp h).1.normal
    (hasFlag_validateFlags flags _ (by decide))
    (hasFlag_validateFlags flags _ (by decide))

theorem normal_of_symbolicLink {table : AllowTable} {name target : CString}
    {flags : Flags} (h : qubesPureValidateSymbolicLinkV2 table name target
      (validateFlags flags) = .ok 0) :
    ∀ component ∈ components name.bytes, Normal component := by
  have hpaths := hasFlag_validateFlags flags qubesPureAllowNonCanonicalPaths
    (by decide)
  have hslash := hasFlag_validateFlags flags qubesPureAllowTrailingSlash
    (by decide)
  rw [qubesPureValidateSymbolicLinkV2, flagCheck_validateFlags] at h
  obtain ⟨depth, hdepth⟩ :=
    @validatePath_total table (validateFlags flags) name 0
  rw [hdepth] at h
  simp only [bind, Except.bind, Bool.true_eq_false, if_false] at h
  by_cases hnegative : depth < 0
  · rw [if_pos hnegative, Except.ok.injEq] at h
    exact absurd h (by decide)
  · exact ((validatePath_nonneg_iff name 0 depth).mp
      ⟨hdepth, by omega⟩).1.normal hpaths hslash

/-! Calls without an effect. -/

section

variable {P : Unpacker → Prop}

theorem sendStatusAndCrc_statics (code : UInt32) (last : Option CString) :
    Preserves (OnStatics P) (sendStatusAndCrc code last) := by
  refine .get_bind fun w => (writeAll_stable _).bind fun _ => ?_
  cases last with
  | none => exact setErrno_stable _
  | some name =>
      exact (writeAll_stable _).bind fun _ =>
        (writeAll_stable _).bind fun _ => setErrno_stable _

theorem doExit_triple {α : Type} (code : UInt32) (last : Option CString)
    {post : α → World Unpacker → Prop} :
    Triple (OnStatics P) (doExit code last) post fun _ => OnStatics P :=
  Triple.bind (sendStatusAndCrc_statics code last) fun _ =>
    .throw fun _ h => h

theorem doExitErrno_triple {α : Type} (last : Option CString)
    {post : α → World Unpacker → Prop} :
    Triple (OnStatics P) (doExitErrno last) post fun _ => OnStatics P :=
  .get_bind fun w hw =>
    (doExit_triple w.errno last).pre_mono fun _ h => h ▸ hw

theorem strdup_statics (name : CString) :
    Preserves (OnStatics P) (strdup name) := by
  refine attempt_stable.bind fun outcome => ?_
  cases outcome with
  | none => exact doExit_triple _ _
  | some outcome => exact .ret fun _ h => h

theorem validateUtimeNsec_statics (untrustedNsec : UInt32) :
    Preserves (OnStatics P) (validateUtimeNsec untrustedNsec) :=
  .ite (.throw _) (.ret _)

theorem openDir_triple (dir : Path) (segment : Name) (u : Unpacker)
    {E : Exit → World Unpacker → Prop} :
    Triple (OnStatics (· = u)) (openDir dir segment)
      (fun result w => w.statics = u ∧ ∀ path, result = some path →
        u.fs.openDirAt dir segment = .ok path) E := by
  refine attempt_stable.bind fun outcome => ?_
  cases outcome with
  | none => exact .ret fun w h => ⟨h, fun _ h => by cases h⟩
  | some outcome =>
      refine .get_bind fun w hw => ?_
      rw [hw]
      cases hresult : u.fs.openDirAt dir segment with
      | error errno =>
          have hset : Triple (· = w) (setErrno errno.value)
              (fun _ => OnStatics (· = u)) E := .modify fun _ h => h ▸ hw
          exact hset.bind fun _ => .ret fun _ h => ⟨h, fun _ h => by cases h⟩
      | ok path =>
          exact .ret fun _ h =>
            ⟨h ▸ hw, fun _ h => congrArg _ (Option.some.inj h)⟩

theorem opendirSafe_cons (dir : Path) (segment second : Name)
    (rest : List Name) :
    opendirSafe dir (segment :: second :: rest) =
      if segment.length ≤ 2 ∧
          segment = dotdotComponent.take segment.length then
        throw .abort
      else openDir dir segment >>= fun opened =>
        match opened with
        | none => doExitErrno (some (CString.ofBuffer segment))
        | some dir => opendirSafe dir (second :: rest) :=
  rfl

/-- The directory that is opened is reached through real directories. -/
theorem opendirSafe_triple (u : Unpacker) (base : Path) :
    ∀ (pieces : List Name) (before : Path),
      (∀ piece ∈ pieces, Normal piece) →
      Triple (OnStatics (· = u)) (opendirSafe (base ++ before) pieces)
        (fun place w => w.statics = u ∧ ∃ directories,
          before ++ pieces = directories ++ [place.2] ∧
          place.1 = base ++ directories ∧
          (Opened u.fs base before → Opened u.fs base directories))
        fun _ => OnStatics (· = u) := by
  intro pieces
  induction pieces with
  | nil => exact fun _ _ => .throw fun _ h => h
  | cons segment rest ih =>
      intro before hnormal
      cases rest with
      | nil => exact .ret fun _ h => ⟨h, before, rfl, rfl, fun h => h⟩
      | cons second rest =>
          rw [opendirSafe_cons]
          refine .ite (fun _ => .throw fun _ h => h) fun _ => ?_
          refine (openDir_triple _ segment u).bind fun result => ?_
          cases result with
          | none => exact (doExitErrno_triple _).pre_mono fun _ h => h.1
          | some path =>
              refine Triple.assume (fun _ h => h.2 path rfl) fun hopen => ?_
              obtain ⟨hdir, hpath⟩ := openDirAt_ok hopen
              rw [child_of_normal (hnormal segment List.mem_cons_self),
                List.append_assoc] at hpath
              have hnext : Opened u.fs base before →
                  Opened u.fs base (before ++ [segment]) := by
                intro hopened part hpart
                rcases List.prefix_concat_iff.mp hpart with rfl | hbefore
                · exact hpath ▸ hdir
                · exact hopened part hbefore
              have hrest := ih (before ++ [segment]) fun piece hpiece =>
                hnormal piece (List.mem_cons_of_mem _ hpiece)
              rw [List.append_assoc, List.singleton_append] at hrest
              rw [hpath]
              refine (hrest.pre_mono fun _ h => h.1).post_mono
                fun place w h => ?_
              obtain ⟨hstatics, directories, hpieces, hplace, hopened⟩ := h
              exact ⟨hstatics, directories, hpieces, hplace,
                fun h => hopened (hnext h)⟩

end

/-! Handlers. -/

/-- The condition in which the process exits. -/
def Stopped (table : AllowTable) (flags : Flags) (cwd : Path)
    (initial : FileSystem) (_ : Exit) : World Unpacker → Prop :=
  OnStatics (Sound table flags cwd initial)

/-- The name of an entry has arrived. -/
structure Begun (table : AllowTable) (flags : Flags) (cwd : Path)
    (initial : FileSystem) (name : CString) (u : Unpacker) : Prop
    extends Sound table flags cwd initial u where
  namebuf : u.untrustedNamebuf = name
  start : u.start = u.fs

section

variable {table : AllowTable} {flags : Flags} {cwd : Path}
  {initial : FileSystem} {name : CString} {directories : Path} {last : Name}
  {P : Unpacker → Prop}

/-! Counters and switches. -/

theorem Sound.setTotalBytes {u : Unpacker}
    (h : Sound table flags cwd initial u) (n : UInt64) :
    Sound table flags cwd initial { u with totalBytes := n } :=
  ⟨h.current, h.dir, h.mutations, h.history⟩

theorem Sound.setTotalFiles {u : Unpacker}
    (h : Sound table flags cwd initial u) (n : UInt64) :
    Sound table flags cwd initial { u with totalFiles := n } :=
  ⟨h.current, h.dir, h.mutations, h.history⟩

theorem Sound.setUseTmpfile {u : Unpacker}
    (h : Sound table flags cwd initial u) (value : Bool) :
    Sound table flags cwd initial { u with useTmpfile := value } :=
  ⟨h.current, h.dir, h.mutations, h.history⟩

theorem Begun.setTotalBytes {u : Unpacker}
    (h : Begun table flags cwd initial name u) (n : UInt64) :
    Begun table flags cwd initial name { u with totalBytes := n } :=
  ⟨h.toSound.setTotalBytes n, h.namebuf, h.start⟩

theorem Working.setTotalBytes {u : Unpacker}
    (h : Working table flags cwd initial name directories last u)
    (n : UInt64) : Working table flags cwd initial name directories last
      { u with totalBytes := n } :=
  ⟨h.toSound.setTotalBytes n, h.namebuf, h.kept, h.pieces, h.normal, h.opened⟩

theorem Working.setUseTmpfile {u : Unpacker}
    (h : Working table flags cwd initial name directories last u)
    (value : Bool) : Working table flags cwd initial name directories last
      { u with useTmpfile := value } :=
  ⟨h.toSound.setUseTmpfile value, h.namebuf, h.kept, h.pieces, h.normal,
    h.opened⟩

theorem Filling.setTotalBytes {ino : Nat} {u : Unpacker}
    (h : Filling table flags cwd initial name directories last ino u)
    (n : UInt64) : Filling table flags cwd initial name directories last ino
      { u with totalBytes := n } :=
  ⟨h.working.setTotalBytes n, h.fresh, h.named⟩

theorem addTotalBytes_statics {count : UInt64}
    (hP : ∀ u n, P u → P { u with totalBytes := n }) :
    Preserves (OnStatics P) (addTotalBytes count) :=
  .modify fun w h => hP w.statics _ h

/-! Exits. -/

theorem doExit_stopped {α : Type} (code : UInt32) (last : Option CString)
    {post : α → World Unpacker → Prop}
    (hP : ∀ u, P u → Sound table flags cwd initial u) :
    Triple (OnStatics P) (doExit code last) post
      (Stopped table flags cwd initial) :=
  (doExit_triple code last).pre_mono fun w h => hP w.statics h

theorem doExitErrno_stopped {α : Type} (last : Option CString)
    {post : α → World Unpacker → Prop}
    (hP : ∀ u, P u → Sound table flags cwd initial u) :
    Triple (OnStatics P) (doExitErrno last) post
      (Stopped table flags cwd initial) :=
  (doExitErrno_triple last).pre_mono fun w h => hP w.statics h

/-- A program that leaves the static variables alone. -/
theorem preserves_stopped {α : Type} {program : Unpack α}
    (h : Preserves (OnStatics P) program)
    (hP : ∀ u, P u → Sound table flags cwd initial u) :
    Triple (OnStatics P) program (fun _ => OnStatics P)
      (Stopped table flags cwd initial) :=
  h.mono (fun _ h => h) (fun _ _ h => h) fun _ w h => hP w.statics h

theorem liftFault_triple {α : Type} (x : Except Fault α) :
    Triple (OnStatics P) (liftFault x : Unpack α)
      (fun a w => OnStatics P w ∧ x = .ok a) fun _ => OnStatics P := by
  cases x with
  | ok a => exact .ret fun _ h => ⟨h, rfl⟩
  | error fault => exact .throw fun _ h => h

/-! Times and permissions. -/

theorem setMode_triple (object : Object) (hdr : FileHeader)
    {E : Exit → World Unpacker → Prop} :
    Triple (OnStatics (Named table flags cwd initial name directories last
        object)) (setMode object hdr)
      (fun _ => OnStatics (Named table flags cwd initial name directories
        last object)) E :=
  .ite (fun _ => .ret fun _ h => h) fun _ => fchmod_triple object _

theorem fixTimesAndPerms_triple (object : Object) (hdr : FileHeader) :
    Triple (OnStatics (Named table flags cwd initial name directories last
        object)) (fixTimesAndPerms object hdr name)
      (fun _ => OnStatics (Sound table flags cwd initial))
      (Stopped table flags cwd initial) := by
  have hsound : ∀ u, Named table flags cwd initial name directories last
      object u → Sound table flags cwd initial u :=
    fun _ h => h.working.toSound
  refine (preserves_stopped (validateUtimeNsec_statics _) hsound).bind
    fun _ => ?_
  refine (preserves_stopped (validateUtimeNsec_statics _) hsound).bind
    fun _ => ?_
  refine (setMode_triple object hdr).bind fun result => ?_
  cases result with
  | none => exact doExitErrno_stopped _ hsound
  | some _ =>
      refine (futimens_triple object _ _).bind fun result => ?_
      cases result with
      | none => exact doExitErrno_stopped _ hsound
      | some _ => exact .ret fun w h => hsound w.statics h

/-! The content of a file. -/

theorem tryTmpfile_triple :
    Triple (OnStatics (Working table flags cwd initial name directories last))
      (tryTmpfile (cwd ++ directories) name)
      (OnResult (fun u => Working table flags cwd initial name directories
        last u ∧ u.useTmpfile = false)
        (Filling table flags cwd initial name directories last))
      (Stopped table flags cwd initial) := by
  refine .get_bind fun w hw => .ite (fun htmp => ?_) fun htmp => ?_
  · have hopen : Triple (OnStatics fun u => Working table flags cwd initial
          name directories last u ∧ u.useTmpfile = true)
        (openTmpfile (cwd ++ directories)) _
        (Stopped table flags cwd initial) :=
      openTmpfile_triple
    refine (hopen.from_state ⟨hw, htmp⟩).bind fun result => ?_
    cases result with
    | some ino => exact .ret fun _ h => h
    | none =>
        refine .get_bind fun w' hw' => .ite (fun _ => ?_) fun _ => ?_
        · have hset : Triple (· = w') (setUseTmpfile false)
              (fun _ => OnStatics fun u => Working table flags cwd initial
                name directories last u ∧ u.useTmpfile = false)
              (Stopped table flags cwd initial) :=
            .modify fun _ h => h ▸ ⟨hw'.1.setUseTmpfile false, rfl⟩
          exact hset.bind fun _ => .ret fun _ h => h
        · exact (doExitErrno_stopped _ fun _ h => h).from_state
            hw'.1.toSound
  · exact .ret fun _ h => h ▸ ⟨hw, Bool.eq_false_iff.mpr htmp⟩

theorem openOutput_triple :
    Triple (OnStatics (Working table flags cwd initial name directories last))
      (openOutput (cwd ++ directories) last name)
      (fun ino => OnStatics (Filling table flags cwd initial name directories
        last ino)) (Stopped table flags cwd initial) := by
  refine tryTmpfile_triple.bind fun result => ?_
  cases result with
  | some ino => exact .ret fun _ h => h
  | none =>
      refine (createFile_triple false).bind fun result => ?_
      cases result with
      | some ino => exact .ret fun _ h => h
      | none =>
          exact (doExitErrno_stopped _ fun _ h => h).pre_mono
            fun w h => h.1.toSound

variable (limits : Limits)

theorem checkQuota_triple (filelen : UInt64)
    (hP : ∀ u, P u → Sound table flags cwd initial u) :
    Triple (OnStatics P) (checkQuota limits filelen name)
      (fun _ => OnStatics P) (Stopped table flags cwd initial) := by
  refine .get_bind fun w hw => ?_
  have hstop : ∀ {code : UInt32} {last : Option CString}
      {post : Unit → World Unpacker → Prop},
      Triple (· = w) (doExit code last) post
        (Stopped table flags cwd initial) :=
    (doExit_stopped _ _ hP).from_state hw
  exact .ite (fun _ => hstop) fun _ => .ite (fun _ => hstop) fun _ =>
    .ret fun _ h => h ▸ hw

theorem reserveSpace_statics (filelen : UInt64) :
    Preserves (OnStatics P) (reserveSpace limits filelen) :=
  .ite (.modify fun _ h => h) (.ret _)

theorem fillOutput_triple (ino : Nat) (hdr : FileHeader) :
    Triple (OnStatics (Filling table flags cwd initial name directories last
        ino)) (fillOutput limits ino hdr name)
      (fun _ => OnStatics (Filling table flags cwd initial name directories
        last ino)) (Stopped table flags cwd initial) := by
  have hsound : ∀ u, Filling table flags cwd initial name directories last
      ino u → Sound table flags cwd initial u :=
    fun _ h => h.working.toSound
  refine (checkQuota_triple limits _ hsound).bind fun _ => ?_
  refine (preserves_stopped (reserveSpace_statics limits _) hsound).bind
    fun _ => ?_
  refine (preserves_stopped (addTotalBytes_statics
    fun _ n h => h.setTotalBytes n) hsound).bind fun _ => ?_
  refine (preserves_stopped (copyFileLoop_preserves retryInterrupted_stable
    read_stable (fun data => addCrc_stable data) (writeFile_triple ino) _ _)
      hsound).bind fun status => ?_
  cases status with
  | readEof => exact doExit_stopped _ _ hsound
  | readError => exact doExit_stopped _ _ hsound
  | writeError => exact doExitErrno_stopped _ hsound
  | ok => exact .ret fun _ h => h

theorem nameOutput_triple (ino : Nat) :
    Triple (OnStatics (Filling table flags cwd initial name directories last
        ino)) (nameOutput ino (cwd ++ directories) last)
      (OnResult (Sound table flags cwd initial)
        fun _ => Named table flags cwd initial name directories last
          (.file ino)) (Stopped table flags cwd initial) := by
  refine .get_bind fun w hw => .ite (fun htmp => ?_) fun htmp => ?_
  · refine ((linkFile_triple ino).from_state ⟨hw, htmp⟩).post_mono ?_
    intro result w' h
    cases result with
    | none => exact h.1.working.toSound
    | some _ => exact h
  · refine .ret fun w' h => h ▸ ⟨hw.working, Or.inr ⟨ino, rfl, hw.fresh, ?_⟩⟩
    exact hw.named (Bool.eq_false_iff.mpr htmp)

/-! Entries. -/

/-- The part that the handlers share: they open the directory of a name that
has been validated. -/
theorem opendirSafe_begun {next : Path × Name → Unpack Unit}
    (hnormal : ∀ component ∈ components name.bytes, Normal component)
    (hnext : ∀ directories last,
      Triple (OnStatics (Working table flags cwd initial name directories
        last)) (next (cwd ++ directories, last))
        (fun _ => OnStatics (Sound table flags cwd initial))
        (Stopped table flags cwd initial)) :
    Triple (OnStatics (Begun table flags cwd initial name))
      (get >>= fun w =>
        opendirSafe w.statics.cwd (components name.bytes) >>= next)
      (fun _ => OnStatics (Sound table flags cwd initial))
      (Stopped table flags cwd initial) := by
  refine .get_bind fun w hw => ?_
  have hbase : Opened w.statics.fs cwd [] := by
    intro part hpart
    rw [List.prefix_nil.mp hpart, List.append_nil]
    exact hw.dir
  have hopen := opendirSafe_triple w.statics cwd _ [] hnormal
  rw [List.append_nil, ← hw.current] at hopen
  have hstop : ∀ e w', OnStatics (· = w.statics) w' →
      Stopped table flags cwd initial e w' :=
    fun _ _ h => OnStatics.congr h hw.toSound
  refine ((hopen.from_state rfl).mono (fun _ h => h) (fun _ _ h => h)
    hstop).bind fun place => ?_
  obtain ⟨dir, last⟩ := place
  refine Triple.assume (fun _ h => h.2) ?_
  rintro ⟨directories, hpieces, rfl, hopened⟩
  rw [hw.current] at hopened ⊢
  have hopened := hopened hbase
  refine (hnext directories last).pre_mono fun w' h => ?_
  have hstatics : w'.statics = w.statics := h.1
  rw [OnStatics, hstatics]
  exact
    { toSound := hw.toSound
      namebuf := hw.namebuf
      kept := hw.start ▸ .refl _
      pieces := hpieces
      normal := hnormal
      opened := hopened }

variable (limits : Limits)

theorem processOneFileReg_triple (hdr : FileHeader) :
    Triple (OnStatics (Begun limits.table (validateFlags flags) cwd initial
        name))
      (processOneFileReg limits hdr name (validateFlags flags))
      (fun _ => OnStatics (Sound limits.table (validateFlags flags) cwd
        initial))
      (Stopped limits.table (validateFlags flags) cwd initial) := by
  have hsound : ∀ u, Begun limits.table (validateFlags flags) cwd initial
      name u → Sound limits.table (validateFlags flags) cwd initial u :=
    fun _ h => h.toSound
  refine ((liftFault_triple _).mono (fun _ h => h) (fun _ _ h => h)
    fun _ w h => hsound w.statics h).bind fun ret => ?_
  refine Triple.assume (fun _ h => h.2) fun hvalid => ?_
  refine Triple.pre_mono (Triple.ite (fun _ => doExit_stopped _ _ hsound)
    fun hzero => ?_) fun _ h => h.1
  rw [not_not.mp hzero] at hvalid
  refine (preserves_stopped (strdup_statics name) hsound).bind fun _ => ?_
  refine opendirSafe_begun (normal_of_fileName hvalid)
    fun directories last => ?_
  refine openOutput_triple.bind fun ino => ?_
  refine (fillOutput_triple limits ino hdr).bind fun _ => ?_
  refine (nameOutput_triple ino).bind fun result => ?_
  cases result with
  | none => exact doExitErrno_stopped _ fun _ h => h
  | some _ => exact fixTimesAndPerms_triple _ hdr

theorem processOneFileDir_triple (hdr : FileHeader) :
    Triple (OnStatics (Begun limits.table (validateFlags flags) cwd initial
        name))
      (processOneFileDir limits hdr name (validateFlags flags))
      (fun _ => OnStatics (Sound limits.table (validateFlags flags) cwd
        initial))
      (Stopped limits.table (validateFlags flags) cwd initial) := by
  have hsound : ∀ u, Begun limits.table (validateFlags flags) cwd initial
      name u → Sound limits.table (validateFlags flags) cwd initial u :=
    fun _ h => h.toSound
  refine ((liftFault_triple _).mono (fun _ h => h) (fun _ _ h => h)
    fun _ w h => hsound w.statics h).bind fun ret => ?_
  refine Triple.assume (fun _ h => h.2) fun hvalid => ?_
  refine Triple.pre_mono (Triple.ite (fun _ => doExit_stopped _ _ hsound)
    fun hzero => ?_) fun _ h => h.1
  rw [not_not.mp hzero] at hvalid
  refine (preserves_stopped (strdup_statics name) hsound).bind fun _ => ?_
  refine opendirSafe_begun (normal_of_fileName hvalid)
    fun directories last => ?_
  have hworking : ∀ u, Working limits.table (validateFlags flags) cwd
      initial name directories last u →
        Sound limits.table (validateFlags flags) cwd initial u :=
    fun _ h => h.toSound
  refine makeDir_triple.bind fun made => ?_
  cases made with
  | some _ => exact .ret fun w h => hworking w.statics h
  | none =>
      refine .get_bind fun w hw => .ite (fun _ => ?_) fun _ => ?_
      · exact (doExitErrno_stopped _ hworking).from_state hw
      · refine ((openDir_triple _ last w.statics).from_state rfl).bind
          fun opened => ?_
        cases opened with
        | none =>
            exact (doExitErrno_stopped _ hworking).pre_mono
              fun _ h => hw.congr h.1
        | some path =>
            refine Triple.assume (fun _ h => h.2 path rfl) fun hopen => ?_
            refine Triple.pre_mono ?_ fun _ h => hw.congr h.1
            refine attempt_stable.bind fun stat => ?_
            cases stat with
            | none => exact doExitErrno_stopped _ hworking
            | some stat =>
                refine (preserves_stopped (addTotalBytes_statics
                  fun _ n h => h.setTotalBytes n) hworking).bind fun _ => ?_
                refine (fixTimesAndPerms_triple (.dir path) hdr).pre_mono
                  fun w' h => ⟨h, Or.inl ?_⟩
                have hlast := h.normal last (h.pieces ▸
                  List.mem_append_right _ List.mem_cons_self)
                rw [(openDirAt_ok hopen).2, child_of_normal hlast]

theorem processOneFileLink_triple (hdr : FileHeader) :
    Triple (OnStatics (Begun limits.table (validateFlags flags) cwd initial
        name))
      (processOneFileLink limits hdr name (validateFlags flags))
      (fun _ => OnStatics (Sound limits.table (validateFlags flags) cwd
        initial))
      (Stopped limits.table (validateFlags flags) cwd initial) := by
  have hsound : ∀ u, Begun limits.table (validateFlags flags) cwd initial
      name u → Sound limits.table (validateFlags flags) cwd initial u :=
    fun _ h => h.toSound
  refine .ite (fun _ => doExit_stopped _ _ hsound) fun _ => ?_
  refine (preserves_stopped (addTotalBytes_statics
    fun _ n h => h.setTotalBytes n) hsound).bind fun _ => ?_
  refine .get_bind fun w hw => .ite (fun _ => ?_) fun _ => ?_
  · exact (doExit_stopped _ _ hsound).from_state hw
  refine Triple.from_state ?_ hw
  refine (preserves_stopped (readAllWithCrc_stable _) hsound).bind
    fun result => ?_
  cases result with
  | none => exact doExit_stopped _ _ hsound
  | some bytes =>
      refine ((liftFault_triple _).mono (fun _ h => h) (fun _ _ h => h)
        fun _ w h => hsound w.statics h).bind fun rc => ?_
      refine Triple.assume (fun _ h => h.2) fun hvalid => ?_
      refine Triple.pre_mono (Triple.ite
        (fun _ => doExit_stopped _ _ hsound) fun hzero => ?_) fun _ h => h.1
      rw [not_not.mp hzero] at hvalid
      refine (preserves_stopped (strdup_statics name) hsound).bind
        fun _ => ?_
      refine opendirSafe_begun (normal_of_symbolicLink hvalid)
        fun directories last => ?_
      refine (makeLink_triple hvalid).bind fun made => ?_
      cases made with
      | none => exact doExitErrno_stopped _ fun _ h => h.toSound
      | some _ => exact .ret fun w h => h.toSound

theorem processByType_triple (hdr : FileHeader) :
    Triple (OnStatics (Begun limits.table (validateFlags flags) cwd initial
        name))
      (processByType limits hdr name flags)
      (fun _ => OnStatics (Sound limits.table (validateFlags flags) cwd
        initial))
      (Stopped limits.table (validateFlags flags) cwd initial) :=
  .ite (fun _ => processOneFileReg_triple limits hdr) fun _ =>
    .ite (fun _ => processOneFileLink_triple limits hdr) fun _ =>
      .ite (fun _ => processOneFileDir_triple limits hdr) fun _ =>
        doExit_stopped _ _ fun _ h => h.toSound

theorem beginEntry_triple :
    Triple (OnStatics (Sound table flags cwd initial)) (beginEntry name)
      (fun _ => OnStatics (Begun table flags cwd initial name))
      (Stopped table flags cwd initial) :=
  .modify fun _ h =>
    ⟨⟨h.current, h.dir, h.mutations, h.history⟩, rfl, rfl⟩

theorem processOneFile_preserves (hdr : FileHeader) :
    Preserves (OnStatics (Sound limits.table (validateFlags flags) cwd
      initial)) (processOneFile limits hdr flags) := by
  refine .ite (doExit_stopped _ _ fun _ h => h) ?_
  refine (readAllWithCrc_stable _).bind fun result => ?_
  cases result with
  | none => exact doExit_stopped _ _ fun _ h => h
  | some bytes =>
      refine beginEntry_triple.bind fun _ => ?_
      exact (processByType_triple limits hdr).bind fun _ => emit_stable _

theorem unpackLoop_preserves (fuel : Nat) :
    Preserves (OnStatics (Sound limits.table (validateFlags flags) cwd
      initial)) (unpackLoop limits flags fuel) := by
  induction fuel with
  | zero => exact .throw _
  | succ fuel ih =>
      refine (readAllWithCrc_stable _).bind fun result => ?_
      cases result with
      | none => exact .ret _
      | some bytes =>
          refine .ite ((setErrno_stable _).bind fun _ =>
            .ret fun _ h => h) ?_
          have hcount : Preserves (OnStatics (Sound limits.table
              (validateFlags flags) cwd initial)) countFile :=
            .modify fun _ h => h.setTotalFiles _
          refine hcount.bind fun _ => .get_bind fun w => .ite ?_ ?_
          · exact doExit_stopped _ _ fun _ h => h
          · exact (processOneFile_preserves limits _).bind fun _ => ih

theorem syncfs_statics : Preserves (OnStatics P) syncfs := by
  refine attempt_stable.bind fun synced => ?_
  cases synced with
  | none => exact .ret fun _ h => h
  | some _ => exact (emit_stable _).bind fun _ => .ret fun _ h => h

theorem syncCwd_statics (savedErrno : UInt32) :
    Preserves (OnStatics P) (syncCwd savedErrno) := by
  refine attempt_stable.bind fun opened => ?_
  cases opened with
  | none => exact .ret fun _ h => h
  | some _ =>
      refine Triple.bind syncfs_statics fun synced => ?_
      cases synced with
      | none => exact .ret fun _ h => h
      | some _ =>
          refine attempt_stable.bind fun closed => ?_
          cases closed with
          | none => exact .ret fun _ h => h
          | some _ => exact setErrno_stable _

theorem doUnpackExt_preserves :
    Preserves (OnStatics (Sound limits.table (validateFlags flags) cwd
      initial)) (doUnpackExt limits flags) := by
  refine Preserves.bind (.modify fun _ h =>
    (h.setTotalBytes 0).setTotalFiles 0) fun _ => ?_
  refine .get_bind fun w => (unpackLoop_preserves limits _).bind fun seen => ?_
  refine .get_bind fun w => (setErrno_stable _).bind fun _ => ?_
  refine (syncCwd_statics _).bind fun _ => .get_bind fun w => ?_
  exact (sendStatusAndCrc_statics _ _).bind fun _ => .ret _

/-- A run leaves a sound state, whichever way it ends. -/
theorem doUnpackExt_sound {w : World Unpacker}
    (hdir : w.statics.fs.isDir w.statics.cwd = true)
    (hfresh : w.statics.mutations = []) :
    Sound limits.table (validateFlags flags) w.statics.cwd w.statics.fs
      (finalState (doUnpackExt limits flags) w).statics := by
  refine (doUnpackExt_preserves limits).finalState (s := w) ?_
  refine ⟨rfl, hdir, ?_, ?_⟩
  · rw [hfresh]
    exact fun m hm => by cases hm
  · rw [hfresh]
    exact rfl

/-- Write confinement: the recorded changes account for everything that
happened to the file system, and each of them is confined to the object that
the name of its entry denotes. -/
theorem doUnpackExt_confined (flags : Flags) (w : World Unpacker)
    (hdir : w.statics.fs.isDir w.statics.cwd = true)
    (hfresh : w.statics.mutations = []) :
    History w.statics.fs
        (finalState (doUnpackExt limits flags) w).statics.mutations
        (finalState (doUnpackExt limits flags) w).statics.fs ∧
      ∀ m ∈ (finalState (doUnpackExt limits flags) w).statics.mutations,
        Confined w.statics.cwd m := by
  have h := @doUnpackExt_sound flags limits w hdir hfresh
  exact ⟨h.history, fun m hm => (h.mutations m hm).1⟩

end

/-- A file system that is one directory. -/
def emptyFileSystem : FileSystem where
  tree path := if path = [] then some (.dir ⟨0o755, ⟨0, 0⟩, ⟨0, 0⟩⟩) else none
  inodes _ := ⟨⟨0, ⟨0, 0⟩, ⟨0, 0⟩⟩, []⟩
  next := 0
  parents path name h := by simp at h
  allocated path ino h := by
    split at h
    · cases h
    · cases h

/-- A receiver without limits, in an empty directory. -/
def freshWorld (stdin : List UInt8) (useTmpfile : Bool) : World Unpacker where
  stdin
  nonblocking := false
  outcomes := []
  errno := 0
  crc32Sum := 0
  trace := []
  statics :=
    { untrustedNamebuf := CString.ofBuffer []
      totalBytes := 0
      totalFiles := 0
      useTmpfile
      cwd := []
      fs := emptyFileSystem
      start := emptyFileSystem
      mutations := [] }

def noLimits : Limits := ⟨committedTable, 0, 0, 0⟩

/-- The directory `a`, the file `a/b` with two bytes, and the directory
again. -/
def nestedStream : List UInt8 :=
  fileHeaderCodec.put ⟨2, 0x41ED, 0, 1, 2, 3, 4⟩ ++ [0x61, 0] ++
    (fileHeaderCodec.put ⟨4, 0x81A4, 2, 5, 6, 7, 8⟩ ++ [0x61, 0x2F, 0x62, 0] ++
      ([0x68, 0x69] ++
        (fileHeaderCodec.put ⟨2, 0x41ED, 0, 1, 2, 3, 4⟩ ++ [0x61, 0] ++
          fileHeaderCodec.put ⟨0, 0, 0, 0, 0, 0, 0⟩)))

theorem doUnpackExt_confined_nested :
    (finalState (doUnpackExt noLimits 2#32)
      (freshWorld nestedStream true)).statics.mutations.length = 8 ∧
    History emptyFileSystem
      (finalState (doUnpackExt noLimits 2#32)
        (freshWorld nestedStream true)).statics.mutations
      (finalState (doUnpackExt noLimits 2#32)
        (freshWorld nestedStream true)).statics.fs ∧
    ∀ m ∈ (finalState (doUnpackExt noLimits 2#32)
      (freshWorld nestedStream true)).statics.mutations, Confined [] m :=
  ⟨by decide +kernel, doUnpackExt_confined noLimits 2#32
    (freshWorld nestedStream true) rfl rfl⟩

end QubesUtils
