/-
A directory, a symbolic link, any entry comes in: it is in the tree in the
end, or the receiver has been right to stop.
-/
import QubesUtils.IncomingFile

namespace QubesUtils

open Hoare Process ByteCodec FileSystem

section

variable {calm refused : Prop} {input : List UInt8} {cwd : Path}
  {st : Incoming} {dir : Path} {segment : Name} {limits : Limits}
  {flags : Flags} {hdr : FileHeader} {name : CString}
  {E : Exit → World Unpacker → Prop}

/-! Additions. -/

/-- Why a name cannot be added. -/
inductive Occupied (items : Items) (dir : Path) (segment : Name)
    (errno : Errno) : Prop
  | noParent (h : items.isDir dir = false)
  | long (habsent : items (dir ++ [segment]) = none)
      (h : NAME_MAX < segment.length)
  | present (h : items (dir ++ [segment]) ≠ none)
      (herrno : errno.value = UInt32.ofNat EEXIST)

theorem Occupied.not_free {items : Items} {errno : Errno}
    (h : Occupied items dir segment errno) : ¬ Free items dir segment := by
  intro hfree
  cases h with
  | noParent h =>
      rw [hfree.parent] at h
      cases h
  | long _ h => exact absurd hfree.short (Nat.not_le.mpr h)
  | present h _ => exact h hfree.absent

/-- A call that adds an item that needs no inode. -/
theorem addItem_at (node : Outcome → Node) {item : Item} {effect : Effect}
    {call : FileSystem → Outcome → Except Errno (Unit × Effect × FileSystem)}
    (hcall : ∀ fs outcome, call fs outcome =
      (fs.add dir segment (node outcome) outcome.now).map
        fun fs' => ((), effect, fs'))
    (hallocated : ∀ next outcome, (node outcome).allocated next = true)
    (hnode : ∀ fs outcome, Stands fs (some (node outcome)) (some item))
    (hnormal : Normal segment) :
    Triple (At calm (Holds cwd st) input) (perform call)
      (Performed calm (Holds cwd st)
        (fun _ u => Free st.items dir segment ∧ Holds cwd { st with
          items := st.items.put dir segment item } u)
        (Occupied st.items dir segment) input) E := by
  refine perform_at (fun u outcome result effect' fs hu _ hresult => ?_)
    fun u outcome errno hu hresult => ?_
  · rw [hcall] at hresult
    obtain ⟨fs', hadd, heq⟩ := map_eq_ok.mp hresult
    simp only [Prod.mk.injEq, true_and] at heq
    obtain ⟨rfl, rfl⟩ := heq
    have hadded := add_ok hadd
    exact ⟨free_of_added hu.shows hadded, hu.current,
      hu.shows.added hadded (hnode _ _), hu.totalBytes, hu.totalFiles⟩
  · rw [hcall] at hresult
    rcases add_error hnormal (hallocated _ _) (map_eq_error.mp hresult) with
      ⟨hexists, rfl⟩ | ⟨habsent, hlong⟩ | hdir
    · exact .present (fun habsent => hexists
        ((hu.shows.absent_iff _).mp habsent)) rfl
    · exact .long ((hu.shows.absent_iff _).mpr habsent) hlong
    · refine .noParent (Bool.eq_false_iff.mpr fun hitems => ?_)
      rw [(hu.shows.isDir_iff _).mp hitems] at hdir
      cases hdir

theorem makeDir_at (hnormal : Normal segment) :
    Triple (At calm (Holds cwd st) input) (makeDir dir segment)
      (Performed calm (Holds cwd st)
        (fun _ u => Free st.items dir segment ∧ Holds cwd { st with
          items := st.items.put dir segment (.dir 0o700 none) } u)
        (Occupied st.items dir segment) input) E :=
  addItem_at (fun outcome => .dir ⟨0o700, outcome.now, outcome.now⟩)
    (fun _ _ => rfl) (fun _ _ => rfl)
    (fun _ _ => @Stands.dir _ ⟨0o700, _, _⟩ none fun _ h => by cases h)
    hnormal

theorem makeLink_at {target : CString} (htarget : Linkable target.bytes)
    (hnormal : Normal segment) :
    Triple (At calm (Holds cwd st) input) (makeLink target dir segment)
      (Performed calm (Holds cwd st)
        (fun _ u => Free st.items dir segment ∧ Holds cwd { st with
          items := st.items.put dir segment (.link target.bytes) } u)
        (Occupied st.items dir segment) input) E := by
  refine @addItem_at _ _ _ _ _ _ _ (fun _ => .link target.bytes) _
    (.symlink target dir segment) _ (fun fs outcome => ?_) (fun _ _ => rfl)
    (fun _ _ => .link) hnormal
  rw [symlinkAt_linkable htarget]
  rfl

/-- A target that no link can have. -/
theorem makeLink_refused {P : Unpacker → Prop} {target : CString}
    (h : ¬ Linkable target.bytes) :
    Triple (At calm P input) (makeLink target dir segment)
      (Performed calm P (fun _ _ => False) (fun _ => True) input) E := by
  refine perform_at (fun u outcome result effect fs _ _ hresult => ?_)
    fun _ _ _ _ _ => trivial
  obtain ⟨fs', hsymlink, _⟩ := map_eq_ok.mp hresult
  exact h (symlinkAt_ok hsymlink).1

/-! Directories. -/

theorem storeDir_some {size : UInt64} {st' : Incoming}
    (hvalid : qubesPureValidateFileNameV2 limits.table name
      (validateFlags flags) = .ok 0)
    (hdir : st.items.isDir (folder cwd name) = true)
    (hstore : storeDirAt cwd st hdr name size
      (st.items (folder cwd name ++ [leaf name])) = some st') :
    storeDir limits flags cwd size st hdr name input = some (st', input) := by
  rw [storeDir, if_pos ⟨hvalid, hdir⟩, hstore]
  rfl

/-- The directory cannot be where it should be. -/
theorem storeDir_no_parent {size : UInt64}
    (h : st.items.isDir (folder cwd name) = false) :
    storeDir limits flags cwd size st hdr name input = none :=
  if_neg fun hboth => by
    rw [hboth.2] at h
    cases h

/-- Neither can the directory be made, nor is it there. -/
theorem storeDir_not_dir {size : UInt64} {errno : Errno}
    (h : Occupied st.items (folder cwd name) (leaf name) errno)
    (hnot : st.items.isDir (folder cwd name ++ [leaf name]) = false ∨
      errno.value ≠ UInt32.ofNat EEXIST) :
    storeDir limits flags cwd size st hdr name input = none := by
  cases h with
  | noParent h => exact storeDir_no_parent h
  | long habsent h =>
      rw [storeDir, habsent, storeDirAt, Incoming.add_not_free fun hfree =>
        absurd hfree.short (Nat.not_le.mpr h)]
      exact ite_self _
  | present h herrno =>
      have hnot := hnot.resolve_right (not_not_intro herrno)
      rw [storeDir]
      split
      · rw [Items.isDir] at hnot
        cases hitem : st.items (folder cwd name ++ [leaf name]) with
        | none => exact absurd hitem h
        | some item =>
            rw [hitem] at hnot
            cases item with
            | dir mode mtime => cases hnot
            | file mode mtime data => rfl
            | link target => rfl
      · rfl

/-- What is left when it is known whether the directory was there. -/
def DirFound (calm : Prop) (cwd : Path) (st : Incoming) (name : CString)
    (input : List UInt8) : Option (Path × Outcome) → World Unpacker → Prop
  | none, w => Free st.items (folder cwd name) (leaf name) ∧
      At calm (Holds cwd { st with
        items := st.items.put (folder cwd name) (leaf name)
          (.dir 0o700 none) }) input w
  | some (path, _), w => (path = folder cwd name ++ [leaf name] ∧
      st.items.isDir (folder cwd name) = true ∧
      st.items.isDir path = true) ∧ At calm (Holds cwd st) input w

/-- A directory that was there is opened and looked at. -/
theorem openFound_at {w : World Unpacker}
    (hw : At calm (Holds cwd st) input w) (hnormal : Normal (leaf name))
    (hrefused : calm →
      st.items.isDir (folder cwd name ++ [leaf name]) = false → refused) :
    Triple (· = w) (do
        match ← openDir (folder cwd name) (leaf name) with
        | none => doExitErrno (some name)
        | some path => do
            match ← attempt with
            | none => doExitErrno (some name)
            | some stat => pure (some (path, stat)))
      (DirFound calm cwd st name input) (Blames calm refused) := by
  have hopen := (@openDir_at calm input (Blames calm refused)
    (folder cwd name) (leaf name) w.statics).from_state
      ⟨rfl, hw.stdin, hw.undisturbed⟩
  refine hopen.bind fun result => ?_
  cases result with
  | none =>
      refine doExitErrno_blames fun _ h hcalm => hrefused hcalm ?_
      obtain ⟨errno, herror⟩ := h hcalm
      have hnot := openDirAt_error hnormal herror
      refine Bool.eq_false_iff.mpr fun hitems => ?_
      rw [(hw.statics.shows.isDir_iff _).mp hitems] at hnot
      cases hnot
  | some path =>
      refine Triple.assume (fun _ h => h.2) fun hopened => ?_
      refine Triple.pre_mono ?_ fun _ h => h.1
      obtain ⟨hdir, rfl⟩ := openDirAt_normal hnormal hopened
      have hitem := (hw.statics.shows.isDir_iff _).mpr hdir
      have hparent := (hw.statics.shows.isDir_iff _).mpr
        (FileSystem.isDir_of_append _ _ hdir)
      refine attempt_at.bind fun outcome => ?_
      cases outcome with
      | none =>
          exact doExitErrno_blames fun _ h hcalm => absurd hcalm h.2
      | some outcome =>
          exact .ret fun _ h => ⟨⟨rfl, hparent, hitem⟩,
            h.1.imp fun _ hu => hu ▸ hw.statics⟩

theorem statDir_at :
    Triple (At calm (Holds cwd st) input)
      (statDir limits name (validateFlags flags))
      (fun found w => qubesPureValidateFileNameV2 limits.table name
          (validateFlags flags) = .ok 0 ∧
        DirFound calm cwd st name input found w)
      (Blames calm (∀ size,
        storeDir limits flags cwd size st hdr name input = none)) := by
  refine (liftFault_reading (qubesPureValidateFileNameV2_total _)).bind
    fun rc => ?_
  refine Triple.assume (fun _ h => h.1) fun hrc => ?_
  refine Triple.pre_mono ?_ fun _ h => h.2
  refine .ite (fun hne => doExit_blames fun _ _ _ size => ?_) fun hzero => ?_
  · refine if_neg fun h => hne ?_
    rw [h.1, Except.ok.injEq] at hrc
    exact hrc.symm
  rw [not_not.mp hzero] at hrc
  have hnormal := normal_of_fileName hrc
  refine (strdup_at name).bind fun _ => .get_bind fun w hw => ?_
  refine (opendir_at hw hnormal fun hdir size =>
    storeDir_no_parent hdir).bind fun place => ?_
  refine Triple.assume (fun _ h => h.1) fun hplace => ?_
  subst hplace
  refine Triple.pre_mono ?_ fun _ h => h.2
  refine (makeDir_at (leaf_normal hnormal)).bind fun made => ?_
  cases made with
  | some _ =>
      exact .ret fun _ h => ⟨hrc, h.statics.1, h.imp fun _ hu => hu.2⟩
  | none =>
      refine .get_bind fun w' hw' => .ite (fun herrno => ?_) fun herrno => ?_
      · refine doExitErrno_blames fun _ _ hcalm size => ?_
        obtain ⟨errno, hset, hoccupied⟩ := hw'.2 hcalm
        exact storeDir_not_dir hoccupied (Or.inr fun hexists =>
          herrno (hset.trans hexists))
      · refine (openFound_at hw'.1 (leaf_normal hnormal)
          fun hcalm hnot size => ?_).post_mono fun _ _ h => ⟨hrc, h⟩
        obtain ⟨_, _, hoccupied⟩ := hw'.2 hcalm
        exact storeDir_not_dir hoccupied (Or.inl hnot)

/-- A change of the attributes of a directory that is known. -/
theorem changeDir_at {path : Path} {mode : UInt32}
    {mtime : Option Timespec} {effect : Effect} (mode' : UInt32)
    (mtime' : Option Timespec) (f : Attributes → Attributes)
    {call : FileSystem → Outcome → Except Errno (Unit × Effect × FileSystem)}
    (hcall : ∀ fs outcome, call fs outcome =
      .ok ((), effect, fs.change (.dir path) f))
    (hitem : st.items path = some (.dir mode mtime))
    (hmode : ∀ attributes, attributes.mode = mode →
      (f attributes).mode = mode')
    (hmtime : ∀ attributes, ∀ time ∈ mtime', (f attributes).mtime = time) :
    Triple (At calm (Holds cwd st) input) (perform call)
      (Performed calm (Holds cwd st)
        (fun _ => Holds cwd { st with
          items := Function.update st.items path (some (.dir mode' mtime')) })
        (fun _ => False) input) E := by
  refine perform_at (fun u outcome result effect' fs hu _ hresult => ?_)
    fun u outcome errno hu hresult => ?_
  · rw [hcall, Except.ok.injEq, Prod.mk.injEq, Prod.mk.injEq] at hresult
    obtain ⟨_, rfl, rfl⟩ := hresult
    obtain ⟨attributes, hnode, hold, _⟩ :=
      (hitem ▸ hu.shows path : Stands _ _ (some _)).of_dir
    have hshows := hu.shows.setAttributes hnode f (hmtime attributes)
    rw [hmode attributes hold] at hshows
    exact ⟨hu.current, hshows, hu.totalBytes, hu.totalFiles⟩
  · rw [hcall] at hresult
    cases hresult

/-- A directory gets its permissions and its times. -/
theorem fixTimesAndPerms_dir {path : Path} (hdir : sIsDir hdr.mode = true)
    (hitem : st.items.isDir path = true) (hrefused : OutOfRange hdr → refused) :
    Triple (At calm (Holds cwd st) input)
      (fixTimesAndPerms (.dir path) hdr name)
      (fun _ w => ¬ OutOfRange hdr ∧ At calm (Holds cwd { st with
        items := Function.update st.items path
          (some (.dir (hdr.mode &&& 0o7777) (some hdr.modified))) }) input w)
      (Blames calm refused) := by
  obtain ⟨mode, mtime, hitem⟩ := Items.isDir_iff.mp hitem
  refine (validateUtimeNsec_at fun h => hrefused (Or.inl h)).bind
    fun atimeNsec => ?_
  refine Triple.assume (fun _ h => h.2.2) fun hatime => ?_
  refine Triple.pre_mono ?_ fun _ h => h.1
  refine (validateUtimeNsec_at fun h => hrefused (Or.inr h)).bind
    fun mtimeNsec => ?_
  refine Triple.assume (fun _ h => h.2) fun hmtime => ?_
  refine Triple.pre_mono ?_ fun _ h => h.1
  have hrange : ¬ OutOfRange hdr := fun h => h.elim hatime hmtime.2
  rw [setMode, if_neg (by simp [(sIsDir_exclusive hdir).2])]
  refine (@changeDir_at calm input cwd st (Blames calm refused) path mode mtime
    (.chmod (.dir path)) (hdr.mode &&& 0o7777) none
    (fun a => { a with mode := hdr.mode &&& 0o7777 }) _ (fun _ _ => rfl) hitem
    (fun _ _ => rfl) fun _ _ h => by cases h).bind fun result => ?_
  cases result with
  | none => exact doExitErrno_blames fun _ h => h.blames
  | some _ =>
      refine (@changeDir_at calm input cwd _ (Blames calm refused) path
        (hdr.mode &&& 0o7777) none (.utimes (.dir path))
        (hdr.mode &&& 0o7777) (some hdr.modified)
        (fun a => { a with
          atime := ⟨hdr.atime.toUInt64, atimeNsec⟩
          mtime := ⟨hdr.mtime.toUInt64, mtimeNsec⟩ }) _ (fun _ _ => rfl)
        (Function.update_self _ _ _) (fun _ h => h) ?_).bind
          fun result => ?_
      · rintro _ _ ⟨⟩
        rw [hmtime.1]
        rfl
      cases result with
      | none => exact doExitErrno_blames fun _ h => h.blames
      | some _ =>
          refine .ret fun w h => ⟨hrange, ?_⟩
          have hat := h
          simp only [Performed, Function.update_idem] at hat
          exact hat

/-- What `fstat` reports if a directory is sent again. -/
def SizeFound (limits : Limits) (flags : Flags) (hdr : FileHeader)
    (name : CString) (w : World Unpacker) (size : UInt64) : Prop :=
  sIsDir hdr.mode ∧ hasFlag flags COPY_ALLOW_DIRECTORIES → ∀ path stat w',
    (statDir limits name (validateFlags flags)).run w =
      .ok (some (path, stat)) w' → UInt64.ofNat stat.amount = size

theorem countDir_at (path : Path) (stat : Outcome) :
    Triple (At calm (Holds cwd st) input) (countDir (some (path, stat)))
      (fun reopened w => reopened = some path ∧
        At calm (Holds cwd (st.count (UInt64.ofNat stat.amount))) input w) E :=
  (addTotalBytes_at _).bind fun _ => .ret fun _ h => ⟨rfl, h⟩

theorem processOneFileDir_at {w : World Unpacker} {size : UInt64}
    (hw : At calm (Holds cwd st) input w)
    (hdir : sIsDir hdr.mode ∧ hasFlag flags COPY_ALLOW_DIRECTORIES)
    (hsize : SizeFound limits flags hdr name w size) :
    Triple (· = w) (processOneFileDir limits hdr name (validateFlags flags))
      (fun _ => Came calm cwd
        (storeDir limits flags cwd size st hdr name input))
      (Blames calm
        (storeDir limits flags cwd size st hdr name input = none)) := by
  rw [processOneFileDir_eq, reopenDir_eq, bind_assoc]
  have hstat := ((@statDir_at calm input cwd st limits flags hdr
    name).from_state hw).mono (fun _ h => h) (fun _ _ h => h)
      fun _ _ h hcalm => h hcalm size
  refine hstat.ran.bind fun found => ?_
  refine Triple.assume (fun _ h => h.1.1) fun hvalid => ?_
  cases found with
  | none =>
      refine .ret fun w' h => ⟨_, _, storeDir_some hvalid h.1.2.1.parent ?_,
        h.1.2.2⟩
      rw [h.1.2.1.absent]
      exact Incoming.add_free h.1.2.1
  | some found =>
      obtain ⟨path, stat⟩ := found
      refine Triple.assume (fun _ h => h.1.2.1) fun hfound => ?_
      obtain ⟨rfl, hparent, hitem⟩ := hfound
      refine Triple.assume (fun w' h => hsize hdir _ _ w' h.2) fun hsize => ?_
      subst hsize
      refine Triple.pre_mono ?_ fun _ h => h.1.2.2
      obtain ⟨mode, mtime, hnode⟩ := Items.isDir_iff.mp hitem
      refine (countDir_at _ stat).bind fun reopened => ?_
      refine Triple.assume (fun _ h => h.1) fun hreopened => ?_
      subst hreopened
      refine Triple.pre_mono ?_ fun _ h => h.2
      have hrefused : OutOfRange hdr → storeDir limits flags cwd
          (UInt64.ofNat stat.amount) st hdr name input = none := by
        intro hrange
        rw [storeDir, hnode, storeDirAt, if_pos hrange]
        split
        · rfl
        · rfl
      refine (@fixTimesAndPerms_dir calm _ input cwd (st.count _) hdr name _
        hdir.1 hitem hrefused).post_mono fun _ w' h =>
          ⟨_, _, storeDir_some hvalid hparent ?_, h.2⟩
      rw [hnode, storeDirAt, if_neg h.1]
      rfl

/-! Symbolic links. -/

/-- A link has a length that is allowed, and fits. -/
structure LinkFits (limits : Limits) (st : Incoming) (hdr : FileHeader) :
    Prop where
  short : hdr.filelen.toNat ≤ MAX_PATH_LENGTH - 1
  quota : ¬ (limits.bytesLimit ≠ 0 ∧
    st.totalBytes + hdr.filelen > limits.bytesLimit)

theorem storeLink_some {payload rest : List UInt8}
    (hfits : LinkFits limits st hdr) (hinput : input = payload ++ rest)
    (hlength : payload.length = hdr.filelen.toNat)
    (hvalid : qubesPureValidateSymbolicLinkV2 limits.table name
      (CString.ofBuffer payload) (validateFlags flags) = .ok 0)
    (htarget : Linkable (CString.ofBuffer payload).bytes)
    (hfree : Free st.items (folder cwd name) (leaf name)) :
    storeLink limits flags cwd st hdr name input =
      some ({ st.count hdr.filelen with
        items := st.items.put (folder cwd name) (leaf name)
          (.link (CString.ofBuffer payload).bytes) }, rest) := by
  have htake : input.take hdr.filelen.toNat = payload := by
    rw [hinput, ← hlength, List.take_left]
  have hdrop : input.drop hdr.filelen.toNat = rest := by
    rw [hinput, ← hlength, List.drop_left]
  have hle : hdr.filelen.toNat ≤ input.length := by
    rw [hinput, List.length_append]
    omega
  rw [storeLink, htake, hdrop,
    if_pos ⟨hfits.short, hfits.quota, hle, hvalid, htarget⟩,
    @Incoming.add_free (st.count hdr.filelen) _ _ _ hfree]
  rfl

theorem storeLink_not_free
    (h : ¬ Free st.items (folder cwd name) (leaf name)) :
    storeLink limits flags cwd st hdr name input = none := by
  rw [storeLink]
  split
  · rw [@Incoming.add_not_free (st.count hdr.filelen) _ _ _ h]
    rfl
  · rfl

/-- The target of a link comes from the input. -/
theorem receiveTarget_at :
    Triple (At calm (Holds cwd st) input) (receiveTarget limits hdr name)
      (fun content w => ∃ payload rest, (input = payload ++ rest ∧
          payload.length = hdr.filelen.toNat ∧ LinkFits limits st hdr ∧
          content = CString.ofBuffer payload) ∧
        At calm (Holds cwd (st.count hdr.filelen)) rest w)
      (Blames calm (storeLink limits flags cwd st hdr name input = none)) := by
  refine .ite (fun hlong => doExit_blames fun _ _ _ => ?_) fun hshort => ?_
  · exact if_neg fun h => absurd h.1 (Nat.not_le.mpr hlong)
  refine (addTotalBytes_at hdr.filelen).bind fun _ => .get_bind fun w hw => ?_
  have htotal : w.statics.totalBytes = st.totalBytes + hdr.filelen :=
    hw.statics.totalBytes
  rw [htotal]
  refine .ite (fun hover => doExit_blames fun _ _ _ => ?_) fun hquota => ?_
  · exact if_neg fun h => h.2.1 hover
  refine ((readAllWithCrc_at _).from_state hw).bind fun result => ?_
  cases result with
  | none =>
      refine doExit_blames fun _ h hcalm => if_neg fun hstore => ?_
      have hlt := h hcalm
      omega
  | some bytes =>
      refine .ret fun w' h => ?_
      obtain ⟨hlength, rest, hinput, hat⟩ := h
      exact ⟨bytes, rest, ⟨hinput, hlength,
        ⟨Nat.not_lt.mp hshort, hquota⟩, rfl⟩, hat⟩

/-- A link to a target that has been received. -/
theorem linkTarget_at {content : CString}
    (hinvalid : qubesPureValidateSymbolicLinkV2 limits.table name content
      (validateFlags flags) ≠ .ok 0 → refused)
    (hunlinkable : ¬ Linkable content.bytes → refused)
    (htaken : ¬ Free st.items (folder cwd name) (leaf name) → refused) :
    Triple (At calm (Holds cwd st) input)
      (linkTarget limits name (validateFlags flags) content)
      (fun _ w => (qubesPureValidateSymbolicLinkV2 limits.table name content
          (validateFlags flags) = .ok 0 ∧ Linkable content.bytes ∧
          Free st.items (folder cwd name) (leaf name)) ∧
        At calm (Holds cwd { st with
          items := st.items.put (folder cwd name) (leaf name)
            (.link content.bytes) }) input w) (Blames calm refused) := by
  refine (liftFault_reading
    (qubesPureValidateSymbolicLinkV2_total _ _)).bind fun rc => ?_
  refine Triple.assume (fun _ h => h.1) fun hrc => ?_
  refine Triple.pre_mono ?_ fun _ h => h.2
  refine .ite (fun hne => doExit_blames fun _ _ _ => hinvalid ?_)
    fun hzero => ?_
  · rw [hrc]
    exact fun h => hne (Except.ok.inj h)
  rw [not_not.mp hzero] at hrc
  have hnormal := normal_of_symbolicLink hrc
  refine (strdup_at name).bind fun _ => .get_bind fun w hw => ?_
  refine (opendir_at hw hnormal fun hdir => htaken fun hfree => ?_).bind
    fun place => ?_
  · rw [hfree.parent] at hdir
    cases hdir
  refine Triple.assume (fun _ h => h.1) fun hplace => ?_
  subst hplace
  refine Triple.pre_mono ?_ fun _ h => h.2
  by_cases htarget : Linkable content.bytes
  · refine (makeLink_at htarget (leaf_normal hnormal)).bind fun made => ?_
    cases made with
    | some _ =>
        exact .ret fun _ h =>
          ⟨⟨hrc, htarget, h.statics.1⟩, h.imp fun _ hu => hu.2⟩
    | none =>
        refine doExitErrno_blames fun _ h hcalm => ?_
        obtain ⟨_, _, hoccupied⟩ := h.2 hcalm
        exact htaken hoccupied.not_free
  · refine (makeLink_refused htarget).bind fun made => ?_
    cases made with
    | some _ => exact .ret fun _ h => h.statics.elim
    | none => exact doExitErrno_blames fun _ _ _ => hunlinkable htarget

theorem processOneFileLink_at :
    Triple (At calm (Holds cwd st) input)
      (processOneFileLink limits hdr name (validateFlags flags))
      (fun _ => Came calm cwd (storeLink limits flags cwd st hdr name input))
      (Blames calm (storeLink limits flags cwd st hdr name input = none)) := by
  rw [processOneFileLink_eq]
  refine receiveTarget_at.bind fun content => ?_
  refine Triple.exists_pre fun payload => Triple.exists_pre fun rest => ?_
  refine Triple.assume (fun _ h => h.1) fun hpayload => ?_
  refine Triple.pre_mono ?_ fun _ h => h.2
  obtain ⟨hinput, hlength, hfits, rfl⟩ := hpayload
  have htake : input.take hdr.filelen.toNat = payload := by
    rw [hinput, ← hlength, List.take_left]
  have hinvalid : qubesPureValidateSymbolicLinkV2 limits.table name
      (CString.ofBuffer payload) (validateFlags flags) ≠ .ok 0 →
      storeLink limits flags cwd st hdr name input = none := by
    intro hinvalid
    rw [storeLink, htake, if_neg fun h => hinvalid h.2.2.2.1]
  have hunlinkable : ¬ Linkable (CString.ofBuffer payload).bytes →
      storeLink limits flags cwd st hdr name input = none := by
    intro hunlinkable
    rw [storeLink, htake, if_neg fun h => hunlinkable h.2.2.2.2]
  exact (@linkTarget_at calm _ rest cwd (st.count hdr.filelen) limits flags
    name _ hinvalid hunlinkable fun h => storeLink_not_free h).post_mono
      fun _ w h => ⟨_, _, storeLink_some hfits hinput hlength h.1.1 h.1.2.1
        h.1.2.2, h.2⟩

/-! Any entry. -/

section

variable {size : UInt64}

theorem storeEntry_regular (h : sIsReg hdr.mode = true) :
    storeEntry limits flags cwd size st hdr name input =
      storeFile limits flags cwd st hdr name input :=
  if_pos h

theorem storeEntry_link (h : sIsLnk hdr.mode = true)
    (hflag : hasFlag flags COPY_ALLOW_SYMLINKS = true) :
    storeEntry limits flags cwd size st hdr name input =
      storeLink limits flags cwd st hdr name input := by
  have hreg : ¬ sIsReg hdr.mode = true := by simp [(sIsLnk_exclusive h).1]
  exact (if_neg hreg).trans (if_pos ⟨h, hflag⟩)

theorem storeEntry_dir (h : sIsDir hdr.mode = true)
    (hflag : hasFlag flags COPY_ALLOW_DIRECTORIES = true) :
    storeEntry limits flags cwd size st hdr name input =
      storeDir limits flags cwd size st hdr name input := by
  obtain ⟨hreg, hlink⟩ := sIsDir_exclusive h
  have hreg : ¬ sIsReg hdr.mode = true := by simp [hreg]
  have hlink : ¬ (sIsLnk hdr.mode = true ∧
      hasFlag flags COPY_ALLOW_SYMLINKS = true) := by simp [hlink]
  exact (if_neg hreg).trans ((if_neg hlink).trans (if_pos ⟨h, hflag⟩))

end

theorem processByType_at {w : World Unpacker} {size : UInt64}
    (hw : At calm (Holds cwd st) input w)
    (hsize : SizeFound limits flags hdr name w size) :
    Triple (· = w) (processByType limits hdr name flags)
      (fun _ => Came calm cwd
        (storeEntry limits flags cwd size st hdr name input))
      (Blames calm
        (storeEntry limits flags cwd size st hdr name input = none)) := by
  rw [storeEntry]
  refine .ite (fun hreg => ?_) fun hreg => .ite (fun hlink => ?_)
    fun hlink => .ite (fun hdir => ?_) fun hdir => ?_
  · rw [if_pos hreg]
    exact (processOneFileReg_at hreg).pre_mono fun _ h => h ▸ hw
  · rw [if_neg hreg, if_pos hlink]
    exact processOneFileLink_at.pre_mono fun _ h => h ▸ hw
  · rw [if_neg hreg, if_neg hlink, if_pos hdir]
    exact processOneFileDir_at hw hdir hsize
  · rw [if_neg hreg, if_neg hlink, if_neg hdir]
    exact doExit_blames fun _ _ _ => rfl

/-- The end of a pass is recorded. -/
theorem emitProcessed_came {bytes : List UInt8}
    {result : Option (Incoming × List UInt8)} :
    Triple (Came calm cwd result) (emit (.processed hdr bytes))
      (fun _ => Came calm cwd result) E := by
  refine Triple.exists_pre fun st' => Triple.exists_pre fun rest => ?_
  refine Triple.assume (fun _ h => h.1) fun hstore => ?_
  refine Triple.pre_mono ?_ fun _ h => h.2
  exact (emit_at _).post_mono fun _ _ h => ⟨st', rest, hstore, h⟩

theorem handleEntry_at {bytes : List UInt8} {w : World Unpacker}
    {size : UInt64} (hw : At calm (Holds cwd st) input w)
    (hsize : SizeFound limits flags hdr (CString.ofBuffer bytes) w size) :
    Triple (· = w) (handleEntry limits flags hdr bytes)
      (fun _ => Came calm cwd (storeEntry limits flags cwd size st hdr
        (CString.ofBuffer bytes) input))
      (Blames calm (storeEntry limits flags cwd size st hdr
        (CString.ofBuffer bytes) input = none)) :=
  (processByType_at hw hsize).bind fun _ => emitProcessed_came

end

end QubesUtils
