/-
What the receiver is for: entry after entry goes into a tree of items, or is
refused, by what the entry says and what the tree holds.
-/
import QubesUtils.Undisturbed

namespace QubesUtils

open Hoare Process ByteCodec FileSystem

/-- What has come in so far. -/
structure Incoming where
  items : Items
  totalBytes : UInt64
  totalFiles : UInt64

/-- The directory that a name leads to, and the last component. -/
def folder (cwd : Path) (name : CString) : Path :=
  cwd ++ (components name.bytes).dropLast

def leaf (name : CString) : Name :=
  (components name.bytes).getLastD []

def FileHeader.modified (hdr : FileHeader) : Timespec :=
  ⟨hdr.mtime.toUInt64, hdr.mtimeNsec.toUInt64⟩

instance (limits : Limits) (filelen totalBytes : UInt64) :
    Decidable (OverQuota limits filelen totalBytes) :=
  inferInstanceAs (Decidable (_ ∨ _))

instance (hdr : FileHeader) : Decidable (OutOfRange hdr) :=
  inferInstanceAs (Decidable (_ ∨ _))

/-- A new item, in a directory that is there. -/
def Incoming.add (st : Incoming) (cwd : Path) (name : CString)
    (item : Item) : Option Incoming :=
  if Free st.items (folder cwd name) (leaf name) then
    some { st with items := st.items.put (folder cwd name) (leaf name) item }
  else
    none

theorem Incoming.add_free {st : Incoming} {cwd : Path} {name : CString}
    {item : Item} (h : Free st.items (folder cwd name) (leaf name)) :
    st.add cwd name item = some { st with
      items := st.items.put (folder cwd name) (leaf name) item } :=
  if_pos h

theorem Incoming.add_not_free {st : Incoming} {cwd : Path} {name : CString}
    {item : Item} (h : ¬ Free st.items (folder cwd name) (leaf name)) :
    st.add cwd name item = none :=
  if_neg h

def Incoming.count (st : Incoming) (size : UInt64) : Incoming :=
  { st with totalBytes := st.totalBytes + size }

section

variable (limits : Limits) (flags : Flags) (cwd : Path)

/-- A regular file, with its content from the input. -/
def storeFile (st : Incoming) (hdr : FileHeader) (name : CString)
    (input : List UInt8) : Option (Incoming × List UInt8) :=
  if qubesPureValidateFileNameV2 limits.table name (validateFlags flags) =
        .ok 0 ∧ ¬ OverQuota limits hdr.filelen st.totalBytes ∧
      hdr.filelen.toNat ≤ input.length ∧ ¬ OutOfRange hdr then
    ((st.count hdr.filelen).add cwd name (.file (hdr.mode &&& 0o7777)
      hdr.modified (input.take hdr.filelen.toNat))).map
        fun st => (st, input.drop hdr.filelen.toNat)
  else
    none

/-- A directory that is sent again. -/
def renewDir (st : Incoming) (hdr : FileHeader) (path : Path)
    (size : UInt64) : Incoming :=
  { st.count size with
    items := Function.update st.items path
      (some (.dir (hdr.mode &&& 0o7777) (some hdr.modified))) }

/-- A directory that is there, or not. -/
def storeDirAt (st : Incoming) (hdr : FileHeader) (name : CString)
    (size : UInt64) : Option Item → Option Incoming
  | none => st.add cwd name (.dir 0o700 none)
  | some (.dir _ _) =>
      if OutOfRange hdr then none
      else some (renewDir st hdr (folder cwd name ++ [leaf name]) size)
  | some _ => none

/-- A directory, whose own size may be as it likes. -/
def storeDir (size : UInt64) (st : Incoming) (hdr : FileHeader)
    (name : CString) (input : List UInt8) :
    Option (Incoming × List UInt8) :=
  if qubesPureValidateFileNameV2 limits.table name (validateFlags flags) =
      .ok 0 ∧ st.items.isDir (folder cwd name) = true then
    (storeDirAt cwd st hdr name size
      (st.items (folder cwd name ++ [leaf name]))).map
        fun st => (st, input)
  else
    none

/-- A symbolic link, with its target from the input. -/
def storeLink (st : Incoming) (hdr : FileHeader) (name : CString)
    (input : List UInt8) : Option (Incoming × List UInt8) :=
  if hdr.filelen.toNat ≤ MAX_PATH_LENGTH - 1 ∧
      ¬ (limits.bytesLimit ≠ 0 ∧
        st.totalBytes + hdr.filelen > limits.bytesLimit) ∧
      hdr.filelen.toNat ≤ input.length ∧
      qubesPureValidateSymbolicLinkV2 limits.table name
        (CString.ofBuffer (input.take hdr.filelen.toNat))
          (validateFlags flags) = .ok 0 ∧
      Linkable (CString.ofBuffer (input.take hdr.filelen.toNat)).bytes then
    ((st.count hdr.filelen).add cwd name (.link
      (CString.ofBuffer (input.take hdr.filelen.toNat)).bytes)).map
        fun st => (st, input.drop hdr.filelen.toNat)
  else
    none

def storeEntry (size : UInt64) (st : Incoming) (hdr : FileHeader)
    (name : CString) (input : List UInt8) :
    Option (Incoming × List UInt8) :=
  if sIsReg hdr.mode then
    storeFile limits flags cwd st hdr name input
  else if sIsLnk hdr.mode ∧ hasFlag flags COPY_ALLOW_SYMLINKS then
    storeLink limits flags cwd st hdr name input
  else if sIsDir hdr.mode ∧ hasFlag flags COPY_ALLOW_DIRECTORIES then
    storeDir limits flags cwd size st hdr name input
  else
    none

end

/-! The receiver and what has come in. -/

/-- The receiver holds what has come in. -/
structure Holds (cwd : Path) (st : Incoming) (u : Unpacker) : Prop where
  current : u.cwd = cwd
  shows : Shows u.fs st.items
  totalBytes : u.totalBytes = st.totalBytes
  totalFiles : u.totalFiles = st.totalFiles

theorem folder_leaf (cwd : Path) (name : CString) :
    folder cwd name ++ [leaf name] = cwd ++ components name.bytes := by
  obtain ⟨front, last, hpieces⟩ :=
    (components name.bytes).eq_nil_or_concat'.resolve_left
      (components_ne_nil _)
  rw [folder, leaf, hpieces, List.dropLast_concat, List.getLastD_concat,
    List.append_assoc]

theorem leaf_normal {name : CString}
    (h : ∀ component ∈ components name.bytes, Normal component) :
    Normal (leaf name) := by
  refine h _ ?_
  obtain ⟨front, last, hpieces⟩ :=
    (components name.bytes).eq_nil_or_concat'.resolve_left
      (components_ne_nil _)
  rw [leaf, hpieces, List.getLastD_concat]
  exact List.mem_append_right _ List.mem_cons_self

/-! Rules for calls. -/

section

variable {calm refused : Prop} {P : Unpacker → Prop} {input : List UInt8}
  {E : Exit → World Unpacker → Prop}

/-- The process has been right to stop, if no call has failed. -/
def Blames (calm refused : Prop) (_ : Exit) (_ : World Unpacker) : Prop :=
  calm → refused

theorem doExit_blames {α : Type} {code : UInt32} {last : Option CString}
    {pre : World Unpacker → Prop} {post : α → World Unpacker → Prop}
    (h : ∀ w, pre w → calm → refused) :
    Triple pre (doExit code last) post (Blames calm refused) := by
  intro w hw
  obtain ⟨w', hrun, _⟩ := @doExit_ends α code last w
  rw [hrun]
  exact h w hw

theorem doExitErrno_blames {α : Type} {last : Option CString}
    {pre : World Unpacker → Prop} {post : α → World Unpacker → Prop}
    (h : ∀ w, pre w → calm → refused) :
    Triple pre (doExitErrno last) post (Blames calm refused) :=
  .get_bind fun w hw => (doExit_blames fun _ _ => h w hw).from_state
    (s := w) rfl

theorem strdup_at (name : CString) :
    Triple (At calm P input) (strdup name) (fun _ => At calm P input)
      (Blames calm refused) := by
  refine attempt_at.bind fun outcome => ?_
  cases outcome with
  | none => exact doExit_blames fun _ h hcalm => absurd hcalm h.2
  | some outcome => exact .ret fun _ h => h.1

/-- What a call leaves that may change the file system. -/
def Performed {α : Type} (calm : Prop) (P : Unpacker → Prop)
    (Q : α → Unpacker → Prop) (F : Errno → Prop) (input : List UInt8) :
    Option α → World Unpacker → Prop
  | some a, w => At calm (Q a) input w
  | none, w => At calm P input w ∧
      (calm → ∃ errno : Errno, w.errno = errno.value ∧ F errno)

/-- A call that can fail by the environment only. -/
theorem Performed.blames {α : Type} {Q : α → Unpacker → Prop}
    {w : World Unpacker}
    (h : Performed calm P Q (fun _ => False) input none w) (hcalm : calm) :
    refused := by
  obtain ⟨_, _, hfalse⟩ := h.2 hcalm
  exact hfalse.elim

theorem perform_at {α : Type} {call : FileSystem → Outcome →
    Except Errno (α × Effect × FileSystem)} {Q : α → Unpacker → Prop}
    {F : Errno → Prop}
    (hok : ∀ u outcome result effect fs, P u →
      (calm → outcome.empty = false) →
      call u.fs outcome = .ok (result, effect, fs) →
      Q result (u.record effect fs))
    (hfail : ∀ u outcome errno, P u → call u.fs outcome = .error errno →
      F errno) :
    Triple (At calm P input) (perform call) (Performed calm P Q F input)
      E := by
  refine attempt_at.bind fun outcome => ?_
  cases outcome with
  | none => exact .ret fun _ h => ⟨h.1, fun hcalm => absurd hcalm h.2⟩
  | some outcome =>
      refine .get_bind fun w hw => ?_
      cases hresult : call w.statics.fs outcome with
      | error errno =>
          have hset : Triple (· = w) (setErrno errno.value)
              (fun _ w' => At calm P input w' ∧ w'.errno = errno.value) E :=
            ((setErrno_at errno.value).from_state hw.1)
          exact hset.bind fun _ => .ret fun _ h => ⟨h.1, fun _ =>
            ⟨errno, h.2, hfail _ _ _ hw.1.statics hresult⟩⟩
      | ok value =>
          obtain ⟨result, effect, fs⟩ := value
          have hcommit : Triple (· = w) (commit effect fs)
              (fun _ => At calm (Q result) input) E :=
            .modify fun _ h => h ▸ ⟨hok _ _ _ _ _ hw.1.statics hw.2 hresult,
              hw.1.stdin, hw.1.undisturbed⟩
          exact hcommit.bind fun _ => .ret fun _ h => h

/-- What `openat` leaves for a directory. -/
def DirOpened (calm : Prop) (u : Unpacker) (dir : Path) (segment : Name)
    (input : List UInt8) : Option Path → World Unpacker → Prop
  | some path, w => At calm (· = u) input w ∧
      u.fs.openDirAt dir segment = .ok path
  | none, _ => calm → ∃ errno, u.fs.openDirAt dir segment = .error errno

theorem openDir_at (dir : Path) (segment : Name) (u : Unpacker) :
    Triple (At calm (· = u) input) (openDir dir segment)
      (DirOpened calm u dir segment input) E := by
  refine attempt_at.bind fun outcome => ?_
  cases outcome with
  | none => exact .ret fun _ h hcalm => absurd hcalm h.2
  | some outcome =>
      refine .get_bind fun w hw => ?_
      rw [hw.1.statics]
      cases hresult : u.fs.openDirAt dir segment with
      | error errno =>
          have hset : Triple (· = w) (setErrno errno.value)
              (fun _ _ => True) E := .modify fun _ _ => trivial
          exact hset.bind fun _ => .ret fun _ _ _ => ⟨errno, hresult⟩
      | ok path => exact .ret fun _ h => h ▸ ⟨hw.1, hresult⟩

theorem openDirAt_error {fs : FileSystem} {dir : Path} {segment : Name}
    {errno : Errno} (hnormal : Normal segment)
    (h : fs.openDirAt dir segment = .error errno) :
    fs.isDir (dir ++ [segment]) = false := by
  rw [openDirAt, if_neg hnormal.1, child_of_normal hnormal] at h
  by_cases hdir : fs.isDir (dir ++ [segment]) = true
  · rw [if_pos hdir] at h
    cases h
  · exact Bool.eq_false_iff.mpr hdir

theorem openDirAt_normal {fs : FileSystem} {dir path : Path}
    {segment : Name} (hnormal : Normal segment)
    (h : fs.openDirAt dir segment = .ok path) :
    fs.isDir path = true ∧ path = dir ++ [segment] := by
  obtain ⟨hdir, hpath⟩ := openDirAt_ok h
  rw [child_of_normal hnormal] at hpath
  exact ⟨hdir, hpath⟩

/-- A path is opened if it leads through directories only. -/
theorem opendirSafe_at {u : Unpacker} {pieces : List Name}
    (hne : pieces ≠ []) (hnormal : ∀ piece ∈ pieces, Normal piece) :
    ∀ dir : Path,
      (u.fs.isDir (dir ++ pieces.dropLast) = false → refused) →
      Triple (At calm (· = u) input) (opendirSafe dir pieces)
        (fun place w => At calm (· = u) input w ∧
          place = (dir ++ pieces.dropLast, pieces.getLastD []))
        (Blames calm refused) := by
  induction pieces with
  | nil => exact absurd rfl hne
  | cons segment rest ih =>
      intro dir hrefused
      cases rest with
      | nil =>
          refine .ret fun _ h => ⟨h, ?_⟩
          rw [List.dropLast_singleton, List.append_nil]
          rfl
      | cons second rest =>
          have hsegment := hnormal segment List.mem_cons_self
          have hsplit : dir ++ (segment :: second :: rest).dropLast =
              dir ++ [segment] ++ (second :: rest).dropLast := by
            rw [List.dropLast_cons_cons, List.append_assoc,
              List.singleton_append]
          rw [hsplit] at hrefused ⊢
          rw [opendirSafe_cons, if_neg (short_of_normal hsegment)]
          refine (openDir_at dir segment u).bind fun result => ?_
          cases result with
          | none =>
              refine doExitErrno_blames fun _ h hcalm => hrefused ?_
              obtain ⟨errno, herror⟩ := h hcalm
              refine Bool.eq_false_iff.mpr fun hdir => ?_
              have hfirst := FileSystem.isDir_of_append _ _ hdir
              rw [openDirAt_error hsegment herror] at hfirst
              cases hfirst
          | some path =>
              refine Triple.assume (fun _ h => h.2) fun hopen => ?_
              refine Triple.pre_mono ?_ fun _ h => h.1
              obtain ⟨_, rfl⟩ := openDirAt_normal hsegment hopen
              exact ih (List.cons_ne_nil _ _)
                (fun piece h => hnormal piece (List.mem_cons_of_mem _ h))
                _ hrefused

theorem addTotalBytes_at {cwd : Path} {st : Incoming} (count : UInt64) :
    Triple (At calm (Holds cwd st) input) (addTotalBytes count)
      (fun _ => At calm (Holds cwd (st.count count)) input) E := by
  refine .modify fun w h => ⟨?_, h.stdin, h.undisturbed⟩
  refine ⟨h.statics.current, h.statics.shows, ?_, h.statics.totalFiles⟩
  change w.statics.totalBytes + count = st.totalBytes + count
  rw [h.statics.totalBytes]

theorem add_error {fs : FileSystem} {dir : Path} {name : Name} {node : Node}
    {now : Timespec} {errno : Errno} (hnormal : Normal name)
    (hnode : node.allocated fs.next = true)
    (h : fs.add dir name node now = .error errno) :
    (fs.tree (dir ++ [name]) ≠ none ∧ errno = errnoOf EEXIST) ∨
      (fs.tree (dir ++ [name]) = none ∧ NAME_MAX < name.length) ∨
      fs.isDir dir = false := by
  rw [FileSystem.add, if_neg hnormal.1,
    if_neg (not_or.mpr ⟨hnormal.2.1, hnormal.2.2⟩)] at h
  by_cases hfree : fs.tree (dir ++ [name]) = none
  · rw [dif_pos hfree] at h
    by_cases hlong : NAME_MAX < name.length
    · exact Or.inr (Or.inl ⟨hfree, hlong⟩)
    rw [if_neg hlong] at h
    by_cases hdir : fs.isDir dir = true
    · rw [dif_pos ⟨hdir, hnode⟩] at h
      cases h
    · exact Or.inr (Or.inr (Bool.eq_false_iff.mpr hdir))
  · rw [dif_neg hfree] at h
    exact Or.inl ⟨hfree, (Except.error.inj h).symm⟩

end

end QubesUtils
