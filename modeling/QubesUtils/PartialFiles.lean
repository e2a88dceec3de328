/-
A file that the receiver has made is complete or has no permissions: at every
step of a run, in whatever way the file is made and wherever the run ends.
-/
import QubesUtils.UnpackRun

namespace QubesUtils

open Hoare Process ByteCodec FileSystem

/-! Files that may be seen. -/

/-- A file that is new since the start has no permissions, or what it holds
under its name is complete. -/
def Hides (complete : Path → List UInt8 → Prop) (initial fs : FileSystem) :
    Prop :=
  ∀ path ino, fs.tree path = some (.file ino) → initial.next ≤ ino →
    (fs.inodes ino).attributes.mode = 0 ∨ complete path (fs.inodes ino).data

/-- A file that is being written: it has no name yet, or no permissions. -/
structure PendingFile (initial fs : FileSystem) (path : Path) (ino : Nat)
    (data : List UInt8) : Prop where
  fresh : initial.next ≤ ino
  opened : ino < fs.next
  content : (fs.inodes ino).data = data
  unseen : ∀ name, fs.tree name = some (.file ino) →
    name = path ∧ (fs.inodes ino).attributes.mode = 0

/-- A file that is complete under each of its names. -/
def CompleteFile (complete : Path → List UInt8 → Prop) (fs : FileSystem)
    (ino : Nat) : Prop :=
  ∀ path, fs.tree path = some (.file ino) →
    complete path (fs.inodes ino).data

section

variable {complete : Path → List UInt8 → Prop} {initial fs fs' : FileSystem}
  {path dir : Path} {name : Name} {ino : Nat} {data : List UInt8}
  {now : Timespec}

theorem hides_initial : Hides complete initial initial := by
  intro path ino hpath hfresh
  have hallocated := initial.allocated path ino hpath
  omega

theorem Hides.added {node : Node} (h : Hides complete initial fs)
    (hadded : Added fs dir name node now fs')
    (hnode : ∀ ino, node = .file ino →
      (fs.inodes ino).attributes.mode = 0 ∨
        complete (dir ++ [name]) (fs.inodes ino).data) :
    Hides complete initial fs' := by
  intro path ino hpath hfresh
  rw [hadded.inodes]
  rcases hadded.entry_cases (fun _ h => by cases h) hpath with
    hold | ⟨rfl, hfile⟩
  · exact h path ino hold hfresh
  · exact hnode ino hfile

theorem Hides.alloc (h : Hides complete initial fs) (inode : Inode) :
    Hides complete initial (fs.alloc inode) := by
  intro path ino hpath hfresh
  have hne : ino ≠ fs.next := Nat.ne_of_lt (fs.allocated path ino hpath)
  rw [FileSystem.alloc]
  simp only
  rw [Function.update_of_ne hne]
  exact h path ino hpath hfresh

theorem Hides.setInode {f : Inode → Inode} (h : Hides complete initial fs)
    (hino : ∀ path, fs.tree path = some (.file ino) →
      (f (fs.inodes ino)).attributes.mode = 0 ∨
        complete path (f (fs.inodes ino)).data) :
    Hides complete initial (fs.setInode ino f) := by
  intro path other hpath hfresh
  rw [FileSystem.setInode]
  simp only
  by_cases heq : other = ino
  · subst heq
    rw [Function.update_self]
    exact hino path hpath
  · rw [Function.update_of_ne heq]
    exact h path other hpath hfresh

theorem Hides.setAttributes (h : Hides complete initial fs) (dir : Path)
    (f : Attributes → Attributes) :
    Hides complete initial (fs.setAttributes dir f) :=
  fun path ino hpath hfresh => h path ino (setAttributes_file hpath) hfresh

/-! A file on its way. -/

theorem PendingFile.alloc (hnext : initial.next ≤ fs.next) (inode : Inode) :
    PendingFile initial (fs.alloc inode) path fs.next inode.data where
  fresh := hnext
  opened := Nat.lt_succ_self _
  content := by
    rw [FileSystem.alloc]
    simp only
    rw [Function.update_self]
  unseen name hname := absurd (fs.allocated name fs.next hname)
    (Nat.lt_irrefl _)

/-- A name for a file that has no permissions. -/
theorem PendingFile.added
    (h : PendingFile initial fs (dir ++ [name]) ino data)
    (hmode : (fs.inodes ino).attributes.mode = 0)
    (hadded : Added fs dir name (.file ino) now fs') :
    PendingFile initial fs' (dir ++ [name]) ino data where
  fresh := h.fresh
  opened := hadded.next ▸ h.opened
  content := hadded.inodes ▸ h.content
  unseen other hother := by
    rw [hadded.inodes]
    rcases hadded.entry_cases (fun _ h => by cases h) hother with
      hold | ⟨rfl, _⟩
    · exact h.unseen other hold
    · exact ⟨rfl, hmode⟩

/-- More content. -/
theorem PendingFile.append (h : PendingFile initial fs path ino data)
    (part : List UInt8) (now : Timespec) :
    PendingFile initial (fs.append ino part now) path ino (data ++ part) where
  fresh := h.fresh
  opened := h.opened
  content := by
    rw [FileSystem.append, FileSystem.setInode]
    simp only
    rw [Function.update_self, h.content]
  unseen name hname := by
    rw [FileSystem.append, FileSystem.setInode]
    simp only
    rw [Function.update_self]
    exact h.unseen name hname

theorem PendingFile.hides_append (h : PendingFile initial fs path ino data)
    (hhides : Hides complete initial fs) (part : List UInt8)
    (now : Timespec) : Hides complete initial (fs.append ino part now) :=
  hhides.setInode fun name hname => Or.inl (h.unseen name hname).2

/-- A name for a file that is complete. -/
theorem PendingFile.completes
    (h : PendingFile initial fs (dir ++ [name]) ino data)
    (hcomplete : complete (dir ++ [name]) data)
    (hadded : Added fs dir name (.file ino) now fs') :
    CompleteFile complete fs' ino := by
  intro other hother
  rw [hadded.inodes, h.content]
  rcases hadded.entry_cases (fun _ h => by cases h) hother with
    hold | ⟨rfl, _⟩
  · rw [(h.unseen other hold).1]
    exact hcomplete
  · exact hcomplete

theorem PendingFile.filled (h : PendingFile initial fs path ino data)
    (hcomplete : complete path data) : CompleteFile complete fs ino := by
  intro name hname
  rw [(h.unseen name hname).1, h.content]
  exact hcomplete

/-- Other attributes for a file that is complete. -/
theorem CompleteFile.change (h : CompleteFile complete fs ino)
    (f : Attributes → Attributes) :
    CompleteFile complete (fs.change (.file ino) f) ino := by
  intro path hpath
  rw [FileSystem.change, FileSystem.setInode]
  simp only
  rw [Function.update_self]
  exact h path hpath

theorem CompleteFile.hides_change (h : CompleteFile complete fs ino)
    (hhides : Hides complete initial fs) (f : Attributes → Attributes) :
    Hides complete initial (fs.change (.file ino) f) := by
  rw [FileSystem.change]
  exact hhides.setInode fun path hpath => Or.inr (h path hpath)

end

/-! Runs. -/

/-- In every state so far, what may be seen is complete. -/
structure Hiding (complete : Path → List UInt8 → Prop) (cwd : Path)
    (initial : FileSystem) (u : Unpacker) : Prop where
  current : u.cwd = cwd
  history : History initial u.mutations u.fs
  states : ∀ m ∈ u.mutations, Hides complete initial m.after
  hides : Hides complete initial u.fs
  next : initial.next ≤ u.fs.next

/-- A file is being written. -/
structure Pending (complete : Path → List UInt8 → Prop) (cwd : Path)
    (initial : FileSystem) (path : Path) (ino : Nat) (data : List UInt8)
    (u : Unpacker) : Prop extends Hiding complete cwd initial u where
  file : PendingFile initial u.fs path ino data

/-- A file is complete. -/
structure Filled (complete : Path → List UInt8 → Prop) (cwd : Path)
    (initial : FileSystem) (ino : Nat) (u : Unpacker) : Prop
    extends Hiding complete cwd initial u where
  file : CompleteFile complete u.fs ino

section

variable {complete : Path → List UInt8 → Prop} {cwd : Path}
  {initial : FileSystem} {path dir : Path} {name : Name} {ino : Nat}
  {data : List UInt8} {E : Exit → World Unpacker → Prop}

theorem Hiding.record {u : Unpacker} (h : Hiding complete cwd initial u)
    {fs : FileSystem} (effect : Effect)
    (hhides : Hides complete initial fs) (hnext : u.fs.next ≤ fs.next) :
    Hiding complete cwd initial (u.record effect fs) where
  current := h.current
  history := h.history.snoc rfl
  states m hm := by
    rcases List.mem_append.mp hm with hold | hnew
    · exact h.states m hold
    · rw [List.mem_singleton.mp hnew]
      exact hhides
  hides := hhides
  next := Nat.le_trans h.next hnext

theorem createFile_pending :
    Triple (OnStatics (Hiding complete cwd initial)) (createFile dir name)
      (OnResult (Hiding complete cwd initial) fun ino =>
        Pending complete cwd initial (dir ++ [name]) ino []) E := by
  refine perform_triple fun u outcome ino effect fs hu hcall => ?_
  obtain ⟨fs', hcreate, heq⟩ := map_eq_ok.mp hcall
  simp only [Prod.mk.injEq] at heq
  obtain ⟨rfl, rfl, rfl⟩ := heq
  have hadded := add_ok hcreate
  have hnew : ((u.fs.alloc ⟨⟨0, outcome.now, outcome.now⟩, []⟩).inodes
      u.fs.next).attributes.mode = 0 := by
    rw [FileSystem.alloc]
    simp only
    rw [Function.update_self]
  have hpending : PendingFile initial
      (u.fs.alloc ⟨⟨0, outcome.now, outcome.now⟩, []⟩) (dir ++ [name])
        u.fs.next [] := .alloc hu.next _
  refine ⟨hu.record _ ?_ ?_, hpending.added hnew hadded⟩
  · refine (hu.hides.alloc _).added hadded fun ino hino => Or.inl ?_
    rw [← Node.file.inj hino]
    exact hnew
  · rw [hadded.next]
    exact Nat.le_succ _

theorem openTmpfile_pending (path : Path) :
    Triple (OnStatics (Hiding complete cwd initial)) (openTmpfile dir)
      (OnResult (Hiding complete cwd initial) fun ino =>
        Pending complete cwd initial path ino []) E := by
  refine perform_triple fun u outcome ino effect fs hu hcall => ?_
  obtain ⟨fs', htmpfile, heq⟩ := map_eq_ok.mp hcall
  simp only [Prod.mk.injEq] at heq
  obtain ⟨rfl, rfl, rfl⟩ := heq
  rw [tmpfileAt] at htmpfile
  split at htmpfile
  · rw [Except.ok.injEq] at htmpfile
    subst htmpfile
    exact ⟨hu.record _ (hu.hides.alloc _) (Nat.le_succ _),
      .alloc hu.next ⟨⟨0o700, outcome.now, outcome.now⟩, []⟩⟩
  · cases htmpfile

theorem linkFile_filled (hcomplete : complete (dir ++ [name]) data) :
    Triple (OnStatics (Pending complete cwd initial (dir ++ [name]) ino data))
      (linkFile ino dir name)
      (OnResult (Hiding complete cwd initial) fun _ =>
        Filled complete cwd initial ino) E := by
  refine (perform_triple (P := Pending complete cwd initial (dir ++ [name])
    ino data) (Q := fun _ => Filled complete cwd initial ino)
      fun u outcome _ effect fs hu hcall => ?_).post_mono fun result w h => ?_
  · obtain ⟨fs', hlink, heq⟩ := map_eq_ok.mp hcall
    simp only [Prod.mk.injEq, true_and] at heq
    obtain ⟨rfl, rfl⟩ := heq
    have hadded := add_ok hlink
    refine ⟨hu.record _ ?_ (Nat.le_of_eq hadded.next.symm),
      hu.file.completes hcomplete hadded⟩
    refine hu.hides.added hadded fun other hother => Or.inr ?_
    rw [← Node.file.inj hother, hu.file.content]
    exact hcomplete
  · cases result with
    | none => exact h.toHiding
    | some _ => exact h

theorem writeFile_pending {part put : List UInt8} : Triple (OnStatics (Pending complete cwd initial path ino put))
      (writeFile ino part)
      (PartPut (fun put => OnStatics (Pending complete cwd initial path ino
        put)) (OnStatics (Hiding complete cwd initial)) put part) E := by
  refine (perform_triple (P := Pending complete cwd initial path ino put)
    (Q := fun count => Pending complete cwd initial path ino
      (put ++ part.take count))
        fun u outcome count effect fs hu hcall => ?_).post_mono
          fun result w h => ?_
  · simp only [Except.ok.injEq, Prod.mk.injEq] at hcall
    obtain ⟨rfl, rfl, rfl⟩ := hcall
    refine ⟨hu.record _ (hu.file.hides_append hu.hides _ _) (Nat.le_refl _),
      ?_⟩
    rw [List.length_take, ← List.take_eq_take_min]
    exact hu.file.append _ _
  · cases result with
    | none => exact h.toHiding
    | some count => exact ⟨fun _ => h.toHiding, fun _ => h⟩

theorem changeFile_filled {effect : Effect} (f : Attributes → Attributes)
    {call : FileSystem → Outcome → Except Errno (Unit × Effect × FileSystem)}
    (hcall : ∀ fs outcome, call fs outcome =
      .ok ((), effect, fs.change (.file ino) f)) :
    Triple (OnStatics (Filled complete cwd initial ino)) (perform call)
      (fun _ => OnStatics (Filled complete cwd initial ino)) E := by
  refine (perform_triple (P := Filled complete cwd initial ino)
    (Q := fun _ => Filled complete cwd initial ino)
      fun u outcome _ effect' fs hu hresult => ?_).post_mono
        fun _ _ h => h.same
  rw [hcall, Except.ok.injEq, Prod.mk.injEq, Prod.mk.injEq] at hresult
  obtain ⟨_, rfl, rfl⟩ := hresult
  exact ⟨hu.record _ (hu.file.hides_change hu.hides f) (Nat.le_refl _),
    hu.file.change f⟩

theorem changeDir_hiding {effect : Effect} (f : Attributes → Attributes)
    {call : FileSystem → Outcome → Except Errno (Unit × Effect × FileSystem)}
    (hcall : ∀ fs outcome, call fs outcome =
      .ok ((), effect, fs.change (.dir path) f)) :
    Triple (OnStatics (Hiding complete cwd initial)) (perform call)
      (fun _ => OnStatics (Hiding complete cwd initial)) E := by
  refine (perform_triple (P := Hiding complete cwd initial)
    (Q := fun _ => Hiding complete cwd initial)
      fun u outcome _ effect' fs hu hresult => ?_).post_mono
        fun _ _ h => h.same
  rw [hcall, Except.ok.injEq, Prod.mk.injEq, Prod.mk.injEq] at hresult
  obtain ⟨_, rfl, rfl⟩ := hresult
  exact hu.record _ (hu.hides.setAttributes path f) (Nat.le_refl _)

/-- An object that is not a file. -/
theorem addObject_hiding (dir : Path) (name : Name)
    {call : FileSystem → Outcome → Except Errno (Unit × Effect × FileSystem)}
    (hcall : ∀ fs outcome result, call fs outcome = .ok result →
      ∃ node, (∀ ino, node ≠ .file ino) ∧
        fs.add dir name node outcome.now = .ok result.2.2) :
    Triple (OnStatics (Hiding complete cwd initial)) (perform call)
      (fun _ => OnStatics (Hiding complete cwd initial)) E := by
  refine (perform_triple (P := Hiding complete cwd initial)
    (Q := fun _ => Hiding complete cwd initial)
      fun u outcome _ effect' fs hu hresult => ?_).post_mono
        fun _ _ h => h.same
  obtain ⟨node, hnode, hadd⟩ := hcall _ _ _ hresult
  have hadded := add_ok hadd
  exact hu.record _ (hu.hides.added hadded fun ino h => absurd h (hnode ino))
    (Nat.le_of_eq hadded.next.symm)

theorem makeDir_hiding :
    Triple (OnStatics (Hiding complete cwd initial)) (makeDir dir name)
      (fun _ => OnStatics (Hiding complete cwd initial)) E := by
  refine addObject_hiding dir name fun fs outcome result hresult => ?_
  obtain ⟨fs', hmkdir, rfl⟩ := map_eq_ok.mp hresult
  exact ⟨.dir ⟨0o700, outcome.now, outcome.now⟩,
    (fun _ h => by cases h), hmkdir⟩

theorem makeLink_hiding (target : CString) :
    Triple (OnStatics (Hiding complete cwd initial))
      (makeLink target dir name)
      (fun _ => OnStatics (Hiding complete cwd initial)) E := by
  refine addObject_hiding dir name fun fs outcome result hresult => ?_
  obtain ⟨fs', hsymlink, rfl⟩ := map_eq_ok.mp hresult
  exact ⟨.link target.bytes, (fun _ h => by cases h),
    (symlinkAt_ok hsymlink).2⟩

/-- What the changes of attributes preserve, the whole of them preserves. -/
theorem fixTimesAndPerms_preserves {P : Unpacker → Prop} {object : Object}
    (hchange : ∀ (f : Attributes → Attributes) (effect : Effect)
      (call : FileSystem → Outcome →
        Except Errno (Unit × Effect × FileSystem)),
      (∀ fs outcome, call fs outcome =
        .ok ((), effect, fs.change object f)) →
      Triple (OnStatics P) (perform call) (fun _ => OnStatics P)
        fun _ => OnStatics P) (hdr : FileHeader) (name : CString) :
    Preserves (OnStatics P) (fixTimesAndPerms object hdr name) := by
  refine (validateUtimeNsec_statics _).bind fun _ => ?_
  refine (validateUtimeNsec_statics _).bind fun _ => ?_
  have hmode : Preserves (OnStatics P) (setMode object hdr) :=
    .ite (.ret _) (hchange _ _ _ fun _ _ => rfl)
  refine hmode.bind fun result => ?_
  cases result with
  | none => exact doExitErrno_triple _
  | some _ =>
      have htimes : ∀ atime mtime,
          Preserves (OnStatics P) (futimens object atime mtime) :=
        fun _ _ => hchange _ _ _ fun _ _ => rfl
      refine (htimes _ _).bind fun result => ?_
      cases result with
      | none => exact doExitErrno_triple _
      | some _ => exact .ret _

/-! Parts of the handlers. -/

/-- The condition in which the process exits. -/
def Withheld (complete : Path → List UInt8 → Prop) (cwd : Path)
    (initial : FileSystem) (_ : Exit) : World Unpacker → Prop :=
  OnStatics (Hiding complete cwd initial)

theorem tryTmpfile_pending (path : Path) (last : CString) :
    Triple (OnStatics (Hiding complete cwd initial)) (tryTmpfile dir last)
      (OnResult (Hiding complete cwd initial) fun ino =>
        Pending complete cwd initial path ino [])
      (Withheld complete cwd initial) := by
  refine .get_bind fun w hw => .ite (fun _ => ?_) fun _ => ?_
  · refine ((openTmpfile_pending path).from_state hw).bind fun result => ?_
    cases result with
    | some ino => exact .ret fun _ h => h
    | none =>
        refine .get_bind fun w' hw' => .ite (fun _ => ?_) fun _ => ?_
        · have hset : Triple (· = w') (setUseTmpfile false)
              (fun _ => OnStatics (Hiding complete cwd initial))
              (Withheld complete cwd initial) := by
            refine .modify fun _ h => h ▸ ?_
            exact ⟨hw'.current, hw'.history, hw'.states, hw'.hides, hw'.next⟩
          exact hset.bind fun _ => .ret fun _ h => h
        · exact (doExitErrno_triple _).from_state hw'
  · exact .ret fun _ h => h ▸ hw

theorem openOutput_pending (last : CString) :
    Triple (OnStatics (Hiding complete cwd initial))
      (openOutput dir name last)
      (fun ino => OnStatics (Pending complete cwd initial (dir ++ [name])
        ino [])) (Withheld complete cwd initial) := by
  refine (tryTmpfile_pending (dir ++ [name]) last).bind fun result => ?_
  cases result with
  | some ino => exact .ret fun _ h => h
  | none =>
      refine createFile_pending.bind fun result => ?_
      cases result with
      | some ino => exact .ret fun _ h => h
      | none => exact doExitErrno_triple _

theorem nameOutput_filled (hcomplete : complete (dir ++ [name]) data) :
    Triple (OnStatics (Pending complete cwd initial (dir ++ [name]) ino data))
      (nameOutput ino dir name)
      (OnResult (Hiding complete cwd initial) fun _ =>
        Filled complete cwd initial ino) E := by
  refine .get_bind fun w hw => .ite (fun _ => ?_) fun _ => ?_
  · exact (linkFile_filled hcomplete).from_state hw
  · refine .ret fun _ h => h ▸ ?_
    exact ⟨hw.toHiding, hw.file.filled hcomplete⟩

end

/-! Reading and writing. -/

section

variable {complete : Path → List UInt8 → Prop} {cwd : Path}
  {initial : FileSystem} {path dir : Path} {name : Name} {ino : Nat}
  {input consumed : List UInt8} {done : List (FileHeader × List UInt8)}
  {P S : Unpacker → Prop}

/-- A program that reads nothing, with what it does to the static
variables. -/
theorem Quiet.with_statics {α : Type} {program : Unpack α}
    (h : Quiet program) {Q : α → Unpacker → Prop}
    (hstatics : Triple (OnStatics P) program (fun a => OnStatics (Q a))
      fun _ => OnStatics S) :
    Triple (fun w => OnStream (Reading input consumed consumed done) w ∧
        OnStatics P w) program
      (fun a w => OnStream (Reading input consumed consumed done) w ∧
        OnStatics (Q a) w) fun _ => OnStatics S :=
  ((h input consumed done).and hstatics).mono (fun _ h => h)
    (fun _ _ h => h) fun _ _ h => h.2

/-- The copy of a payload into a file. -/
def Copying (complete : Path → List UInt8 → Prop) (cwd : Path)
    (initial : FileSystem) (path : Path) (ino : Nat)
    (input consumed : List UInt8) (done : List (FileHeader × List UInt8))
    (got summed put : List UInt8) (w : World Unpacker) : Prop :=
  OnStream (Reading input (consumed ++ got) (consumed ++ summed) done) w ∧
    OnStatics (Pending complete cwd initial path ino put) w

theorem writeFile_copying {got put data : List UInt8} :
    Triple (Copying complete cwd initial path ino input consumed done
        got got put) (writeFile ino data)
      (PartPut (Copying complete cwd initial path ino input consumed done
        got got) (OnStatics (Hiding complete cwd initial)) put data)
      (Withheld complete cwd initial) := by
  refine ((perform_stream _).together writeFile_pending).post_mono
    fun result w h => ?_
  cases result with
  | none => exact h.2
  | some count => exact ⟨h.2.1, fun hcount => ⟨h.1.1, h.2.2 hcount⟩⟩

theorem copyFile_copying (size : Nat) :
    Triple (Copying complete cwd initial path ino input consumed done
        [] [] [])
      (copyFile read (writeFile ino) size)
      (CopyDone (Copying complete cwd initial path ino input consumed done)
        (fun _ => OnStatics (Hiding complete cwd initial)) [] size)
      (Withheld complete cwd initial) := by
  refine copyFileLoop_rule (fun got count hcount _ => ?_)
    (fun got bytes => ?_) (fun got put => ?_)
    (fun _ _ _ _ => writeFile_copying) size size []
    (Nat.le_refl _) (Nat.zero_add _)
  · refine ((read_reading hcount).together (read_stable count)).mono
      (fun _ h => h) (fun result w h => ?_) fun _ _ h => h.toHiding
    cases result with
    | data bytes =>
        obtain ⟨⟨hpos, hle, hreading⟩, hpending⟩ := h
        rw [List.append_assoc] at hreading
        exact ⟨hpos, hle, hreading, hpending⟩
    | eof => exact h.2.toHiding
    | error => exact h.2.toHiding
  · refine ((addCrc_reading bytes).together (addCrc_stable bytes)).post_mono
      fun _ w h => ?_
    rw [List.append_assoc] at h
    exact h
  · exact retryInterrupted_stream.together retryInterrupted_stable

variable (limits : Limits)

theorem checkQuota_statics (filelen : UInt64) (last : CString) :
    Preserves (OnStatics P) (checkQuota limits filelen last) :=
  .get_bind fun _ => .ite (doExit_triple _ _)
    (.ite (doExit_triple _ _) (.ret _))

theorem fillOutput_pending (hdr : FileHeader) (last : CString) :
    Triple (fun w => OnStream (Reading input consumed consumed done) w ∧
        OnStatics (Pending complete cwd initial path ino []) w)
      (fillOutput limits ino hdr last)
      (fun _ w => ∃ payload : List UInt8,
        payload.length = hdr.filelen.toNat ∧
        OnStream (Reading input (consumed ++ payload) (consumed ++ payload)
          done) w ∧
        OnStatics (Pending complete cwd initial path ino payload) w)
      (Withheld complete cwd initial) := by
  have hexit : ∀ (e : Exit) w, OnStatics (Pending complete cwd initial path
      ino []) w → Withheld complete cwd initial e w :=
    fun _ _ h => h.toHiding
  have hadd : Preserves (OnStatics (Pending complete cwd initial path ino
      [])) (addTotalBytes hdr.filelen) := addTotalBytes_statics fun _ _ h =>
    ⟨⟨h.current, h.history, h.states, h.hides, h.next⟩, h.file⟩
  refine (((checkQuota_quiet limits _ last).with_statics
    (checkQuota_statics limits _ last)).mono (fun _ h => h)
      (fun _ _ h => h) hexit).bind fun _ => ?_
  refine (((reserveSpace_quiet limits _).with_statics
    (reserveSpace_statics limits _)).mono (fun _ h => h)
      (fun _ _ h => h) hexit).bind fun _ => ?_
  refine (((addTotalBytes_quiet _).with_statics hadd).mono (fun _ h => h)
    (fun _ _ h => h) hexit).bind fun _ => ?_
  have hcopy := @copyFile_copying complete cwd initial path ino input consumed
    done hdr.filelen.toNat
  refine (hcopy.pre_mono fun w h => ?_).bind fun status => ?_
  · rw [Copying, List.append_nil]
    exact h
  cases status with
  | ok => exact .ret fun _ h => h
  | readEof => exact doExit_triple _ _
  | readError => exact doExit_triple _ _
  | writeError => exact doExitErrno_triple _

/-! Handlers. -/

section

variable {flags : Flags} {hdr : FileHeader} {last : CString}

/-- The place that a name denotes. -/
theorem opendirSafe_place (hnormal : ∀ component ∈ components last.bytes,
      Normal component) (u : Unpacker) :
    Triple (OnStatics (· = u)) (opendirSafe u.cwd (components last.bytes))
      (fun place => OnStatics fun u' => u' = u ∧
        place.1 ++ [place.2] = u.cwd ++ components last.bytes)
      fun _ => OnStatics (· = u) := by
  have hopen := opendirSafe_triple u u.cwd _ [] hnormal
  rw [List.append_nil] at hopen
  refine hopen.post_mono fun place w h => ?_
  obtain ⟨hstatics, directories, hpieces, hplace, _⟩ := h
  refine ⟨hstatics, ?_⟩
  rw [hplace, List.append_assoc, ← hpieces]
  rfl

/-- A file that is completed is complete, if that is what a payload from the
input makes it. -/
theorem completeFile_filled {flags : Flags}
    (hcomplete : ∀ payload : List UInt8,
      payload.length = hdr.filelen.toNat → consumed ++ payload <+: input →
        complete (cwd ++ components last.bytes) payload) :
    Triple (fun w => OnStream (Reading input consumed consumed done) w ∧
        OnStatics (Hiding complete cwd initial) w)
      (completeFile limits hdr last (validateFlags flags))
      (fun ino => OnStatics (Filled complete cwd initial ino))
      (Withheld complete cwd initial) := by
  refine (liftFault_reading (qubesPureValidateFileNameV2_total _)).bind
    fun ret => ?_
  refine Triple.assume (fun _ h => h.1) fun hret => ?_
  refine Triple.pre_mono ?_ fun _ h => h.2
  refine .ite (fun hne => ?_) fun hzero => ?_
  · exact (doExit_triple _ _).pre_mono fun _ h => h.2
  rw [not_not.mp hzero] at hret
  have hnormal := normal_of_fileName hret
  refine ((strdup_quiet last).with_statics (strdup_statics last)).bind
    fun _ => ?_
  refine .get_bind fun w hw => ?_
  refine (((opendirSafe_quiet (components_ne_nil _) hnormal
    _).with_statics (opendirSafe_place hnormal w.statics)).from_state
      ⟨hw.1, rfl⟩ |>.mono (fun _ h => h) (fun _ _ h => h)
        fun _ w' h => OnStatics.congr h hw.2).bind fun place => ?_
  obtain ⟨dir, segment⟩ := place
  refine Triple.assume (fun _ h => h.2.2) fun hplace => ?_
  have hpath : dir ++ [segment] = cwd ++ components last.bytes :=
    hw.2.current ▸ hplace
  refine Triple.pre_mono ?_ fun w' h =>
    (⟨h.1, OnStatics.congr h.2.1 hw.2⟩ : _ ∧ _)
  refine ((openOutput_quiet dir segment last).with_statics
    (openOutput_pending last)).bind fun ino => ?_
  refine (fillOutput_pending limits hdr last).bind fun _ => ?_
  refine Triple.exists_pre fun payload => ?_
  refine Triple.assume (fun w' h => (⟨h.1, w'.stdin, h.2.1.rest⟩ :
    payload.length = hdr.filelen.toNat ∧ consumed ++ payload <+: input))
      fun hpayload => ?_
  have hdone := hcomplete payload hpayload.1 hpayload.2
  rw [← hpath] at hdone
  refine ((nameOutput_filled hdone).pre_mono fun _ h => h.2.2).bind
    fun result => ?_
  cases result with
  | none => exact doExitErrno_triple _
  | some _ => exact .ret fun _ h => h

theorem processOneFileReg_hiding {flags : Flags}
    (hcomplete : ∀ payload : List UInt8,
      payload.length = hdr.filelen.toNat → consumed ++ payload <+: input →
        complete (cwd ++ components last.bytes) payload) :
    Triple (fun w => OnStream (Reading input consumed consumed done) w ∧
        OnStatics (Hiding complete cwd initial) w)
      (processOneFileReg limits hdr last (validateFlags flags))
      (fun _ => OnStatics (Hiding complete cwd initial))
      (Withheld complete cwd initial) := by
  rw [processOneFileReg_eq]
  refine (completeFile_filled limits hcomplete).bind fun ino => ?_
  refine (fixTimesAndPerms_preserves (fun f effect call hcall =>
    changeFile_filled f hcall) hdr last).mono (fun _ h => h)
      (fun _ w h => ?_) fun _ w h => ?_
  · exact h.toHiding
  · exact h.toHiding

theorem openDir_statics (dir : Path) (segment : Name) :
    Preserves (OnStatics P) (openDir dir segment) := by
  refine Preserves.bind attempt_stable fun outcome => ?_
  cases outcome with
  | none => exact .ret _
  | some outcome =>
      refine .get_bind fun w => ?_
      cases w.statics.fs.openDirAt dir segment with
      | error errno =>
          exact Preserves.bind (setErrno_stable _) fun _ => .ret _
      | ok path => exact .ret _

theorem opendirSafe_statics (pieces : List Name) :
    ∀ dir : Path, Preserves (OnStatics P) (opendirSafe dir pieces) := by
  induction pieces with
  | nil => exact fun _ => .throw _
  | cons segment rest ih =>
      intro dir
      cases rest with
      | nil => exact .ret _
      | cons second rest =>
          rw [opendirSafe_cons]
          refine .ite (.throw _) ((openDir_statics dir segment).bind
            fun result => ?_)
          cases result with
          | none => exact doExitErrno_triple _
          | some path => exact ih path

theorem addTotalBytes_hiding (count : UInt64) :
    Preserves (OnStatics (Hiding complete cwd initial))
      (addTotalBytes count) :=
  addTotalBytes_statics fun _ _ h =>
    ⟨h.current, h.history, h.states, h.hides, h.next⟩

theorem processOneFileDir_hiding (flags : Flags) :
    Preserves (OnStatics (Hiding complete cwd initial))
      (processOneFileDir limits hdr last flags) := by
  refine (liftFault_preserves _).bind fun rc => .ite (doExit_triple _ _) ?_
  refine (strdup_statics last).bind fun _ => .get_bind fun w => ?_
  refine (opendirSafe_statics _ _).bind fun place => ?_
  refine Preserves.bind makeDir_hiding fun made => ?_
  cases made with
  | some _ => exact .ret _
  | none =>
      refine .get_bind fun w => .ite (doExitErrno_triple _) ?_
      refine (openDir_statics _ _).bind fun opened => ?_
      cases opened with
      | none => exact doExitErrno_triple _
      | some path =>
          refine Preserves.bind attempt_stable fun stat => ?_
          cases stat with
          | none => exact doExitErrno_triple _
          | some stat =>
              exact (addTotalBytes_hiding _).bind fun _ =>
                fixTimesAndPerms_preserves (fun f effect call hcall =>
                  changeDir_hiding f hcall) hdr last

theorem processOneFileLink_hiding (flags : Flags) :
    Preserves (OnStatics (Hiding complete cwd initial))
      (processOneFileLink limits hdr last flags) := by
  refine .ite (doExit_triple _ _) ?_
  refine (addTotalBytes_hiding _).bind fun _ => ?_
  refine .get_bind fun w => .ite (doExit_triple _ _) ?_
  refine (readAllWithCrc_stable _).bind fun result => ?_
  cases result with
  | none => exact doExit_triple _ _
  | some bytes =>
      refine (liftFault_preserves _).bind fun rc =>
        .ite (doExit_triple _ _) ?_
      refine (strdup_statics last).bind fun _ => .get_bind fun w => ?_
      refine (opendirSafe_statics _ _).bind fun place => ?_
      refine Preserves.bind (makeLink_hiding _) fun made => ?_
      cases made with
      | none => exact doExitErrno_triple _
      | some _ => exact .ret _

theorem handleEntry_hiding {flags : Flags} {name : List UInt8}
    (hcomplete : sIsReg hdr.mode = true → ∀ payload : List UInt8,
      payload.length = hdr.filelen.toNat → consumed ++ payload <+: input →
        complete (cwd ++ components (CString.ofBuffer name).bytes)
          payload) :
    Triple (fun w => OnStream (Reading input consumed consumed done) w ∧
        OnStatics (Hiding complete cwd initial) w)
      (handleEntry limits flags hdr name)
      (fun _ => OnStatics (Hiding complete cwd initial))
      (Withheld complete cwd initial) := by
  have hlink := @processOneFileLink_hiding complete cwd initial limits hdr
    (CString.ofBuffer name) (validateFlags flags)
  have hdir := @processOneFileDir_hiding complete cwd initial limits hdr
    (CString.ofBuffer name) (validateFlags flags)
  have htype : Triple (fun w => OnStream (Reading input consumed consumed
      done) w ∧ OnStatics (Hiding complete cwd initial) w)
      (processByType limits hdr (CString.ofBuffer name) flags)
      (fun _ => OnStatics (Hiding complete cwd initial))
      (Withheld complete cwd initial) := by
    refine .ite (fun hreg => ?_) fun _ => .ite (fun _ => ?_) fun _ =>
      .ite (fun _ => ?_) fun _ => ?_
    · exact processOneFileReg_hiding limits (hcomplete hreg)
    · exact hlink.pre_mono fun _ h => h.2
    · exact hdir.pre_mono fun _ h => h.2
    · exact (doExit_triple _ _).pre_mono fun _ h => h.2
  exact htype.bind fun _ => emit_stable _

/-! Runs. -/

/-- The first part of a pass changes a counter and the record of the name. -/
theorem startPass_statics (hcount : ∀ u n, P u → P { u with totalFiles := n })
    (hbegin : ∀ u name, P u →
      P { u with untrustedNamebuf := name, start := u.fs }) :
    Preserves (OnStatics P) (startPass limits) := by
  refine (readAllWithCrc_stable _).bind fun result => ?_
  cases result with
  | none => exact .ret _
  | some bytes =>
      refine .ite (Preserves.bind (setErrno_stable _) fun _ => .ret _) ?_
      have hadd : Preserves (OnStatics P) countFile :=
        .modify fun _ h => hcount _ _ h
      refine hadd.bind fun _ => .get_bind fun w =>
        .ite (doExit_triple _ _) (.ite (doExit_triple _ _) ?_)
      refine (readAllWithCrc_stable _).bind fun result => ?_
      cases result with
      | none => exact doExit_triple _ _
      | some name =>
          have hset : Preserves (OnStatics P)
              (beginEntry (CString.ofBuffer name)) :=
            .modify fun _ h => hbegin _ _ h
          exact hset.bind fun _ => .ret _

theorem startPass_hiding :
    Preserves (OnStatics (Hiding complete cwd initial))
      (startPass limits) :=
  startPass_statics limits
    (fun _ _ h => ⟨h.current, h.history, h.states, h.hides, h.next⟩)
    fun _ _ h => ⟨h.current, h.history, h.states, h.hides, h.next⟩

end

/-- The data is the payload of an entry of the input, which has the path as
its name. -/
def Delivered (input : List UInt8) (cwd path : Path) (data : List UInt8) :
    Prop :=
  ∃ entries entry, frames (entries ++ [entry]) <+: input ∧
    sIsReg entry.header.mode = true ∧
    path = cwd ++ components (CString.ofBuffer entry.name).bytes ∧
    data = entry.payload

theorem unpackLoop_hiding (flags : Flags) (fuel : Nat) :
    ∀ entries : List Entry,
      Triple (fun w => OnStream (Reading input (frames entries)
          (frames entries) (entries.map Entry.key)) w ∧
          OnStatics (Hiding (Delivered input cwd) cwd initial) w)
        (unpackLoop limits flags fuel)
        (fun _ => OnStatics (Hiding (Delivered input cwd) cwd initial))
        (Withheld (Delivered input cwd) cwd initial) := by
  induction fuel with
  | zero => exact fun entries => .throw fun w h => h.2
  | succ fuel ih =>
      intro entries
      rw [unpackLoop_succ]
      refine (((startPass_reading limits).and (startPass_hiding
        limits)).mono (fun _ h => h) (fun _ _ h => h)
          fun _ _ h => h.2).bind fun start => ?_
      cases start with
      | ended seen => exact .ret fun _ h => h.2
      | entry hdr name =>
          refine Triple.assume (fun _ h => (⟨h.1.1, h.1.2.1⟩ : _ ∧ _))
            fun hnamed => ?_
          refine Triple.pre_mono ?_ fun w h => (⟨h.1.2.2, h.2⟩ : _ ∧ _)
          have hdelivered : sIsReg hdr.mode = true →
              ∀ payload : List UInt8, payload.length = hdr.filelen.toNat →
                frames entries ++ (fileHeaderCodec.put hdr ++ name) ++
                  payload <+: input →
                Delivered input cwd
                  (cwd ++ components (CString.ofBuffer name).bytes)
                  payload := by
            intro hreg payload hlength hprefix
            have hpayload : payload.length = hdr.payloadLength := by
              rw [hlength, FileHeader.payloadLength, if_pos (Or.inl hreg)]
            rw [frames_entry entries hnamed.1 hnamed.2 hpayload] at hprefix
            exact ⟨entries, _, hprefix, hreg, rfl, rfl⟩
          refine (((handleEntry_reading limits flags hdr name).and
            (handleEntry_hiding limits hdelivered)).mono
              (fun _ h => (⟨h.1, h⟩ : _ ∧ _)) (fun _ _ h => h)
                fun _ _ h => h.2).bind fun _ => ?_
          intro w hw
          obtain ⟨⟨payload, hpayload, hreading⟩, hhiding⟩ := hw
          rw [frames_entry entries hnamed.1 hnamed.2 hpayload,
            keys_entry entries hnamed.1 hnamed.2 hpayload] at hreading
          exact ih _ w ⟨hreading, hhiding⟩

end

theorem finishUnpack_statics {P : Unpacker → Prop} (seen : Bool) :
    Preserves (OnStatics P) (finishUnpack seen) :=
  .get_bind fun _ => Preserves.bind (setErrno_stable _) fun _ =>
    (syncCwd_statics _).bind fun _ => .get_bind fun _ =>
      (sendStatusAndCrc_statics _ _).bind fun _ => .ret _

theorem doUnpackExt_hiding (limits : Limits) (flags : Flags)
    {w : World Unpacker} (htrace : w.trace = [])
    (hfresh : w.statics.mutations = []) :
    Hiding (Delivered w.stdin w.statics.cwd) w.statics.cwd w.statics.fs
      (finalState (doUnpackExt limits flags) w).statics := by
  have hstart : Hiding (Delivered w.stdin w.statics.cwd) w.statics.cwd
      w.statics.fs w.started.statics := by
    refine ⟨rfl, ?_, ?_, hides_initial, Nat.le_refl _⟩
    · change History w.statics.fs w.statics.mutations w.statics.fs
      rw [hfresh]
      exact rfl
    · change ∀ m ∈ w.statics.mutations, _
      rw [hfresh]
      exact fun m hm => by cases hm
  have hloop := @unpackLoop_hiding w.statics.cwd w.statics.fs w.stdin limits
    flags (w.stdin.length + 1) []
  have hrun := (hloop.bind fun seen => finishUnpack_statics seen).finalState
    (s := w.started) ⟨started_reading htrace, hstart⟩
  rw [finalState, ← doUnpackExt_run] at hrun
  exact hrun

/-- Partial files are never accessible: the recorded changes are all that
happens to the file system, and after each of them every file that the run has
made and named is the payload of the entry with its name, or it has no
permissions. -/
theorem doUnpackExt_partialHidden (limits : Limits) (flags : Flags)
    {w : World Unpacker} (htrace : w.trace = [])
    (hfresh : w.statics.mutations = []) :
    History w.statics.fs
        (finalState (doUnpackExt limits flags) w).statics.mutations
        (finalState (doUnpackExt limits flags) w).statics.fs ∧
      (∀ m ∈ (finalState (doUnpackExt limits flags) w).statics.mutations,
        Hides (Delivered w.stdin w.statics.cwd) w.statics.fs m.after) ∧
      Hides (Delivered w.stdin w.statics.cwd) w.statics.fs
        (finalState (doUnpackExt limits flags) w).statics.fs := by
  have h := doUnpackExt_hiding limits flags htrace hfresh
  exact ⟨h.history, h.states, h.hides⟩

/-- The file `a` with three bytes, of which the third does not arrive. -/
def truncatedStream : List UInt8 :=
  fileHeaderCodec.put ⟨2, 0x81A4, 3, 0, 0, 0, 0⟩ ++ [0x61, 0] ++ [1, 2]

theorem doUnpackExt_partialHidden_truncated :
    (finalState (doUnpackExt noLimits 0#32)
      (freshWorld truncatedStream false)).statics.mutations.length = 2 ∧
    ∀ m ∈ (finalState (doUnpackExt noLimits 0#32)
      (freshWorld truncatedStream false)).statics.mutations,
      Hides (Delivered truncatedStream []) emptyFileSystem m.after :=
  ⟨by decide +kernel, (doUnpackExt_partialHidden noLimits 0#32
    (w := freshWorld truncatedStream false) rfl rfl).2.1⟩

end QubesUtils
