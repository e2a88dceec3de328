/-
What the system calls of the receiver change: each successful call is a
justified mutation, and the record of mutations is a history of the file
system.
-/
import QubesUtils.Unpack
import QubesUtils.ProcessSpec
import QubesUtils.Kept
import QubesUtils.LinkTarget
import QubesUtils.Results

namespace QubesUtils

open Hoare Process FileSystem

/-- The object that a call works on is `name` in `dir`, or a file that was
made there since the start. -/
def Effect.Hits (effect : Effect) (start fs : FileSystem) (dir : Path)
    (name : Name) : Prop :=
  match effect with
  | .create dir' name' _ => dir' = dir ∧ name' = name
  | .tmpfile dir' _ => dir' = dir
  | .write ino => start.next ≤ ino
  | .link ino dir' name' => start.next ≤ ino ∧ dir' = dir ∧ name' = name
  | .mkdir dir' name' => dir' = dir ∧ name' = name
  | .symlink _ dir' name' => dir' = dir ∧ name' = name
  | .chmod object => object = .dir (dir ++ [name]) ∨
      ∃ ino, object = .file ino ∧ start.next ≤ ino ∧
        fs.tree (dir ++ [name]) = some (.file ino)
  | .utimes object => object = .dir (dir ++ [name]) ∨
      ∃ ino, object = .file ino ∧ start.next ≤ ino ∧
        fs.tree (dir ++ [name]) = some (.file ino)

/-- The directories are real ones all the way down from the base. -/
def Opened (fs : FileSystem) (base directories : Path) : Prop :=
  ∀ part, part <+: directories → fs.isDir (base ++ part) = true

/-- The call works on the object that the received name denotes below the
current directory, component by component; no other name is touched, and the
files and links that were there when the entry arrived are left alone. -/
structure ConfinedTo (cwd : Path) (m : Mutation) (directories : Path)
    (last : Name) : Prop where
  pieces : components m.name.bytes = directories ++ [last]
  normal : ∀ component ∈ components m.name.bytes, Normal component
  opened : Opened m.before cwd directories
  hits : m.effect.Hits m.start m.before (cwd ++ directories) last
  frame : ∀ path, path ≠ cwd ++ directories →
    path ≠ cwd ++ directories ++ [last] →
      m.after.tree path = m.before.tree path
  kept : Kept m.start m.after

def Confined (cwd : Path) (m : Mutation) : Prop :=
  ∃ directories last, ConfinedTo cwd m directories last

/-- A link that is made has been validated, and nothing else makes links. -/
structure LinksChecked (table : AllowTable) (flags : Flags) (m : Mutation) :
    Prop where
  accepted : ∀ target dir name, m.effect = .symlink target dir name →
    qubesPureValidateSymbolicLinkV2 table m.name target flags = .ok 0
  created : ∀ path target, m.after.tree path = some (.link target) →
    m.before.tree path = some (.link target) ∨
      ∃ content dir name, m.effect = .symlink content dir name ∧
        path = dir ++ [name] ∧ target = content.bytes

/-- The mutations lead from one file system to another. -/
def History (initial : FileSystem) : List Mutation → FileSystem → Prop
  | [], fs => fs = initial
  | m :: rest, fs => m.before = initial ∧ History m.after rest fs

theorem History.snoc {initial fs : FileSystem} {mutations : List Mutation}
    (h : History initial mutations fs) {m : Mutation} (hm : m.before = fs) :
    History initial (mutations ++ [m]) m.after := by
  induction mutations generalizing initial with
  | nil => exact ⟨hm.trans h, rfl⟩
  | cons first rest ih => exact ⟨h.1, ih h.2⟩

/-- The run so far. -/
structure Sound (table : AllowTable) (flags : Flags) (cwd : Path)
    (initial : FileSystem) (u : Unpacker) : Prop where
  current : u.cwd = cwd
  dir : u.fs.isDir cwd = true
  mutations : ∀ m ∈ u.mutations,
    Confined cwd m ∧ LinksChecked table flags m
  history : History initial u.mutations u.fs

/-- The directory of an entry has been opened. -/
structure Working (table : AllowTable) (flags : Flags) (cwd : Path)
    (initial : FileSystem) (name : CString) (directories : Path) (last : Name)
    (u : Unpacker) : Prop extends Sound table flags cwd initial u where
  namebuf : u.untrustedNamebuf = name
  kept : Kept u.start u.fs
  pieces : components name.bytes = directories ++ [last]
  normal : ∀ component ∈ components name.bytes, Normal component
  opened : Opened u.fs cwd directories

section

variable {table : AllowTable} {flags : Flags} {cwd : Path}
  {initial : FileSystem} {name : CString} {directories : Path} {last : Name}

/-- A justified call keeps the run sound. -/
theorem Working.record {u : Unpacker}
    (h : Working table flags cwd initial name directories last u)
    {effect : Effect} {fs : FileSystem}
    (hhits : effect.Hits u.start u.fs (cwd ++ directories) last)
    (hframe : ∀ path, path ≠ cwd ++ directories →
      path ≠ cwd ++ directories ++ [last] → fs.tree path = u.fs.tree path)
    (hkept : Kept u.start fs) (hdirs : Kept u.fs fs ∨
      fs.tree = u.fs.tree)
    (hlinks : LinksChecked table flags
      ⟨u.untrustedNamebuf, u.start, effect, u.fs, fs⟩) :
    Working table flags cwd initial name directories last
      (u.record effect fs) := by
  have hisDir : ∀ path, u.fs.isDir path = true → fs.isDir path = true := by
    intro path hpath
    rcases hdirs with hkept | htree
    · exact hkept.dirs path hpath
    · rw [isDir, htree]
      exact hpath
  have hconfined : Confined cwd
      ⟨u.untrustedNamebuf, u.start, effect, u.fs, fs⟩ :=
    ⟨directories, last, h.namebuf ▸ h.pieces, h.namebuf ▸ h.normal,
      h.opened, hhits, hframe, hkept⟩
  refine
    { current := h.current
      dir := hisDir _ h.dir
      mutations := ?_
      history := h.history.snoc rfl
      namebuf := h.namebuf
      kept := hkept
      pieces := h.pieces
      normal := h.normal
      opened := fun part hpart => hisDir _ (h.opened part hpart) }
  intro m hm
  rcases List.mem_append.mp hm with hold | hnew
  · exact h.mutations m hold
  · rw [List.mem_singleton.mp hnew]
    exact ⟨hconfined, hlinks⟩

/-- A call that makes no link. -/
theorem LinksChecked.of_noNewLinks {m : Mutation}
    (heffect : ∀ target dir name, m.effect ≠ .symlink target dir name)
    (hlinks : NoNewLinks m.before m.after) : LinksChecked table flags m :=
  ⟨fun target dir name h => absurd h (heffect target dir name),
    fun path target hpath => Or.inl (hlinks path target hpath)⟩

end

/-! Rules for the calls. -/

section

variable {P : Unpacker → Prop} {E : Exit → World Unpacker → Prop}

/-- What holds after a call that failed, or after one with a result. -/
def OnResult {α : Type} (P : Unpacker → Prop) (Q : α → Unpacker → Prop) :
    Option α → World Unpacker → Prop
  | none => OnStatics P
  | some a => OnStatics (Q a)

theorem OnResult.same {α : Type} {result : Option α} {w : World Unpacker}
    (h : OnResult P (fun _ => P) result w) : OnStatics P w := by
  cases result with
  | none => exact h
  | some a => exact h

/-- A call fails and leaves everything alone, or has its effect. -/
theorem perform_triple {α : Type} {call : FileSystem → Outcome →
    Except Errno (α × Effect × FileSystem)} {Q : α → Unpacker → Prop}
    (hcall : ∀ u outcome result effect fs, P u →
      call u.fs outcome = .ok (result, effect, fs) →
      Q result (u.record effect fs)) :
    Triple (OnStatics P) (perform call) (OnResult P Q) E := by
  refine attempt_stable.bind fun outcome => ?_
  cases outcome with
  | none => exact .ret fun _ h => h
  | some outcome =>
      refine .get_bind fun w hw => ?_
      cases hresult : call w.statics.fs outcome with
      | error errno =>
          have hset : Triple (· = w) (setErrno errno.value)
              (fun _ => OnStatics P) E := .modify fun _ h => h ▸ hw
          exact hset.bind fun _ => .ret fun _ h => h
      | ok value =>
          obtain ⟨result, effect, fs⟩ := value
          have hcommit : Triple (· = w) (commit effect fs)
              (fun _ => OnStatics (Q result)) E :=
            .modify fun _ h => h ▸ hcall _ _ _ _ _ hw hresult
          exact hcommit.bind fun _ => .ret fun _ h => h

end

/-! Calls with an effect. -/

section

variable {table : AllowTable} {flags : Flags} {cwd : Path}
  {initial : FileSystem} {name : CString} {directories : Path} {last : Name}
  {E : Exit → World Unpacker → Prop}

/-- An entry that is added under the last name. -/
theorem Working.added {u : Unpacker}
    (h : Working table flags cwd initial name directories last u)
    {effect : Effect} {fs fs' : FileSystem} {node : Node} {now : Timespec}
    (hstart : Kept u.fs fs) (htree : fs.tree = u.fs.tree)
    (hadded : Added fs (cwd ++ directories) last node now fs')
    (hhits : effect.Hits u.start u.fs (cwd ++ directories) last)
    (hlink : ∀ target, node = .link target → ∃ content,
      effect = .symlink content (cwd ++ directories) last ∧
        target = content.bytes)
    (haccepted : ∀ content dir entry, effect = .symlink content dir entry →
      qubesPureValidateSymbolicLinkV2 table name content flags = .ok 0) :
    Working table flags cwd initial name directories last
      (u.record effect fs') := by
  have hkept := hstart.trans (.added hadded)
  have hframe : ∀ path, path ≠ cwd ++ directories →
      path ≠ cwd ++ directories ++ [last] → fs'.tree path = u.fs.tree path :=
    fun path hdir hentry => htree ▸ hadded.frame path hdir hentry
  refine h.record hhits hframe (h.kept.trans hkept) (Or.inl hkept) ⟨?_, ?_⟩
  · intro target dir entry heffect
    have hname : u.untrustedNamebuf = name := h.namebuf
    rw [hname]
    exact haccepted target dir entry heffect
  · intro path target hpath
    rcases hadded.entry_cases (fun _ h => by cases h) hpath with
      hold | ⟨hentry, hnode⟩
    · exact Or.inl (htree ▸ hold)
    · obtain ⟨content, heffect, htarget⟩ := hlink target hnode
      exact Or.inr ⟨content, _, _, heffect, hentry, htarget⟩

/-- An open file: made since the start, and named unless it is a temporary
one. -/
structure Filling (table : AllowTable) (flags : Flags) (cwd : Path)
    (initial : FileSystem) (name : CString) (directories : Path) (last : Name)
    (ino : Nat) (u : Unpacker) : Prop where
  working : Working table flags cwd initial name directories last u
  fresh : u.start.next ≤ ino
  named : u.useTmpfile = false →
    u.fs.tree (cwd ++ directories ++ [last]) = some (.file ino)

/-- An open object that has the name of the entry. -/
structure Named (table : AllowTable) (flags : Flags) (cwd : Path)
    (initial : FileSystem) (name : CString) (directories : Path) (last : Name)
    (object : Object) (u : Unpacker) : Prop where
  working : Working table flags cwd initial name directories last u
  hits : (Effect.chmod object).Hits u.start u.fs (cwd ++ directories) last

theorem createFile_triple (htmp : Bool) :
    Triple (OnStatics fun u => Working table flags cwd initial name
        directories last u ∧ u.useTmpfile = htmp)
      (createFile (cwd ++ directories) last)
      (OnResult (fun u => Working table flags cwd initial name directories
        last u ∧ u.useTmpfile = htmp)
        (Filling table flags cwd initial name directories last)) E := by
  refine perform_triple fun u outcome ino effect fs hu hcall => ?_
  obtain ⟨fs', hcreate, heq⟩ := map_eq_ok.mp hcall
  simp only [Prod.mk.injEq] at heq
  obtain ⟨rfl, rfl, rfl⟩ := heq
  have hadded := add_ok hcreate
  refine ⟨hu.1.added (.alloc u.fs _) rfl hadded ⟨rfl, rfl⟩
    (fun _ h => by cases h) (fun _ _ _ h => by cases h), hu.1.kept.next,
    fun _ => hadded.entry⟩

theorem openTmpfile_triple :
    Triple (OnStatics fun u => Working table flags cwd initial name
        directories last u ∧ u.useTmpfile = true)
      (openTmpfile (cwd ++ directories))
      (OnResult (fun u => Working table flags cwd initial name directories
        last u ∧ u.useTmpfile = true)
        (Filling table flags cwd initial name directories last)) E := by
  refine perform_triple fun u outcome ino effect fs hu hcall => ?_
  obtain ⟨fs', htmpfile, heq⟩ := map_eq_ok.mp hcall
  simp only [Prod.mk.injEq] at heq
  obtain ⟨rfl, rfl, rfl⟩ := heq
  rw [tmpfileAt] at htmpfile
  split at htmpfile
  · rw [Except.ok.injEq] at htmpfile
    subst htmpfile
    have hkept := Kept.alloc u.fs ⟨⟨0o700, outcome.now, outcome.now⟩, []⟩
    refine ⟨hu.1.record rfl (fun _ _ _ => rfl) (hu.1.kept.trans hkept)
      (Or.inl hkept)
      (.of_noNewLinks (fun _ _ _ h => by cases h) fun _ _ h => h),
      hu.1.kept.next, fun h => ?_⟩
    have htrue : u.useTmpfile = true := hu.2
    exact absurd (htrue.symm.trans h) (by decide)
  · cases htmpfile

theorem writeFile_triple (ino : Nat) (data : List UInt8) :
    Triple (OnStatics (Filling table flags cwd initial name directories last
        ino)) (writeFile ino data)
      (fun _ => OnStatics (Filling table flags cwd initial name directories
        last ino)) E := by
  refine (perform_triple (Q := fun _ => Filling table flags cwd initial name
    directories last ino) fun u outcome count effect fs hu hcall =>
      ?_).post_mono ?_
  · simp only [Except.ok.injEq, Prod.mk.injEq] at hcall
    obtain ⟨rfl, rfl, rfl⟩ := hcall
    refine ⟨hu.working.record hu.fresh (fun _ _ _ => rfl)
      (hu.working.kept.setInode hu.fresh _) (Or.inr rfl)
      (.of_noNewLinks (fun _ _ _ h => by cases h) fun _ _ h => h),
      hu.fresh, hu.named⟩
  · exact fun _ _ h => h.same

theorem linkFile_triple (ino : Nat) :
    Triple (OnStatics fun u => Filling table flags cwd initial name
        directories last ino u ∧ u.useTmpfile = true)
      (linkFile ino (cwd ++ directories) last)
      (OnResult (fun u => Filling table flags cwd initial name directories
        last ino u ∧ u.useTmpfile = true)
        fun _ => Named table flags cwd initial name directories last
          (.file ino)) E := by
  refine perform_triple fun u outcome result effect fs hu hcall => ?_
  obtain ⟨fs', hlink, heq⟩ := map_eq_ok.mp hcall
  simp only [Prod.mk.injEq, true_and] at heq
  obtain ⟨rfl, rfl⟩ := heq
  have hadded := add_ok hlink
  exact ⟨hu.1.working.added (.refl u.fs) rfl hadded
    ⟨hu.1.fresh, rfl, rfl⟩ (fun _ h => by cases h)
    (fun _ _ _ h => by cases h), Or.inr ⟨ino, rfl, hu.1.fresh,
      hadded.entry⟩⟩

theorem makeDir_triple :
    Triple (OnStatics (Working table flags cwd initial name directories
        last)) (makeDir (cwd ++ directories) last)
      (fun _ => OnStatics (Working table flags cwd initial name directories
        last)) E := by
  refine (perform_triple (Q := fun _ => Working table flags cwd initial name
    directories last) fun u outcome result effect fs hu hcall =>
      ?_).post_mono ?_
  · obtain ⟨fs', hmkdir, heq⟩ := map_eq_ok.mp hcall
    simp only [Prod.mk.injEq, true_and] at heq
    obtain ⟨rfl, rfl⟩ := heq
    exact hu.added (.refl u.fs) rfl (add_ok hmkdir) ⟨rfl, rfl⟩
      (fun _ h => by cases h) (fun _ _ _ h => by cases h)
  · exact fun _ _ h => h.same

theorem makeLink_triple {content : CString}
    (haccepted : qubesPureValidateSymbolicLinkV2 table name content flags =
      .ok 0) :
    Triple (OnStatics (Working table flags cwd initial name directories
        last)) (makeLink content (cwd ++ directories) last)
      (fun _ => OnStatics (Working table flags cwd initial name directories
        last)) E := by
  refine (perform_triple (Q := fun _ => Working table flags cwd initial name
    directories last) fun u outcome result effect fs hu hcall =>
      ?_).post_mono ?_
  · obtain ⟨fs', hsymlink, heq⟩ := map_eq_ok.mp hcall
    simp only [Prod.mk.injEq, true_and] at heq
    obtain ⟨rfl, rfl⟩ := heq
    refine hu.added (.refl u.fs) rfl (add_ok (symlinkAt_ok hsymlink).2) ⟨rfl, rfl⟩
      (fun target h => ⟨content, rfl, (Node.link.inj h).symm⟩)
      fun content' _ _ h => ?_
    rw [← (Effect.symlink.inj h).1]
    exact haccepted
  · exact fun _ _ h => h.same

/-- `fchmod` and `futimens` -/
theorem Named.record {object : Object} {u : Unpacker}
    (h : Named table flags cwd initial name directories last object u)
    {effect : Effect} (f : Attributes → Attributes)
    (heffect : effect = .chmod object ∨ effect = .utimes object) :
    Named table flags cwd initial name directories last object
      (u.record effect (u.fs.change object f)) := by
  have hhits : effect.Hits u.start u.fs (cwd ++ directories) last := by
    rcases heffect with rfl | rfl
    · exact h.hits
    · exact h.hits
  have hfresh : ∀ ino, object = .file ino → u.start.next ≤ ino := by
    rintro ino rfl
    rcases h.hits with hdir | ⟨ino', hino, hfresh, _⟩
    · cases hdir
    · rw [Object.file.inj hino]
      exact hfresh
  have hdirs : Kept u.fs (u.fs.change object f) ∨
      (u.fs.change object f).tree = u.fs.tree := by
    cases object with
    | file ino => exact Or.inr rfl
    | dir path => exact Or.inl (.setAttributes u.fs path f)
  have hframe : ∀ path, path ≠ cwd ++ directories →
      path ≠ cwd ++ directories ++ [last] →
        (u.fs.change object f).tree path = u.fs.tree path := by
    intro path _ hentry
    rcases h.hits with rfl | ⟨ino, rfl, _⟩
    · exact (setAttributes_tree u.fs _ f path).resolve_right
        fun hdir => hentry hdir.1
    · rfl
  refine ⟨h.working.record hhits hframe (h.working.kept.change hfresh f) hdirs
    (.of_noNewLinks ?_ (noNewLinks_change u.fs object f)), ?_⟩
  · rcases heffect with rfl | rfl
    · exact fun _ _ _ h => by cases h
    · exact fun _ _ _ h => by cases h
  · rcases h.hits with hdir | ⟨ino, rfl, hfresh, htree⟩
    · exact Or.inl hdir
    · exact Or.inr ⟨ino, rfl, hfresh, htree⟩

theorem fchmod_triple (object : Object) (mode : UInt32) :
    Triple (OnStatics (Named table flags cwd initial name directories last
        object)) (fchmod object mode)
      (fun _ => OnStatics (Named table flags cwd initial name directories
        last object)) E := by
  refine (perform_triple (Q := fun _ => Named table flags cwd initial name
    directories last object) fun u outcome result effect fs hu hcall =>
      ?_).post_mono ?_
  · simp only [Except.ok.injEq, Prod.mk.injEq, true_and] at hcall
    obtain ⟨rfl, rfl⟩ := hcall
    exact hu.record _ (Or.inl rfl)
  · exact fun _ _ h => h.same

theorem futimens_triple (object : Object) (atime mtime : Timespec) :
    Triple (OnStatics (Named table flags cwd initial name directories last
        object)) (futimens object atime mtime)
      (fun _ => OnStatics (Named table flags cwd initial name directories
        last object)) E := by
  refine (perform_triple (Q := fun _ => Named table flags cwd initial name
    directories last object) fun u outcome result effect fs hu hcall =>
      ?_).post_mono ?_
  · simp only [Except.ok.injEq, Prod.mk.injEq, true_and] at hcall
    obtain ⟨rfl, rfl⟩ := hcall
    exact hu.record _ (Or.inr rfl)
  · exact fun _ _ h => h.same

end

end QubesUtils
