/-
The file system that the system calls of the unpacker work on: a tree of names
over inodes.  Names are looked up one component at a time in an open
directory, without following symbolic links.
-/
import QubesUtils.PathComponents
import Mathlib.Logic.Function.Basic

namespace QubesUtils

abbrev Name := List UInt8

/-- The names from the root of the file system down to an object. -/
abbrev Path := List Name

/-- The value that a failed call leaves in `errno`. -/
structure Errno where
  value : UInt32
  ne_zero : value ≠ 0
deriving DecidableEq

def ENOTDIR : Nat := 20
def ENAMETOOLONG : Nat := 36

/-- The bytes that a component may have. -/
def NAME_MAX : Nat := 255

/-- The bytes that a path may have, with the terminator. -/
def PATH_MAX : Nat := 4096

def errnoOf (n : Nat) (h : UInt32.ofNat n ≠ 0 := by decide) : Errno :=
  ⟨UInt32.ofNat n, h⟩

structure Timespec where
  sec : UInt64
  nsec : UInt64
deriving DecidableEq

structure Attributes where
  mode : UInt32
  atime : Timespec
  mtime : Timespec
deriving DecidableEq

structure Inode where
  attributes : Attributes
  data : List UInt8
deriving DecidableEq

inductive Node
  | dir (attributes : Attributes)
  | file (ino : Nat)
  | link (target : List UInt8)
deriving DecidableEq

/-- A name of a file is a name of one of the first inodes. -/
def Node.allocated (next : Nat) : Node → Bool
  | .file ino => decide (ino < next)
  | _ => true

/-- Every object stands in a directory, and every file has an inode. -/
structure FileSystem where
  tree : Path → Option Node
  inodes : Nat → Inode
  next : Nat
  parents : ∀ path name, tree (path ++ [name]) ≠ none →
    ∃ attributes, tree path = some (.dir attributes)
  allocated : ∀ path ino, tree path = some (.file ino) → ino < next

namespace FileSystem

def isDir (fs : FileSystem) (path : Path) : Bool :=
  match fs.tree path with
  | some (.dir _) => true
  | _ => false

theorem isDir_iff {fs : FileSystem} {path : Path} :
    fs.isDir path = true ↔
      ∃ attributes, fs.tree path = some (.dir attributes) := by
  rw [isDir]
  split
  · rename_i attributes h
    simp [h]
  · rename_i h
    simp only [Bool.false_eq_true, false_iff]
    rintro ⟨attributes, h'⟩
    exact h attributes h'

/-! Elementary changes. -/

/-- A new object in a directory. -/
def insert (fs : FileSystem) (dir : Path) (name : Name) (node : Node)
    (hdir : fs.isDir dir = true) (hfree : fs.tree (dir ++ [name]) = none)
    (hnode : node.allocated fs.next = true) : FileSystem where
  tree := Function.update fs.tree (dir ++ [name]) (some node)
  inodes := fs.inodes
  next := fs.next
  parents path entry hentry := by
    have hkeeps : ∀ attributes, fs.tree path = some (.dir attributes) →
        Function.update fs.tree (dir ++ [name]) (some node) path =
          some (.dir attributes) := by
      intro attributes hpath
      rw [Function.update_of_ne]
      · exact hpath
      · rintro rfl
        rw [hfree] at hpath
        cases hpath
    by_cases heq : path ++ [entry] = dir ++ [name]
    · obtain ⟨attributes, hattributes⟩ := isDir_iff.mp hdir
      obtain ⟨rfl, _⟩ := List.append_inj' heq rfl
      exact ⟨attributes, hkeeps attributes hattributes⟩
    · rw [Function.update_of_ne heq] at hentry
      obtain ⟨attributes, hattributes⟩ := fs.parents path entry hentry
      exact ⟨attributes, hkeeps attributes hattributes⟩
  allocated path ino hpath := by
    by_cases heq : path = dir ++ [name]
    · subst heq
      rw [Function.update_self, Option.some.injEq] at hpath
      rw [hpath] at hnode
      exact of_decide_eq_true hnode
    · rw [Function.update_of_ne heq] at hpath
      exact fs.allocated path ino hpath

/-- Other attributes for a directory. -/
def setAttributes (fs : FileSystem) (dir : Path)
    (change : Attributes → Attributes) : FileSystem where
  tree path :=
    if path = dir then
      match fs.tree path with
      | some (.dir attributes) => some (.dir (change attributes))
      | node => node
    else
      fs.tree path
  inodes := fs.inodes
  next := fs.next
  parents path entry hentry := by
    have hentry' : fs.tree (path ++ [entry]) ≠ none := by
      intro hnone
      rw [hnone] at hentry
      split at hentry
      · exact hentry rfl
      · exact hentry rfl
    obtain ⟨attributes, hattributes⟩ := fs.parents path entry hentry'
    rw [hattributes]
    split
    · exact ⟨change attributes, rfl⟩
    · exact ⟨attributes, rfl⟩
  allocated path ino hpath := by
    refine fs.allocated path ino ?_
    split at hpath
    · split at hpath
      · cases hpath
      · exact hpath
    · exact hpath

def setInode (fs : FileSystem) (ino : Nat) (change : Inode → Inode) :
    FileSystem :=
  { fs with inodes := Function.update fs.inodes ino (change (fs.inodes ino)) }

/-- A file without a name. -/
def alloc (fs : FileSystem) (inode : Inode) : FileSystem where
  tree := fs.tree
  inodes := Function.update fs.inodes fs.next inode
  next := fs.next + 1
  parents := fs.parents
  allocated path ino hpath :=
    Nat.lt_succ_of_lt (fs.allocated path ino hpath)

/-! Calls. -/

/-- The change of a directory when an entry is added to it. -/
def touch (now : Timespec) (attributes : Attributes) : Attributes :=
  { attributes with mtime := now }

/-- A new object in a directory, under a name that may not exist yet. -/
def add (fs : FileSystem) (dir : Path) (name : Name) (node : Node)
    (now : Timespec) : Except Errno FileSystem :=
  if name = [] then
    .error (errnoOf ENOENT)
  else if name = dotComponent ∨ name = dotdotComponent then
    .error (errnoOf EEXIST)
  else if hfree : fs.tree (dir ++ [name]) = none then
    if NAME_MAX < name.length then
      .error (errnoOf ENAMETOOLONG)
    else if h : fs.isDir dir = true ∧ node.allocated fs.next = true then
      .ok ((fs.insert dir name node h.1 hfree h.2).setAttributes dir
        (touch now))
    else
      .error (errnoOf ENOENT)
  else
    .error (errnoOf EEXIST)

/-- `mkdirat` -/
def mkdirAt (fs : FileSystem) (dir : Path) (name : Name) (mode : UInt32)
    (now : Timespec) : Except Errno FileSystem :=
  fs.add dir name (.dir ⟨mode, now, now⟩) now

/-- `symlinkat` -/
def symlinkAt (fs : FileSystem) (target : List UInt8) (dir : Path)
    (name : Name) (now : Timespec) : Except Errno FileSystem :=
  if target = [] then .error (errnoOf ENOENT)
  else if PATH_MAX ≤ target.length then .error (errnoOf ENAMETOOLONG)
  else fs.add dir name (.link target) now

/-- `linkat` for a file that is open. -/
def linkAt (fs : FileSystem) (ino : Nat) (dir : Path) (name : Name)
    (now : Timespec) : Except Errno FileSystem :=
  fs.add dir name (.file ino) now

/-- `openat` with `O_CREAT | O_EXCL`: the new file has the next inode. -/
def createAt (fs : FileSystem) (dir : Path) (name : Name) (mode : UInt32)
    (now : Timespec) : Except Errno FileSystem :=
  (fs.alloc ⟨⟨mode, now, now⟩, []⟩).add dir name (.file fs.next) now

/-- `openat` with `O_TMPFILE`. -/
def tmpfileAt (fs : FileSystem) (dir : Path) (mode : UInt32)
    (now : Timespec) : Except Errno FileSystem :=
  if fs.isDir dir = true then
    .ok (fs.alloc ⟨⟨mode, now, now⟩, []⟩)
  else
    .error (errnoOf ENOTDIR)

/-- Where one component leads from a directory. -/
def child (dir : Path) (name : Name) : Path :=
  if name = dotComponent then dir
  else if name = dotdotComponent then dir.dropLast
  else dir ++ [name]

/-- `openat` with `O_DIRECTORY | O_NOFOLLOW`: the directory that is opened. -/
def openDirAt (fs : FileSystem) (dir : Path) (name : Name) :
    Except Errno Path :=
  if name = [] then
    .error (errnoOf ENOENT)
  else if fs.isDir (child dir name) = true then
    .ok (child dir name)
  else if fs.tree (child dir name) = none then
    if NAME_MAX < name.length then .error (errnoOf ENAMETOOLONG)
    else .error (errnoOf ENOENT)
  else
    .error (errnoOf ENOTDIR)

/-- `write` at the end of a file. -/
def append (fs : FileSystem) (ino : Nat) (data : List UInt8)
    (now : Timespec) : FileSystem :=
  fs.setInode ino fun inode =>
    ⟨touch now inode.attributes, inode.data ++ data⟩

/-- An open file or directory. -/
inductive Object
  | file (ino : Nat)
  | dir (path : Path)
deriving DecidableEq

/-- `fchmod` and `futimens` -/
def change (fs : FileSystem) (object : Object)
    (f : Attributes → Attributes) : FileSystem :=
  match object with
  | .file ino => fs.setInode ino fun inode => ⟨f inode.attributes, inode.data⟩
  | .dir path => fs.setAttributes path f

/-! What a call changes. -/

section

variable {fs fs' : FileSystem} {dir : Path} {name : Name} {node : Node}
  {now : Timespec}

/-- Nothing but the attributes of directories differs. -/
theorem setAttributes_tree (fs : FileSystem) (dir : Path)
    (f : Attributes → Attributes) (path : Path) :
    (fs.setAttributes dir f).tree path = fs.tree path ∨
      path = dir ∧ ∃ attributes, fs.tree path = some (.dir attributes) ∧
        (fs.setAttributes dir f).tree path = some (.dir (f attributes)) := by
  simp only [setAttributes]
  by_cases hpath : path = dir
  · rw [if_pos hpath]
    cases hnode : fs.tree path with
    | none => exact Or.inl rfl
    | some node =>
        cases node with
        | dir attributes => exact Or.inr ⟨hpath, attributes, rfl, rfl⟩
        | file ino => exact Or.inl rfl
        | link target => exact Or.inl rfl
  · rw [if_neg hpath]
    exact Or.inl rfl

/-- What a successful addition says about the state before and after. -/
structure Added (fs : FileSystem) (dir : Path) (name : Name) (node : Node)
    (now : Timespec) (fs' : FileSystem) : Prop where
  normal : Normal name
  short : name.length ≤ NAME_MAX
  free : fs.tree (dir ++ [name]) = none
  parent : ∃ attributes, fs.tree dir = some (.dir attributes) ∧
    fs'.tree dir = some (.dir (touch now attributes))
  entry : fs'.tree (dir ++ [name]) = some node
  frame : ∀ path, path ≠ dir → path ≠ dir ++ [name] →
    fs'.tree path = fs.tree path
  inodes : fs'.inodes = fs.inodes
  next : fs'.next = fs.next

theorem add_ok (h : fs.add dir name node now = .ok fs') :
    Added fs dir name node now fs' := by
  rw [add] at h
  by_cases hempty : name = []
  · rw [if_pos hempty] at h
    cases h
  rw [if_neg hempty] at h
  by_cases hdots : name = dotComponent ∨ name = dotdotComponent
  · rw [if_pos hdots] at h
    cases h
  rw [if_neg hdots] at h
  by_cases hfree : fs.tree (dir ++ [name]) = none
  · rw [dif_pos hfree] at h
    by_cases hlong : NAME_MAX < name.length
    · rw [if_pos hlong] at h
      cases h
    rw [if_neg hlong] at h
    by_cases hdir : fs.isDir dir = true ∧ node.allocated fs.next = true
    · rw [dif_pos hdir, Except.ok.injEq] at h
      subst h
      obtain ⟨attributes, hattributes⟩ := isDir_iff.mp hdir.1
      have hne : dir ≠ dir ++ [name] := by simp
      refine ⟨⟨hempty, fun h => hdots (Or.inl h),
        fun h => hdots (Or.inr h)⟩, Nat.le_of_not_lt hlong, hfree,
        ⟨attributes, hattributes, ?_⟩, ?_, ?_, rfl, rfl⟩
      · simp only [setAttributes, insert, if_true]
        rw [Function.update_of_ne hne, hattributes]
      · simp only [setAttributes, insert]
        rw [if_neg hne.symm, Function.update_self]
      · intro path hdir hentry
        simp only [setAttributes, insert]
        rw [if_neg hdir, Function.update_of_ne hentry]
    · rw [dif_neg hdir] at h
      cases h
  · rw [dif_neg hfree] at h
    cases h

/-- What `symlinkat` takes for a target. -/
structure Linkable (target : List UInt8) : Prop where
  nonempty : target ≠ []
  short : target.length < PATH_MAX

instance (target : List UInt8) : Decidable (Linkable target) :=
  decidable_of_iff (target ≠ [] ∧ target.length < PATH_MAX)
    ⟨fun h => ⟨h.1, h.2⟩, fun h => ⟨h.nonempty, h.short⟩⟩

theorem symlinkAt_linkable {target : List UInt8} (h : Linkable target) :
    fs.symlinkAt target dir name now =
      fs.add dir name (.link target) now := by
  rw [symlinkAt, if_neg h.nonempty, if_neg (Nat.not_le.mpr h.short)]

theorem symlinkAt_ok {target : List UInt8}
    (h : fs.symlinkAt target dir name now = .ok fs') :
    Linkable target ∧ fs.add dir name (.link target) now = .ok fs' := by
  rw [symlinkAt] at h
  by_cases hempty : target = []
  · rw [if_pos hempty] at h
    cases h
  rw [if_neg hempty] at h
  by_cases hlong : PATH_MAX ≤ target.length
  · rw [if_pos hlong] at h
    cases h
  · rw [if_neg hlong] at h
    exact ⟨⟨hempty, Nat.lt_of_not_le hlong⟩, h⟩

theorem child_of_normal (hnormal : Normal name) :
    child dir name = dir ++ [name] := by
  rw [child, if_neg hnormal.2.1, if_neg hnormal.2.2]

theorem openDirAt_ok {path : Path} (h : fs.openDirAt dir name = .ok path) :
    fs.isDir path = true ∧ path = child dir name := by
  rw [openDirAt] at h
  by_cases hempty : name = []
  · rw [if_pos hempty] at h
    cases h
  rw [if_neg hempty] at h
  by_cases hdir : fs.isDir (child dir name) = true
  · rw [if_pos hdir, Except.ok.injEq] at h
    exact ⟨h ▸ hdir, h.symm⟩
  · rw [if_neg hdir] at h
    split at h
    · split at h
      · cases h
      · cases h
    · cases h

end

end FileSystem

end QubesUtils
