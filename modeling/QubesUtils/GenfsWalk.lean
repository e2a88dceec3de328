/-
The walk of `genfs.c` over the tree: what a change of one inode preserves, the
whole walk preserves.
-/
import QubesUtils.Genfs

namespace QubesUtils.Genfs

open Hoare

mutual

/-- The inodes of a tree. -/
def Tree.inos : Tree → List Ino
  | .node _ ino _ entries => ino :: inosAll entries

def inosAll : List Tree → List Ino
  | [] => []
  | entry :: rest => entry.inos ++ inosAll rest

end

mutual

/-- The names of the entries behind a tree. -/
def Tree.names : Tree → List (List UInt8)
  | .node _ _ _ entries => namesAll entries

def namesAll : List Tree → List (List UInt8)
  | [] => []
  | entry :: rest => entry.name :: (entry.names ++ namesAll rest)

end

/-- The inodes of the file system, in the order of the scan. -/
def Ext2.allInos (fs : Ext2) : List Ino :=
  (List.range fs.inodesCount).map (· + 1)

/-- What any file system promises: the inodes of its names are there, are in
use and are not reserved, and no name is empty, `.` or `..`. -/
structure Ext2.WellFormed (fs : Ext2) : Prop where
  root : fs.root.ino = EXT2_ROOT_INO
  inodes : ∀ ino ∈ fs.root.inos, ino ∈ fs.allInos ∧ fs.isScanned ino = true
  names : ∀ name ∈ fs.root.names, isDots name = false

/-- Which inodes there are, and which of them are scanned, stays. -/
structure SameShape (fs₀ fs : Ext2) : Prop where
  root : fs.root = fs₀.root
  count : fs.inodesCount = fs₀.inodesCount
  same : ∀ ino, fs.isScanned ino = fs₀.isScanned ino

theorem Tree.inos_eq (tree : Tree) :
    tree.inos = tree.ino :: inosAll tree.entries := by
  cases tree with
  | node name ino fileType entries => rw [inos]; rfl

theorem mem_inosAll {entries : List Tree} {ino : Ino} :
    ino ∈ inosAll entries ↔ ∃ entry ∈ entries, ino ∈ entry.inos := by
  induction entries with
  | nil => simp [inosAll]
  | cons entry rest ih => simp [inosAll, ih]

theorem inosAll_eq (entries : List Tree) :
    inosAll entries = entries.flatMap Tree.inos := by
  induction entries with
  | nil => rw [inosAll, List.flatMap_nil]
  | cons entry rest ih => rw [inosAll, List.flatMap_cons, ih]

section

variable {fs₀ fs : Ext2} {ino : Ino}

theorem SameShape.allInos (h : SameShape fs₀ fs) :
    fs.allInos = fs₀.allInos := by
  rw [Ext2.allInos, h.count, Ext2.allInos]

/-- An inode that is written keeps the number of its links. -/
theorem SameShape.write (h : SameShape fs₀ fs) {inode : Inode}
    {xattrs : List (String × String)}
    (hlinks : inode.linksCount = (fs.inodes ino).linksCount) :
    SameShape fs₀ ((fs.setXattrs ino xattrs).writeInode ino inode) where
  root := h.root
  count := h.count
  same := by
    intro other
    rw [← h.same other]
    have hsame : (Function.update fs.inodes ino inode other).linksCount =
        (fs.inodes other).linksCount := by
      by_cases hother : other = ino
      · subst hother
        rw [Function.update_self, hlinks]
      · rw [Function.update_of_ne hother]
    change (_ && (Function.update fs.inodes ino inode other).linksCount != 0)
      = _
    rw [hsame]
    rfl

theorem linksCount_normalize (inode : Inode) (timestamp : UInt64)
    (isLpfIno markImmutable : Bool) :
    ((inode.stamp timestamp).normalize isLpfIno markImmutable).linksCount =
      inode.linksCount := by
  rw [Inode.normalize, Inode.stamp]
  split
  · rfl
  · rfl

end

section

variable {I : Ext2 → Prop}

theorem Triple.throws {α : Type} {pre : Ext2 → Prop} {post : α → Ext2 → Prop}
    (e : GenfsError) : Triple pre (throw e : Program α) post fun _ _ => True :=
  .throw fun _ _ => trivial

theorem setLabel_rule {ino : Ino} {path name : List UInt8} {label : String}
    {pre post : Ext2 → Prop}
    (h : ∀ fs, pre fs → ∀ xattrs,
      xattrs = setXattr "security.selinux" label (fs.xattrs ino) →
      xattrs.length = 1 → post (fs.setXattrs ino xattrs)) :
    Triple pre (setLabel path ino name label) (fun _ => post)
      fun _ _ => True := by
  refine .get_bind fun fs hfs => ?_
  have hset : ∀ fs', Triple (· = fs) (set fs' : Program Unit)
      (fun _ => (· = fs')) fun _ _ => True := fun _ _ _ => rfl
  refine (hset _).bind fun _ => .ite (fun _ => Triple.throws _)
    fun hlength => .ret ?_
  rintro _ rfl
  exact h fs hfs _ rfl (not_not.mp hlength)

/-- A change of one inode: its label, and possibly its flags. -/
theorem processDirent_rule {ino : Ino} {path name : List UInt8}
    {label : String} {force : Bool} {pre post : Ext2 → Prop}
    (h : ∀ fs, pre fs → ∀ xattrs flags,
      xattrs = setXattr "security.selinux" label (fs.xattrs ino) →
      xattrs.length = 1 → post ((fs.setXattrs ino xattrs).writeInode ino
        { fs.inodes ino with flags := flags })) :
    Triple pre (processDirent path ino name label force) (fun _ => post)
      fun _ _ => True := by
  have hlabel : Triple pre (setLabel path ino name label)
      (fun _ fs' => ∃ fs xattrs, pre fs ∧
        xattrs = setXattr "security.selinux" label (fs.xattrs ino) ∧
          xattrs.length = 1 ∧ fs' = fs.setXattrs ino xattrs)
      fun _ _ => True :=
    setLabel_rule fun fs hfs xattrs hxattrs hlength =>
      ⟨fs, xattrs, hfs, hxattrs, hlength, rfl⟩
  refine hlabel.bind fun _ => .get_bind fun fs' hfs' => ?_
  obtain ⟨fs, xattrs, hfs, hxattrs, hlength, rfl⟩ := hfs'
  apply Triple.modify
  rintro _ rfl
  cases force with
  | false => exact h fs hfs _ (fs.inodes ino).flags hxattrs hlength
  | true => exact h fs hfs _ _ hxattrs hlength

theorem checkDirectory_rule {ino : Ino} {pre : Ext2 → Prop} :
    Triple pre (checkDirectory ino) (fun _ => pre) fun _ _ => True := by
  refine .get_bind fun fs hfs => .ite (fun _ => ?_) fun _ => ?_
  · exact .ret fun _ h => h ▸ hfs
  · exact .throw fun _ _ => trivial

/-- What every change of an inode of some set keeps. -/
def KeptOn (I : Ext2 → Prop) (inos : List Ino) : Prop :=
  ∀ ino ∈ inos, ∀ path name label force,
    Triple I (processDirent path ino name label force) (fun _ => I)
      fun _ _ => True

theorem KeptOn.mono {inos inos' : List Ino} (h : KeptOn I inos)
    (hsub : ∀ ino ∈ inos', ino ∈ inos) : KeptOn I inos' :=
  fun ino hino => h ino (hsub ino hino)

mutual

theorem recursiveRelabel_kept (label : String) : ∀ entry : Tree,
    KeptOn I entry.inos →
    Triple I (recursiveRelabel label entry) (fun _ => I) fun _ _ => True
  | .node name ino fileType entries => by
      intro h
      rw [Tree.inos] at h
      rw [recursiveRelabel]
      refine .ite (fun _ => Triple.throws _) fun _ =>
        .ite (fun _ => .ret fun _ hI => hI) fun _ => ?_
      refine (h ino List.mem_cons_self _ _ _ _).bind fun _ => ?_
      refine .ite (fun _ => checkDirectory_rule.bind fun _ => ?_)
        fun _ => .ret fun _ hI => hI
      apply recursiveRelabelAll_kept label entries
      exact h.mono fun _ hmem => List.mem_cons_of_mem _ hmem

theorem recursiveRelabelAll_kept (label : String) : ∀ entries : List Tree,
    KeptOn I (inosAll entries) →
    Triple I (recursiveRelabelAll label entries) (fun _ => I) fun _ _ => True
  | [] => by
      intro _
      rw [recursiveRelabelAll]
      exact .ret fun _ hI => hI
  | entry :: rest => by
      intro h
      rw [inosAll] at h
      rw [recursiveRelabelAll]
      refine (recursiveRelabel_kept label entry ?_).bind fun _ =>
        recursiveRelabelAll_kept label rest ?_
      · exact h.mono fun _ hmem => List.mem_append_left _ hmem
      · exact h.mono fun _ hmem => List.mem_append_right _ hmem

end

theorem dirIterateCallback_kept (uname : List UInt8) (entry : Tree)
    (h : KeptOn I entry.inos) :
    Triple I (dirIterateCallback uname entry) (fun _ => I)
      fun _ _ => True := by
  rw [Tree.inos_eq] at h
  rw [dirIterateCallback]
  refine .ite (fun _ => Triple.throws _) fun _ => .ite (fun _ => ?_) fun _ =>
    .ite (fun _ => ?_) fun _ => .ret fun _ hI => hI
  · refine .ite (fun _ => Triple.throws _) fun _ => ?_
    refine (h _ List.mem_cons_self _ _ _ _).bind fun _ =>
      checkDirectory_rule.bind fun _ => ?_
    apply recursiveRelabelAll_kept
    exact h.mono fun _ hmem => List.mem_cons_of_mem _ hmem
  · exact .ite (fun _ => Triple.throws _) fun _ =>
      h _ List.mem_cons_self _ _ _ _

theorem dirIterate_kept (uname : List UInt8) (entries : List Tree)
    (h : KeptOn I (inosAll entries)) :
    Triple I (dirIterate uname entries) (fun _ => I) fun _ _ => True := by
  induction entries with
  | nil =>
      rw [dirIterate]
      exact .ret fun _ hI => hI
  | cons entry rest ih =>
      rw [inosAll] at h
      rw [dirIterate]
      refine (dirIterateCallback_kept uname entry ?_).bind fun _ => ih ?_
      · exact h.mono fun _ hmem => List.mem_append_left _ hmem
      · exact h.mono fun _ hmem => List.mem_append_right _ hmem

theorem rootIterateCallback_kept (uname : List UInt8) (entry : Tree)
    (h : KeptOn I entry.inos) :
    Triple I (rootIterateCallback uname entry) (fun _ => I)
      fun _ _ => True := by
  rw [Tree.inos_eq] at h
  have hbelow : KeptOn I (inosAll entry.entries) :=
    h.mono fun _ hmem => List.mem_cons_of_mem _ hmem
  have hself := h entry.ino List.mem_cons_self
  rw [rootIterateCallback]
  refine .ite (fun _ => .ret fun _ hI => hI) fun _ =>
    .ite (fun _ => Triple.throws _) fun _ => .ite (fun _ => ?_) fun _ =>
      .ite (fun _ => ?_) fun _ => .ite (fun _ => Triple.throws _) fun _ => ?_
  · exact checkDirectory_rule.bind fun _ =>
      (recursiveRelabelAll_kept _ _ hbelow).bind fun _ => hself _ _ _ _
  · exact checkDirectory_rule.bind fun _ =>
      (dirIterate_kept _ _ hbelow).bind fun _ => hself _ _ _ _
  · exact hself _ _ _ _

theorem rootIterate_kept (uname : List UInt8) (entries : List Tree)
    (h : KeptOn I (inosAll entries)) :
    Triple I (rootIterate uname entries) (fun _ => I) fun _ _ => True := by
  induction entries with
  | nil =>
      rw [rootIterate]
      exact .ret fun _ hI => hI
  | cons entry rest ih =>
      rw [inosAll] at h
      rw [rootIterate]
      refine (rootIterateCallback_kept uname entry ?_).bind fun _ => ih ?_
      · exact h.mono fun _ hmem => List.mem_append_left _ hmem
      · exact h.mono fun _ hmem => List.mem_append_right _ hmem

end

/-! The scan. -/

/-- A scan of one inode: it is passed over, or it gets the label of all and
is written. -/
theorem scanInode_rule {timestamp : UInt64} {markImmutable : Bool} {ino : Ino}
    {pre post : Ext2 → Prop}
    (hpass : ∀ fs, pre fs → fs.isScanned ino = false → post fs)
    (hscan : ∀ fs, pre fs → fs.isScanned ino = true → ∀ xattrs isLpfIno,
      xattrs = setXattr "security.selinux" labelModulesObject
        (fs.xattrs ino) → xattrs.length = 1 →
      post ((fs.setXattrs ino xattrs).writeInode ino
        (((fs.inodes ino).stamp timestamp).normalize isLpfIno
          markImmutable))) :
    Triple pre (scanInode timestamp markImmutable ino) (fun _ => post)
      fun _ _ => True := by
  refine .get_bind fun fs hfs => .ite (fun hnot => ?_) fun hscanned => ?_
  · exact .ret fun _ h => h ▸ hpass fs hfs hnot
  · refine .ite (fun _ => Triple.throws _) fun _ =>
      .ite (fun _ => Triple.throws _) fun _ =>
        .ite (fun _ => Triple.throws _) fun _ => ?_
    have hlabel : Triple (· = fs) (setLabel [] ino [] labelModulesObject)
        (fun _ fs' => ∃ xattrs, xattrs = setXattr "security.selinux"
          labelModulesObject (fs.xattrs ino) ∧ xattrs.length = 1 ∧
            fs' = fs.setXattrs ino xattrs)
        fun _ _ => True := by
      apply setLabel_rule
      rintro _ rfl xattrs hxattrs hlength
      exact ⟨xattrs, hxattrs, hlength, rfl⟩
    refine hlabel.bind fun _ => ?_
    apply Triple.modify
    rintro _ ⟨xattrs, hxattrs, hlength, rfl⟩
    exact hscan fs hfs (Bool.not_eq_false _ ▸ hscanned) xattrs _ hxattrs
      hlength

/-! The program. -/

theorem ofExcept_rule {α : Type} {pre : Ext2 → Prop}
    (x : Except GenfsError α) :
    Triple pre (MonadExcept.ofExcept x : Program α)
      (fun a fs => pre fs ∧ x = .ok a) fun _ _ => True := by
  cases x with
  | error e => exact Triple.throws e
  | ok a => exact .ret fun _ h => ⟨h, rfl⟩

/-- Only where `lost+found` is may become known. -/
theorem checkSuper_rule {fs₀ : Ext2} :
    Triple (· = fs₀) checkSuper
      (fun _ fs => ∃ super : Superblock,
        super.firstIno = fs₀.super.firstIno ∧
          fs = { fs₀ with super := super })
      fun _ _ => True := by
  refine .get_bind fun fs hfs => ?_
  subst hfs
  refine .ite (fun _ => Triple.throws _) fun _ =>
    .ite (fun _ => Triple.throws _) fun _ =>
      .ite (fun _ => Triple.throws _) fun _ => .ite (fun _ => ?_) fun _ => ?_
  · cases fs.root.entries.find? fun entry => entry.name == lostFound with
    | none => exact Triple.throws _
    | some entry =>
        intro fs' _
        exact ⟨{ fs.super with lpfIno := entry.ino }, rfl, rfl⟩
  · exact .ret fun fs' hfs' => ⟨fs.super, rfl, hfs'⟩

theorem SameShape.super (fs : Ext2) {super : Superblock}
    (h : super.firstIno = fs.super.firstIno) :
    SameShape fs { fs with super := super } := by
  refine ⟨rfl, rfl, fun ino => ?_⟩
  rw [Ext2.isScanned, Ext2.isScanned, h]

/-- The time that a run is given. -/
def EpochIs (epoch : Option CString) (timestamp : UInt64) : Prop :=
  epoch.elim (timestamp = 0) fun ptr => parseEpoch ptr = .ok timestamp

/-- A run that ends without an error is one of `labelTree`, between a look at
the superblock and a change of it. -/
theorem realMain_rule {fs₀ : Ext2} {epoch uname : Option CString}
    {markImmutable : Bool} {post : UInt64 → Ext2 → Prop}
    (h : ∀ timestamp super, EpochIs epoch timestamp →
      super.firstIno = fs₀.super.firstIno →
        Triple (· = { fs₀ with super := super })
          (uname.elim (pure ()) (labelTree timestamp markImmutable))
          (fun _ => post timestamp) fun _ _ => True) :
    Triple (· = fs₀) (realMain epoch uname markImmutable)
      (fun _ fs' => ∃ timestamp fs, EpochIs epoch timestamp ∧
        post timestamp fs ∧
          fs' = { fs with super := stampSuper timestamp fs.super })
      fun _ _ => True := by
  have hepoch : Triple (· = fs₀)
      (epoch.elim (pure 0) fun ptr =>
        MonadExcept.ofExcept (parseEpoch ptr) : Program UInt64)
      (fun timestamp fs => fs = fs₀ ∧ EpochIs epoch timestamp)
      fun _ _ => True := by
    cases epoch with
    | none => exact .ret fun _ h => ⟨h, rfl⟩
    | some ptr => exact ofExcept_rule (parseEpoch ptr)
  refine hepoch.bind fun timestamp => .assume (fun _ h => h.2) fun hparse => ?_
  have hsuper : Triple (fun fs => fs = fs₀ ∧ EpochIs epoch timestamp)
      checkSuper _ fun _ _ => True :=
    checkSuper_rule.pre_mono fun _ h => h.1
  refine hsuper.bind fun _ => .exists_pre fun super =>
    .assume (fun _ h => h.1) fun hfirst => ?_
  refine ((h timestamp super hparse hfirst).pre_mono fun _ h => h.2).bind
    fun _ => ?_
  apply Triple.modify
  exact fun fs h => ⟨timestamp, fs, hparse, h, rfl⟩

/-- `labelTree` is a scan of all inodes, and a walk from the root. -/
theorem labelTree_rule {fs₀ : Ext2} {timestamp : UInt64}
    {markImmutable : Bool} {uname : CString} {super : Superblock}
    {scanned marked : Ext2 → Prop} {post : Ext2 → Prop}
    (hscan : Triple (· = { fs₀ with super := super })
      (scanInodes timestamp markImmutable fs₀.allInos) (fun _ => scanned)
      fun _ _ => True)
    (hroot : Triple scanned
      (processDirent [] EXT2_ROOT_INO [] labelModulesObject true)
      (fun _ => marked) fun _ _ => True)
    (hwalk : Triple marked (rootIterate uname.bytes fs₀.root.entries)
      (fun _ => post) fun _ _ => True) :
    Triple (· = { fs₀ with super := super })
      (labelTree timestamp markImmutable uname) (fun _ => post)
      fun _ _ => True := by
  refine .get_bind fun fs hfs => ?_
  subst hfs
  exact hscan.bind fun _ => hroot.bind fun _ =>
    checkDirectory_rule.bind fun _ => hwalk

/-! Small file systems. -/

def sampleInode (mode : UInt16) : Inode where
  mode := mode
  linksCount := 2
  uid := 0
  gid := 0
  flags := 0
  ctime := 0
  mtime := 0
  atime := 0
  crtime := 0
  ctimeExtra := 0
  mtimeExtra := 0
  atimeExtra := 0
  crtimeExtra := 0
  generation := 0
  version := 0
  versionHi := 0
  projid := 0

def cleanSuper : Superblock where
  firstErrorTime := 0
  lastErrorTime := 0
  firstErrorTimeHi := 0
  lastErrorTimeHi := 0
  firstErrorIno := 0
  revLevel := 1
  inodeSize := 256
  firstIno := 11
  lpfIno := 11
  mtime := 0
  wtime := 0
  mkfsTime := 0
  lastcheck := 0
  mtimeHi := 0
  wtimeHi := 0
  mkfsTimeHi := 0
  lastcheckHi := 0
  checkinterval := 0

def sampleExt2 (root : Tree) (inodesCount : Nat) (mode : Ino → UInt16) :
    Ext2 where
  super := cleanSuper
  inodesCount := inodesCount
  root := root
  inodes := fun ino => sampleInode (mode ino)
  xattrs := fun _ => []
  written := []

/-- `6.1` -/
def kernelName : CString := CString.ofBuffer [0x36, 0x2E, 0x31]

end QubesUtils.Genfs
