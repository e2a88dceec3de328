/-
The labels that `genfs.c` leaves.  The names of the root are compared with
`strncmp` up to the length of the name, so that a proper prefix of a name is
taken for it; where there are none, each inode has the label of its path.
-/
import QubesUtils.GenfsWalk
import QubesUtils.Overlay

namespace QubesUtils.Genfs

open Hoare Overlay

/-! What is expected. -/

/-- The path from a tree to one of its entries. -/
inductive Reaches : Tree → List (List UInt8) → Tree → Prop
  | here (tree : Tree) : Reaches tree [] tree
  | step {tree entry node : Tree} {path : List (List UInt8)} :
      entry ∈ tree.entries → Reaches entry path node →
        Reaches tree (entry.name :: path) node

/-- The label of a path. -/
def expectedLabel (uname : List UInt8) (path : List (List UInt8)) : String :=
  if [firmware] <+: path then labelLib
  else if [uname, build] <+: path then labelUsr
  else if path.length = 2 ∧ path.head? = some uname ∧
      modulesDot <+: path.getLastD [] then labelModulesDep
  else labelModulesObject

def rootNames (uname : List UInt8) : List (List UInt8) :=
  [firmware, uname, vmlinuz, initramfs, lostFound]

def Ext2.label (fs : Ext2) (ino : Ino) : Option String :=
  (fs.xattrs ino).lookup "security.selinux"

/-- The root holds what it may hold, and every inode has the label of its
path. -/
structure ExactLabels (uname : List UInt8) (root : Tree) (fs : Ext2) :
    Prop where
  names : ∀ entry ∈ root.entries, entry.name ∈ rootNames uname
  labels : ∀ path node, Reaches root path node →
    fs.label node.ino = some (expectedLabel uname path)

mutual

/-- A directory with entries is recorded as a directory in its own entry. -/
def Tree.Recorded : Tree → Prop
  | .node _ _ fileType entries =>
      (entries = [] ∨ fileType = EXT2_FT_DIR) ∧ RecordedAll entries

def RecordedAll : List Tree → Prop
  | [] => True
  | entry :: rest => entry.Recorded ∧ RecordedAll rest

end

/-- The name of an entry of the root is taken for no other name, and what is
below it is found. -/
structure Unambiguous (uname : List UInt8) (entry : Tree) : Prop where
  ofFirmware : entry.name <+: firmware → entry.name = firmware
  ofOther : entry.name ≠ uname → ∀ name ∈ [vmlinuz, initramfs, lostFound],
    entry.name <+: name → entry.name = name
  ofUname : entry.name <+: uname → entry.name = uname ∨
    entry.name = firmware ∨
    entry.name ∈ [vmlinuz, initramfs, lostFound] ∧
      ∀ child ∈ entry.entries,
        child.name ≠ build ∧ ¬ modulesDot <+: child.name
  inFirmware : entry.name = firmware → RecordedAll entry.entries
  inBuild : entry.name = uname → ∀ child ∈ entry.entries,
    child.name = build → RecordedAll child.entries

/-! What is done. -/

mutual

/-- The inodes that `recursiveRelabel` comes to. -/
def Tree.marked : Tree → List Ino
  | .node name ino fileType entries =>
      if isDots name then []
      else ino :: if fileType = EXT2_FT_DIR then markedAll entries else []

def markedAll : List Tree → List Ino
  | [] => []
  | entry :: rest => entry.marked ++ markedAll rest

end

abbrev Labels := Ino → Option String

/-- What `dirIterateCallback` changes. -/
def dirChange (labels : Labels) (entry : Tree) : Labels :=
  if entry.name = build then
    overlay (entry.ino :: markedAll entry.entries) (some labelUsr) labels
  else if entry.name.length ≥ 8 ∧ entry.name.take 8 = modulesDot then
    overlay [entry.ino] (some labelModulesDep) labels
  else
    labels

/-- What `rootIterateCallback` changes. -/
def rootChange (uname : List UInt8) (labels : Labels) (entry : Tree) :
    Labels :=
  if isDots entry.name then
    labels
  else if strncmpEq entry.name.length entry.name firmware then
    overlay (entry.ino :: markedAll entry.entries) (some labelLib) labels
  else if strncmpEq entry.name.length entry.name uname then
    overlay [entry.ino] (some labelModulesObject)
      (entry.entries.foldl dirChange labels)
  else
    overlay [entry.ino] (some labelModulesObject) labels

/-- The names that the root may hold without an error. -/
def Accepted (uname : List UInt8) (entry : Tree) : Prop :=
  isDots entry.name = true ∨ 0 ∉ entry.name ∧
    ∃ name ∈ rootNames uname, strncmpEq entry.name.length entry.name name = true

/-- The labels of a file system of a given shape. -/
structure Labelled (fs₀ : Ext2) (labels : Labels) (fs : Ext2) : Prop extends
    SameShape fs₀ fs where
  label : ∀ ino, fs.label ino = labels ino

theorem lookup_setXattr (name value : String)
    (xattrs : List (String × String)) :
    (setXattr name value xattrs).lookup name = some value := by
  induction xattrs with
  | nil => simp [setXattr]
  | cons head rest ih =>
      obtain ⟨name', value'⟩ := head
      rw [setXattr]
      split
      · simp
      · rename_i hne
        have hne' : (name == name') = false := by
          simpa using fun h => hne h.symm
        rw [List.lookup_cons, hne']
        exact ih

section

variable {fs₀ : Ext2} {labels : Labels}

theorem Labelled.write {fs : Ext2} (h : Labelled fs₀ labels fs) {ino : Ino}
    {inode : Inode} {label : String}
    (hlinks : inode.linksCount = (fs.inodes ino).linksCount) :
    Labelled fs₀ (overlay [ino] (some label) labels)
      ((fs.setXattrs ino (setXattr "security.selinux" label
        (fs.xattrs ino))).writeInode ino inode) where
  toSameShape := h.toSameShape.write hlinks
  label := by
    intro other
    change (Function.update fs.xattrs ino _ other).lookup _ = _
    by_cases hother : other = ino
    · subst hother
      rw [Function.update_self, lookup_setXattr,
        overlay_of_mem List.mem_cons_self]
    · rw [Function.update_of_ne hother, overlay_of_not_mem (by simpa)]
      exact h.label other

theorem processDirent_labels (path : List UInt8) (ino : Ino)
    (name : List UInt8) (label : String) (force : Bool) :
    Triple (Labelled fs₀ labels) (processDirent path ino name label force)
      (fun _ => Labelled fs₀ (overlay [ino] (some label) labels))
      fun _ _ => True := by
  apply processDirent_rule
  rintro fs hfs _ flags rfl _
  exact hfs.write rfl

mutual

theorem recursiveRelabel_labels (label : String) : ∀ (entry : Tree)
    (labels : Labels),
    Triple (Labelled fs₀ labels) (recursiveRelabel label entry)
      (fun _ => Labelled fs₀ (overlay entry.marked (some label) labels))
      fun _ _ => True
  | .node name ino fileType entries, labels => by
      rw [recursiveRelabel, Tree.marked]
      refine .ite (fun _ => Triple.throws _) fun _ => .ite (fun h => ?_)
        fun h => ?_
      · rw [if_pos h, overlay_nil]
        exact .ret fun _ hlabels => hlabels
      · rw [if_neg h]
        refine (processDirent_labels _ _ _ _ _).bind fun _ =>
          .ite (fun hdir => ?_) fun hdir => ?_
        · rw [if_pos hdir, overlay_cons ino (markedAll entries)]
          exact checkDirectory_rule.bind fun _ =>
            recursiveRelabelAll_labels label entries _
        · rw [if_neg hdir]
          exact .ret fun _ hlabels => hlabels

theorem recursiveRelabelAll_labels (label : String) : ∀ (entries : List Tree)
    (labels : Labels),
    Triple (Labelled fs₀ labels) (recursiveRelabelAll label entries)
      (fun _ => Labelled fs₀ (overlay (markedAll entries) (some label) labels))
      fun _ _ => True
  | [], labels => by
      rw [recursiveRelabelAll, markedAll, overlay_nil]
      exact .ret fun _ hlabels => hlabels
  | entry :: rest, labels => by
      rw [recursiveRelabelAll, markedAll, ← overlay_overlay]
      exact (recursiveRelabel_labels label entry labels).bind fun _ =>
        recursiveRelabelAll_labels label rest _

end

theorem dirIterateCallback_labels (uname : List UInt8) (entry : Tree) :
    Triple (Labelled fs₀ labels) (dirIterateCallback uname entry)
      (fun _ => Labelled fs₀ (dirChange labels entry)) fun _ _ => True := by
  rw [dirIterateCallback, dirChange]
  refine .ite (fun _ => Triple.throws _) fun _ => .ite (fun h => ?_)
    fun h => ?_
  · rw [if_pos h, overlay_cons]
    exact .ite (fun _ => Triple.throws _) fun _ =>
      (processDirent_labels _ _ _ _ _).bind fun _ =>
        checkDirectory_rule.bind fun _ => recursiveRelabelAll_labels _ _ _
  · rw [if_neg h]
    refine .ite (fun h' => ?_) fun h' => ?_
    · rw [if_pos h']
      exact .ite (fun _ => Triple.throws _) fun _ =>
        processDirent_labels _ _ _ _ _
    · rw [if_neg h']
      exact .ret fun _ hlabels => hlabels

theorem dirIterate_labels (uname : List UInt8) (entries : List Tree) :
    Triple (Labelled fs₀ labels) (dirIterate uname entries)
      (fun _ => Labelled fs₀ (entries.foldl dirChange labels))
      fun _ _ => True := by
  induction entries generalizing labels with
  | nil =>
      rw [dirIterate]
      exact .ret fun _ hlabels => hlabels
  | cons entry rest ih =>
      rw [dirIterate]
      exact (dirIterateCallback_labels uname entry).bind fun _ => ih

theorem rootIterateCallback_labels (uname : List UInt8) (entry : Tree) :
    Triple (Labelled fs₀ labels) (rootIterateCallback uname entry)
      (fun _ fs => Labelled fs₀ (rootChange uname labels entry) fs ∧
        Accepted uname entry) fun _ _ => True := by
  rw [rootIterateCallback, rootChange, Accepted]
  refine .ite (fun h => ?_) fun hdots => .ite (fun _ => Triple.throws _)
    fun hnul => ?_
  · rw [if_pos h]
    exact .ret fun _ hlabels => ⟨hlabels, Or.inl h⟩
  rw [if_neg hdots]
  have haccept : ∀ name ∈ rootNames uname,
      strncmpEq entry.name.length entry.name name = true →
        isDots entry.name = true ∨ 0 ∉ entry.name ∧
          ∃ name ∈ rootNames uname,
            strncmpEq entry.name.length entry.name name = true :=
    fun name hname heq => Or.inr ⟨hnul, name, hname, heq⟩
  refine .ite (fun h => ?_) fun hfirmware => ?_
  · rw [if_pos h]
    refine checkDirectory_rule.bind fun _ =>
      (recursiveRelabelAll_labels _ _ _).bind fun _ =>
        (processDirent_labels _ _ _ _ _).post_mono fun _ fs hlabels => ?_
    refine ⟨?_, haccept _ (by simp [rootNames]) h⟩
    have hsame : ∀ ino, ino ∈ markedAll entry.entries ++ [entry.ino] ↔
        ino ∈ entry.ino :: markedAll entry.entries := by
      intro ino
      simp [or_comm]
    rwa [overlay_overlay, overlay_congr hsame] at hlabels
  rw [if_neg hfirmware]
  refine .ite (fun h => ?_) fun huname => ?_
  · rw [if_pos h]
    exact checkDirectory_rule.bind fun _ =>
      (dirIterate_labels _ _).bind fun _ =>
        (processDirent_labels _ _ _ _ _).post_mono fun _ fs hlabels =>
          ⟨hlabels, haccept _ (by simp [rootNames]) h⟩
  rw [if_neg huname]
  refine .ite (fun _ => Triple.throws _) fun h =>
    (processDirent_labels _ _ _ _ _).post_mono fun _ fs hlabels =>
      ⟨hlabels, ?_⟩
  by_cases hvmlinuz : strncmpEq entry.name.length entry.name vmlinuz = true
  · exact haccept _ (by simp [rootNames]) hvmlinuz
  by_cases hlost : strncmpEq entry.name.length entry.name lostFound = true
  · exact haccept _ (by simp [rootNames]) hlost
  · refine haccept initramfs (by simp [rootNames]) ?_
    exact not_not.mp fun hinit => h ⟨hvmlinuz, hlost, hinit⟩

theorem rootIterate_labels (uname : List UInt8) (entries : List Tree) :
    Triple (Labelled fs₀ labels) (rootIterate uname entries)
      (fun _ fs => Labelled fs₀ (entries.foldl (rootChange uname) labels) fs ∧
        ∀ entry ∈ entries, Accepted uname entry) fun _ _ => True := by
  induction entries generalizing labels with
  | nil =>
      rw [rootIterate]
      exact .ret fun _ hlabels =>
        ⟨hlabels, fun _ h => absurd h List.not_mem_nil⟩
  | cons entry rest ih =>
      rw [rootIterate]
      refine (rootIterateCallback_labels uname entry).bind fun _ =>
        .assume (fun _ h => h.2) fun haccepted => ?_
      refine (ih.pre_mono fun _ h => h.1).post_mono fun _ fs h =>
        ⟨h.1, fun other hother => ?_⟩
      rcases List.mem_cons.mp hother with rfl | hother
      · exact haccepted
      · exact h.2 other hother

/-- The scan labels all inodes alike. -/
theorem scanInodes_labels (timestamp : UInt64) (markImmutable : Bool)
    (inos : List Ino) :
    Triple (Labelled fs₀ labels) (scanInodes timestamp markImmutable inos)
      (fun _ => Labelled fs₀ (overlay (inos.filter fs₀.isScanned)
        (some labelModulesObject) labels)) fun _ _ => True := by
  induction inos generalizing labels with
  | nil =>
      rw [scanInodes, List.filter_nil, overlay_nil]
      exact .ret fun _ hlabels => hlabels
  | cons ino rest ih =>
      rw [scanInodes, ← List.singleton_append, List.filter_append,
        ← overlay_overlay]
      refine Triple.bind ?_ fun _ => ih
      apply scanInode_rule
      · intro fs hfs hnot
        rw [hfs.same] at hnot
        rw [List.filter_singleton, hnot]
        change Labelled fs₀ (overlay [] (some labelModulesObject) labels) fs
        rwa [overlay_nil]
      · rintro fs hfs hscanned _ isLpfIno rfl _
        rw [hfs.same] at hscanned
        rw [List.filter_singleton, hscanned]
        exact hfs.write (linksCount_normalize _ _ _ _)

/-- What a run leaves that ends without an error. -/
theorem realMain_labels (epoch : Option CString) (uname : CString)
    (markImmutable : Bool) :
    Triple (· = fs₀) (realMain epoch (some uname) markImmutable)
      (fun _ fs' => (∀ ino, fs'.label ino =
          fs₀.root.entries.foldl (rootChange uname.bytes)
            (overlay [EXT2_ROOT_INO] (some labelModulesObject)
              (overlay (fs₀.allInos.filter fs₀.isScanned)
                (some labelModulesObject) fs₀.label)) ino) ∧
        ∀ entry ∈ fs₀.root.entries, Accepted uname.bytes entry)
      fun _ _ => True := by
  have htree : ∀ timestamp super, EpochIs epoch timestamp →
      super.firstIno = fs₀.super.firstIno →
        Triple (· = { fs₀ with super := super })
          ((some uname).elim (pure ()) (labelTree timestamp markImmutable))
          (fun _ fs => Labelled fs₀ (fs₀.root.entries.foldl
            (rootChange uname.bytes) (overlay [EXT2_ROOT_INO]
              (some labelModulesObject)
              (overlay (fs₀.allInos.filter fs₀.isScanned)
                (some labelModulesObject) fs₀.label))) fs ∧
            ∀ entry ∈ fs₀.root.entries, Accepted uname.bytes entry)
          fun _ _ => True := by
    intro timestamp super _ hfirst
    refine labelTree_rule ?_ (processDirent_labels _ _ _ _ _)
      (rootIterate_labels _ _)
    apply (scanInodes_labels timestamp markImmutable _).pre_mono
    rintro _ rfl
    exact ⟨.super fs₀ hfirst, fun _ => rfl⟩
  apply (realMain_rule htree).post_mono
  rintro _ _ ⟨timestamp, fs, _, ⟨hlabels, haccepted⟩, rfl⟩
  exact ⟨hlabels.label, haccepted⟩

end

end QubesUtils.Genfs
