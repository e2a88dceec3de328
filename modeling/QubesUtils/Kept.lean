/-
What a change of the file system leaves alone: names of files and links, the
inodes that were there, and directories as directories.
-/
import QubesUtils.FileSystem

namespace QubesUtils

open FileSystem

/-- Everything but directories is as it was; more may have come. -/
structure Kept (start fs : FileSystem) : Prop where
  files : ∀ path ino, start.tree path = some (.file ino) →
    fs.tree path = some (.file ino)
  links : ∀ path target, start.tree path = some (.link target) →
    fs.tree path = some (.link target)
  dirs : ∀ path, start.isDir path = true → fs.isDir path = true
  inodes : ∀ ino, ino < start.next → fs.inodes ino = start.inodes ino
  next : start.next ≤ fs.next

namespace Kept

variable {start fs fs' : FileSystem}

theorem refl (fs : FileSystem) : Kept fs fs :=
  ⟨fun _ _ h => h, fun _ _ h => h, fun _ h => h, fun _ _ => rfl,
    Nat.le_refl _⟩

theorem trans (h : Kept start fs) (h' : Kept fs fs') : Kept start fs' where
  files path ino hpath := h'.files path ino (h.files path ino hpath)
  links path target hpath := h'.links path target (h.links path target hpath)
  dirs path hpath := h'.dirs path (h.dirs path hpath)
  inodes ino hino := by
    rw [h'.inodes ino (Nat.lt_of_lt_of_le hino h.next), h.inodes ino hino]
  next := Nat.le_trans h.next h'.next

theorem setAttributes (fs : FileSystem) (dir : Path)
    (f : Attributes → Attributes) : Kept fs (fs.setAttributes dir f) where
  files path ino hpath := by
    rcases setAttributes_tree fs dir f path with h | ⟨_, attributes, h, _⟩
    · rw [h, hpath]
    · rw [hpath] at h
      cases h
  links path target hpath := by
    rcases setAttributes_tree fs dir f path with h | ⟨_, attributes, h, _⟩
    · rw [h, hpath]
    · rw [hpath] at h
      cases h
  dirs path hpath := by
    obtain ⟨attributes, hattributes⟩ := isDir_iff.mp hpath
    rcases setAttributes_tree fs dir f path with h | ⟨_, old, _, h⟩
    · exact isDir_iff.mpr ⟨attributes, h.trans hattributes⟩
    · exact isDir_iff.mpr ⟨f old, h⟩
  inodes _ _ := rfl
  next := Nat.le_refl _

/-- A file that was not there at the start may change. -/
theorem setInode (h : Kept start fs) {ino : Nat} (hino : start.next ≤ ino)
    (f : Inode → Inode) : Kept start (fs.setInode ino f) where
  files := h.files
  links := h.links
  dirs := h.dirs
  inodes i hi := by
    have hne : i ≠ ino := fun heq => by omega
    rw [FileSystem.setInode]
    simp only
    rw [Function.update_of_ne hne, h.inodes i hi]
  next := h.next

theorem alloc (fs : FileSystem) (inode : Inode) : Kept fs (fs.alloc inode) where
  files _ _ h := h
  links _ _ h := h
  dirs _ h := h
  inodes ino hino := by
    rw [FileSystem.alloc]
    exact Function.update_of_ne (Nat.ne_of_lt hino) _ _
  next := Nat.le_succ _

theorem added {dir : Path} {name : Name} {node : Node} {now : Timespec}
    (h : Added fs dir name node now fs') : Kept fs fs' where
  files path ino hpath := by
    obtain ⟨attributes, hdir, _⟩ := h.parent
    rw [h.frame path]
    · exact hpath
    · rintro rfl
      rw [hpath] at hdir
      cases hdir
    · rintro rfl
      rw [h.free] at hpath
      cases hpath
  links path target hpath := by
    obtain ⟨attributes, hdir, _⟩ := h.parent
    rw [h.frame path]
    · exact hpath
    · rintro rfl
      rw [hpath] at hdir
      cases hdir
    · rintro rfl
      rw [h.free] at hpath
      cases hpath
  dirs path hpath := by
    obtain ⟨attributes, _, hdir⟩ := h.parent
    by_cases hparent : path = dir
    · rw [hparent]
      exact isDir_iff.mpr ⟨_, hdir⟩
    · obtain ⟨old, hold⟩ := isDir_iff.mp hpath
      refine isDir_iff.mpr ⟨old, ?_⟩
      rw [h.frame path hparent]
      · exact hold
      · rintro rfl
        rw [h.free] at hold
        cases hold
  inodes ino _ := by rw [h.inodes]
  next := Nat.le_of_eq h.next.symm

/-- `fchmod` and `futimens` on a directory, or on a file that was not there
at the start. -/
theorem change (h : Kept start fs) {object : Object}
    (hobject : ∀ ino, object = .file ino → start.next ≤ ino)
    (f : Attributes → Attributes) : Kept start (fs.change object f) := by
  cases object with
  | file ino =>
      exact h.setInode (hobject ino rfl) fun inode =>
        ⟨f inode.attributes, inode.data⟩
  | dir path => exact h.trans (.setAttributes fs path f)

end Kept

/-! Links. -/

/-- Every link of the second state is in the first. -/
def NoNewLinks (fs fs' : FileSystem) : Prop :=
  ∀ path target, fs'.tree path = some (.link target) →
    fs.tree path = some (.link target)

theorem noNewLinks_setAttributes (fs : FileSystem) (dir : Path)
    (f : Attributes → Attributes) :
    NoNewLinks fs (fs.setAttributes dir f) := by
  intro path target hpath
  rcases setAttributes_tree fs dir f path with h | ⟨_, attributes, _, h⟩
  · rw [← h, hpath]
  · rw [hpath] at h
    cases h

theorem noNewLinks_change (fs : FileSystem) (object : Object)
    (f : Attributes → Attributes) : NoNewLinks fs (fs.change object f) := by
  cases object with
  | file ino => exact fun _ _ h => h
  | dir path => exact noNewLinks_setAttributes fs path f

/-- The only object that is new after an addition is the one that was
added. -/
theorem FileSystem.Added.entry_cases {fs fs' : FileSystem} {dir : Path}
    {name : Name} {node node' : Node} {now : Timespec}
    (h : Added fs dir name node now fs')
    (hnot : ∀ attributes, node' ≠ .dir attributes) {path : Path}
    (hpath : fs'.tree path = some node') :
    fs.tree path = some node' ∨ path = dir ++ [name] ∧ node = node' := by
  by_cases hentry : path = dir ++ [name]
  · rw [hentry, h.entry, Option.some.injEq] at hpath
    exact Or.inr ⟨hentry, hpath⟩
  · refine Or.inl ?_
    rw [← h.frame path _ hentry]
    · exact hpath
    · rintro rfl
      obtain ⟨_, _, hdir⟩ := h.parent
      rw [hdir, Option.some.injEq] at hpath
      exact hnot _ hpath.symm

theorem setAttributes_file {fs : FileSystem} {dir path : Path}
    {f : Attributes → Attributes} {ino : Nat}
    (h : (fs.setAttributes dir f).tree path = some (.file ino)) :
    fs.tree path = some (.file ino) := by
  rcases setAttributes_tree fs dir f path with hsame | ⟨_, _, _, hdir⟩
  · rw [← hsame, h]
  · rw [hdir] at h
    cases h

end QubesUtils
