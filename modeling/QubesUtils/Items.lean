/-
What a tree of names holds: the items under their names, with the times that
are fixed.  A file system shows them.
-/
import QubesUtils.Kept

namespace QubesUtils

open FileSystem

/-- What a name stands for.  The clock decides the time of a directory that
something has been added to. -/
inductive Item
  | dir (mode : UInt32) (mtime : Option Timespec)
  | file (mode : UInt32) (mtime : Timespec) (data : List UInt8)
  | link (target : List UInt8)
deriving DecidableEq

abbrev Items := Path → Option Item

def Item.isDir : Item → Bool
  | .dir _ _ => true
  | _ => false

/-- Something has been added to a directory. -/
def Item.touched : Item → Item
  | .dir mode _ => .dir mode none
  | item => item

namespace Items

def isDir (items : Items) (path : Path) : Bool :=
  (items path).any Item.isDir

def touch (items : Items) (dir : Path) : Items :=
  Function.update items dir ((items dir).map Item.touched)

/-- A new item in a directory. -/
def put (items : Items) (dir : Path) (name : Name) (item : Item) : Items :=
  Function.update (items.touch dir) (dir ++ [name]) (some item)

theorem isDir_iff {items : Items} {path : Path} :
    items.isDir path = true ↔
      ∃ mode mtime, items path = some (.dir mode mtime) := by
  rw [isDir]
  cases items path with
  | none => simp
  | some item =>
      cases item with
      | dir mode mtime => simp [Item.isDir]
      | file mode mtime data => simp [Item.isDir]
      | link target => simp [Item.isDir]

theorem put_self (items : Items) (dir : Path) (name : Name) (item : Item) :
    items.put dir name item (dir ++ [name]) = some item :=
  Function.update_self _ _ _

theorem put_of_ne (items : Items) {dir path : Path} {name : Name}
    (item : Item) (h : path ≠ dir ++ [name]) :
    items.put dir name item path = items.touch dir path :=
  Function.update_of_ne h _ _

theorem touch_self (items : Items) (dir : Path) :
    items.touch dir dir = (items dir).map Item.touched :=
  Function.update_self _ _ _

theorem touch_of_ne (items : Items) {dir path : Path} (h : path ≠ dir) :
    items.touch dir path = items path :=
  Function.update_of_ne h _ _

end Items

/-- The directory is there, and the name is not and can be. -/
structure Free (items : Items) (dir : Path) (segment : Name) : Prop where
  parent : items.isDir dir = true
  absent : items (dir ++ [segment]) = none
  short : segment.length ≤ NAME_MAX

instance (items : Items) (dir : Path) (segment : Name) :
    Decidable (Free items dir segment) :=
  decidable_of_iff (items.isDir dir = true ∧
      items (dir ++ [segment]) = none ∧ segment.length ≤ NAME_MAX)
    ⟨fun h => ⟨h.1, h.2.1, h.2.2⟩, fun h => ⟨h.parent, h.absent, h.short⟩⟩

/-- What a name of the file system stands for. -/
inductive Stands (fs : FileSystem) : Option Node → Option Item → Prop
  | absent : Stands fs none none
  | dir {attributes : Attributes} {mtime : Option Timespec}
      (h : ∀ time ∈ mtime, attributes.mtime = time) :
      Stands fs (some (.dir attributes)) (some (.dir attributes.mode mtime))
  | file {ino : Nat} {inode : Inode} (h : fs.inodes ino = inode) :
      Stands fs (some (.file ino)) (some (.file inode.attributes.mode
        inode.attributes.mtime inode.data))
  | link {target : List UInt8} :
      Stands fs (some (.link target)) (some (.link target))

/-- The file system holds the items, and nothing else. -/
def Shows (fs : FileSystem) (items : Items) : Prop :=
  ∀ path, Stands fs (fs.tree path) (items path)

/-- The file system holds the items, but for one name. -/
def ShowsBut (but : Path) (fs : FileSystem) (items : Items) : Prop :=
  ∀ path, path ≠ but → Stands fs (fs.tree path) (items path)

section

variable {fs fs' : FileSystem} {items : Items} {path dir : Path}
  {name : Name} {node : Node} {item : Item} {now : Timespec} {ino : Nat}

theorem Stands.isDir {node : Option Node} {item : Option Item}
    (h : Stands fs node item) : item.any Item.isDir = true ↔
      ∃ attributes, node = some (.dir attributes) := by
  cases h with
  | absent => simp
  | dir h => simp [Item.isDir]
  | file h => simp [Item.isDir]
  | link => simp [Item.isDir]

theorem Shows.isDir_iff (h : Shows fs items) (path : Path) :
    items.isDir path = true ↔ fs.isDir path = true :=
  (h path).isDir.trans FileSystem.isDir_iff.symm

theorem Shows.absent_iff (h : Shows fs items) (path : Path) :
    items path = none ↔ fs.tree path = none := by
  generalize hnode : fs.tree path = node
  generalize hitem : items path = item
  have hstands := h path
  rw [hnode, hitem] at hstands
  cases hstands with
  | absent => simp
  | dir _ => simp
  | file _ => simp
  | link => simp

theorem Stands.of_dir {node : Option Node} {mode : UInt32}
    {mtime : Option Timespec} (h : Stands fs node (some (.dir mode mtime))) :
    ∃ attributes, node = some (.dir attributes) ∧ attributes.mode = mode ∧
      ∀ time ∈ mtime, attributes.mtime = time := by
  cases h with
  | @dir attributes _ htime => exact ⟨attributes, rfl, rfl, htime⟩

theorem Stands.of_file {node : Option Node} {mode : UInt32}
    {mtime : Timespec} {data : List UInt8}
    (h : Stands fs node (some (.file mode mtime data))) :
    ∃ ino, node = some (.file ino) ∧
      (fs.inodes ino).attributes.mode = mode ∧
      (fs.inodes ino).attributes.mtime = mtime ∧
      (fs.inodes ino).data = data := by
  cases h with
  | @file ino inode hinode => exact ⟨ino, rfl, by rw [hinode], by rw [hinode],
      by rw [hinode]⟩

theorem Stands.congr {node : Option Node} {item : Option Item}
    (h : Stands fs node item)
    (hinodes : ∀ ino, node = some (.file ino) →
      fs'.inodes ino = fs.inodes ino) : Stands fs' node item := by
  cases h with
  | absent => exact .absent
  | dir h => exact .dir h
  | file h => exact .file ((hinodes _ rfl).trans h)
  | link => exact .link

/-! Additions. -/

/-- A directory that something has been added to. -/
theorem Stands.touched {attributes : Attributes} {item : Option Item}
    (h : Stands fs (some (.dir attributes)) item) (now : Timespec) :
    Stands fs' (some (.dir (FileSystem.touch now attributes)))
      (item.map Item.touched) := by
  cases h with
  | dir h =>
      exact @Stands.dir fs' (FileSystem.touch now attributes) none
        fun _ h => by cases h

theorem ShowsBut.added (h : Shows fs items)
    (hadded : Added fs dir name node now fs') :
    ShowsBut (dir ++ [name]) fs' (items.touch dir) := by
  intro path hentry
  by_cases hdir : path = dir
  · obtain ⟨attributes, hbefore, hafter⟩ := hadded.parent
    have hstands := h dir
    rw [hbefore] at hstands
    rw [hdir, hafter, Items.touch_self]
    exact hstands.touched now
  · rw [hadded.frame path hdir hentry, Items.touch_of_ne _ hdir]
    exact (h path).congr fun ino _ => by rw [hadded.inodes]

theorem ShowsBut.shows_put (h : ShowsBut (dir ++ [name]) fs (items.touch dir))
    (hentry : Stands fs (fs.tree (dir ++ [name])) (some item)) :
    Shows fs (items.put dir name item) := by
  intro path
  by_cases hpath : path = dir ++ [name]
  · rw [hpath, Items.put_self]
    exact hentry
  · rw [Items.put_of_ne _ _ hpath]
    exact h path hpath

theorem Shows.added (h : Shows fs items)
    (hadded : Added fs dir name node now fs')
    (hnode : Stands fs' (some node) (some item)) :
    Shows fs' (items.put dir name item) := by
  refine (ShowsBut.added h hadded).shows_put ?_
  rw [hadded.entry]
  exact hnode

/-! Inodes. -/

theorem Shows.alloc (h : Shows fs items) (inode : Inode) :
    Shows (fs.alloc inode) items :=
  fun path => (h path).congr fun ino hnode =>
    Function.update_of_ne (Nat.ne_of_lt (fs.allocated path ino hnode)) _ _

/-- A change of a file that has no other name than one. -/
theorem ShowsBut.setInode {but : Path} (h : ShowsBut but fs items)
    (halone : ∀ path, fs.tree path = some (.file ino) → path = but)
    (f : Inode → Inode) : ShowsBut but (fs.setInode ino f) items := by
  intro path hpath
  refine (h path hpath).congr fun other hnode => ?_
  have hne : other ≠ ino := fun heq =>
    hpath (halone path (heq ▸ hnode))
  exact Function.update_of_ne hne _ _

theorem Shows.setInode (h : Shows fs items)
    (hnameless : ∀ path, fs.tree path ≠ some (.file ino))
    (f : Inode → Inode) : Shows (fs.setInode ino f) items := by
  intro path
  refine (h path).congr fun other hnode => ?_
  have hne : other ≠ ino := fun heq => hnameless path (heq ▸ hnode)
  exact Function.update_of_ne hne _ _

/-! Directories. -/

theorem Shows.setAttributes (h : Shows fs items) {attributes : Attributes}
    (hdir : fs.tree dir = some (.dir attributes))
    (f : Attributes → Attributes) {mtime : Option Timespec}
    (hmtime : ∀ time ∈ mtime, (f attributes).mtime = time) :
    Shows (fs.setAttributes dir f) (Function.update items dir
      (some (.dir (f attributes).mode mtime))) := by
  intro path
  by_cases hpath : path = dir
  · subst hpath
    rw [Function.update_self]
    rcases setAttributes_tree fs path f path with hsame | ⟨_, old, hold, hnew⟩
    · simp only [FileSystem.setAttributes, if_true, hdir]
      exact .dir hmtime
    · rw [hdir, Option.some.injEq, Node.dir.injEq] at hold
      rw [hnew, ← hold]
      exact .dir hmtime
  · rw [Function.update_of_ne hpath]
    rcases setAttributes_tree fs dir f path with hsame | ⟨heq, _⟩
    · rw [hsame]
      exact (h path).congr fun _ _ => rfl
    · exact absurd heq hpath

end

/-! What a file system holds. -/

def Node.item (fs : FileSystem) : Node → Item
  | .dir attributes => .dir attributes.mode (some attributes.mtime)
  | .file ino => .file (fs.inodes ino).attributes.mode
      (fs.inodes ino).attributes.mtime (fs.inodes ino).data
  | .link target => .link target

def FileSystem.items (fs : FileSystem) : Items :=
  fun path => (fs.tree path).map (Node.item fs)

theorem FileSystem.shows_items (fs : FileSystem) : Shows fs fs.items := by
  intro path
  rw [FileSystem.items]
  cases fs.tree path with
  | none => exact .absent
  | some node =>
      cases node with
      | dir attributes =>
          exact @Stands.dir fs attributes (some attributes.mtime)
            fun _ h => Option.some.inj h
      | file ino => exact .file rfl
      | link target => exact .link

theorem FileSystem.items_isSome (fs : FileSystem) (path : Path) :
    (fs.items path).isSome = (fs.tree path).isSome :=
  Option.isSome_map

/-- All times are known at first. -/
theorem FileSystem.items_time (fs : FileSystem) (path : Path)
    (mode : UInt32) : fs.items path ≠ some (.dir mode none) := by
  rw [FileSystem.items]
  cases fs.tree path with
  | none => simp
  | some node =>
      cases node with
      | dir attributes => simp [Node.item]
      | file ino => simp [Node.item]
      | link target => simp [Node.item]

/-- What one name stands for in two file systems. -/
inductive AlikeNodes (fs fs' : FileSystem) (clock : Prop) :
    Option Node → Option Node → Prop
  | absent : AlikeNodes fs fs' clock none none
  | dir {attributes attributes' : Attributes}
      (hmode : attributes.mode = attributes'.mode)
      (hmtime : ¬ clock → attributes.mtime = attributes'.mtime) :
      AlikeNodes fs fs' clock (some (.dir attributes)) (some (.dir attributes'))
  | file {ino ino' : Nat}
      (hmode : (fs.inodes ino).attributes.mode =
        (fs'.inodes ino').attributes.mode)
      (hmtime : (fs.inodes ino).attributes.mtime =
        (fs'.inodes ino').attributes.mtime)
      (hdata : (fs.inodes ino).data = (fs'.inodes ino').data) :
      AlikeNodes fs fs' clock (some (.file ino)) (some (.file ino'))
  | link {target : List UInt8} :
      AlikeNodes fs fs' clock (some (.link target)) (some (.link target))

/-- The same names, contents, permissions and times, but for the times of
directories that the clock decides. -/
def AlikeTrees (clock : Path → Prop) (fs fs' : FileSystem) : Prop :=
  ∀ path, AlikeNodes fs fs' (clock path) (fs.tree path) (fs'.tree path)

theorem Stands.alike {fs fs' : FileSystem} {clock : Prop}
    {node node' : Option Node} {item : Option Item} (h : Stands fs node item)
    (h' : Stands fs' node' item)
    (hclock : ∀ mode, item = some (.dir mode none) → clock) :
    AlikeNodes fs fs' clock node node' := by
  match item, h, h' with
  | none, .absent, .absent => exact .absent
  | some (.dir mode mtime), h, h' =>
      obtain ⟨attributes, rfl, hmode, htime⟩ := h.of_dir
      obtain ⟨attributes', rfl, hmode', htime'⟩ := h'.of_dir
      refine .dir (hmode.trans hmode'.symm) fun hnot => ?_
      cases mtime with
      | none => exact absurd (hclock mode rfl) hnot
      | some time => exact (htime time rfl).trans (htime' time rfl).symm
  | some (.file mode mtime data), h, h' =>
      obtain ⟨ino, rfl, hmode, htime, hdata⟩ := h.of_file
      obtain ⟨ino', rfl, hmode', htime', hdata'⟩ := h'.of_file
      exact .file (hmode.trans hmode'.symm) (htime.trans htime'.symm)
        (hdata.trans hdata'.symm)
  | some (.link target), .link, .link => exact .link

theorem Shows.alike {fs fs' : FileSystem} {items : Items}
    {clock : Path → Prop} (h : Shows fs items) (h' : Shows fs' items)
    (hclock : ∀ path mode, items path = some (.dir mode none) → clock path) :
    AlikeTrees clock fs fs' :=
  fun path => (h path).alike (h' path) (hclock path)

/-- A directory is in directories all the way down. -/
theorem FileSystem.isDir_of_append {fs : FileSystem} (path rest : Path)
    (h : fs.isDir (path ++ rest) = true) : fs.isDir path = true := by
  induction rest using List.reverseRecOn with
  | nil =>
      rw [List.append_nil] at h
      exact h
  | append_singleton rest last ih =>
      refine ih ?_
      obtain ⟨attributes, hnode⟩ := FileSystem.isDir_iff.mp h
      rw [← List.append_assoc] at hnode
      exact FileSystem.isDir_iff.mpr
        (fs.parents (path ++ rest) last (by rw [hnode]; simp))

end QubesUtils
