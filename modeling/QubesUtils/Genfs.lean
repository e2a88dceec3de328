/-
`genfs.c`: the inodes of a file system of kernel modules get fixed owners,
modes, times and labels.  The tree of names is given; inodes and labels are
the state.
-/
import QubesUtils.CNumber
import QubesUtils.Hoare

namespace QubesUtils.Genfs

open CNumber

/-! The file system. -/

abbrev Ino := Nat

def EXT2_ROOT_INO : Ino := 2
def EXT2_DYNAMIC_REV : UInt32 := 1
def EXT2_FT_REG_FILE : UInt8 := 1
def EXT2_FT_DIR : UInt8 := 2
def EXT2_NAME_LEN : Nat := 255
def EXT2_IMMUTABLE_FL : UInt32 := 0x10

def labelModulesObject : String := "system_u:object_r:modules_object_t:s0"
def labelModulesDep : String := "system_u:object_r:modules_dep_t:s0"
def labelUsr : String := "system_u:object_r:usr_t:s0"
def labelLib : String := "system_u:object_r:lib_t:s0"

/-- An entry of a directory: its name, the inode, the type that is recorded
in the entry, and the entries behind it but for `.` and `..`. -/
inductive Tree
  | node (name : List UInt8) (ino : Ino) (fileType : UInt8)
      (entries : List Tree)

namespace Tree

def name : Tree → List UInt8
  | node name _ _ _ => name

def ino : Tree → Ino
  | node _ ino _ _ => ino

def fileType : Tree → UInt8
  | node _ _ fileType _ => fileType

def entries : Tree → List Tree
  | node _ _ _ entries => entries

end Tree

/-- `struct ext2_inode_large` -/
structure Inode where
  mode : UInt16
  linksCount : UInt16
  uid : UInt32
  gid : UInt32
  flags : UInt32
  ctime : UInt32
  mtime : UInt32
  atime : UInt32
  crtime : UInt32
  ctimeExtra : UInt32
  mtimeExtra : UInt32
  atimeExtra : UInt32
  crtimeExtra : UInt32
  generation : UInt32
  version : UInt32
  versionHi : UInt32
  projid : UInt32
deriving DecidableEq

structure Superblock where
  firstErrorTime : UInt32
  lastErrorTime : UInt32
  firstErrorTimeHi : UInt8
  lastErrorTimeHi : UInt8
  firstErrorIno : UInt32
  revLevel : UInt32
  inodeSize : UInt16
  firstIno : Ino
  lpfIno : Ino
  mtime : UInt32
  wtime : UInt32
  mkfsTime : UInt32
  lastcheck : UInt32
  mtimeHi : UInt8
  wtimeHi : UInt8
  mkfsTimeHi : UInt8
  lastcheckHi : UInt8
  checkinterval : UInt32
deriving DecidableEq

/-- The file system, and the inodes that have been written so far. -/
structure Ext2 where
  super : Superblock
  inodesCount : Nat
  root : Tree
  inodes : Ino → Inode
  xattrs : Ino → List (String × String)
  written : List Ino

def Ext2.setXattrs (fs : Ext2) (ino : Ino) (xattrs : List (String × String)) :
    Ext2 :=
  { fs with xattrs := Function.update fs.xattrs ino xattrs }

def Ext2.writeInode (fs : Ext2) (ino : Ino) (inode : Inode) : Ext2 :=
  { fs with
    inodes := Function.update fs.inodes ino inode
    written := fs.written ++ [ino] }

inductive GenfsError
  | invalidEpoch
  | trailingGarbage
  | epochTooLarge (timestamp : UInt64)
  | errorInThePast
  | revision (revLevel : UInt32)
  | inodeSize (size : UInt16)
  | noLostFound
  | setuid (ino : Ino) (mode : UInt16)
  | writable (ino : Ino) (mode : UInt16)
  | neitherType (ino : Ino) (mode : UInt16)
  | wrongXattrs (ino : Ino) (path name : List UInt8)
  | assertion
  | nulInName (ino : Ino)
  | unexpectedInode (name : List UInt8)
  | notDirectory (path name : List UInt8)
  | notRegular (path name : List UInt8)
  | iterate
deriving DecidableEq

abbrev Program := EStateM GenfsError Ext2

/-! Modes. -/

def linuxSIsDir (mode : UInt16) : Bool := mode &&& 0xF000 == 0x4000
def linuxSIsReg (mode : UInt16) : Bool := mode &&& 0xF000 == 0x8000
def linuxSIsLnk (mode : UInt16) : Bool := mode &&& 0xF000 == 0xA000

/-! Strings with a length. -/

/-- `!strncmp(name, s, n)`, on what is in front of the terminators. -/
def strncmpEq : Nat → List UInt8 → List UInt8 → Bool
  | 0, _, _ => true
  | _ + 1, [], [] => true
  | n + 1, byte :: name, byte' :: s =>
      byte == byte' && (byte == 0 || strncmpEq n name s)
  | _ + 1, byte :: _, [] => byte == 0
  | _ + 1, [], byte :: _ => byte == 0

def firmware : List UInt8 := [0x66, 0x69, 0x72, 0x6D, 0x77, 0x61, 0x72, 0x65]
def vmlinuz : List UInt8 := [0x76, 0x6D, 0x6C, 0x69, 0x6E, 0x75, 0x7A]
def initramfs : List UInt8 :=
  [0x69, 0x6E, 0x69, 0x74, 0x72, 0x61, 0x6D, 0x66, 0x73]
def lostFound : List UInt8 :=
  [0x6C, 0x6F, 0x73, 0x74, 0x2B, 0x66, 0x6F, 0x75, 0x6E, 0x64]
def build : List UInt8 := [0x62, 0x75, 0x69, 0x6C, 0x64]

/-- `modules.` -/
def modulesDot : List UInt8 :=
  [0x6D, 0x6F, 0x64, 0x75, 0x6C, 0x65, 0x73, 0x2E]

def dots : List UInt8 := [0x2E, 0x2E]

/-- `name_len <= 2 && !memcmp(name, "..", name_len)` -/
def isDots (name : List UInt8) : Bool :=
  decide (name.length ≤ 2) && name == dots.take name.length

/-! Labels. -/

/-- `ext2fs_xattr_set` -/
def setXattr (name value : String) :
    List (String × String) → List (String × String)
  | [] => [(name, value)]
  | (name', value') :: rest =>
      if name' = name then (name, value) :: rest
      else (name', value') :: setXattr name value rest

def setLabel (path : List UInt8) (ino : Ino) (name : List UInt8)
    (selinuxLabel : String) : Program Unit := do
  let fs ← get
  let xattrs := setXattr "security.selinux" selinuxLabel (fs.xattrs ino)
  set (fs.setXattrs ino xattrs)
  if xattrs.length ≠ 1 then
    throw (.wrongXattrs ino path name)
  else
    pure ()

/-- `qubes_write_inode_full` -/
def writeInode (ino : Ino) (inode : Inode) : Program Unit :=
  modify fun fs => fs.writeInode ino inode

def processDirent (path : List UInt8) (ino : Ino) (name : List UInt8)
    (selinuxLabel : String) (forceMutable : Bool) : Program Unit := do
  setLabel path ino name selinuxLabel
  let fs ← get
  let inode := fs.inodes ino
  writeInode ino (if forceMutable
    then { inode with flags := inode.flags &&& ~~~EXT2_IMMUTABLE_FL }
    else inode)

/-! Callbacks.  `ext2fs_dir_iterate2` calls them for the entries of a
directory; what is not a directory makes it fail. -/

/-- `ext2fs_check_directory` -/
def checkDirectory (ino : Ino) : Program Unit := do
  let fs ← get
  if linuxSIsDir (fs.inodes ino).mode then pure () else throw .iterate

mutual

/-- `recursive_relabel` -/
def recursiveRelabel (label : String) : Tree → Program Unit
  | .node name ino fileType entries =>
      if ¬ name.length < EXT2_NAME_LEN then
        throw .assertion
      else if isDots name then
        pure ()
      else do
        processDirent [] ino name label false
        if fileType = EXT2_FT_DIR then do
          checkDirectory ino
          recursiveRelabelAll label entries
        else
          pure ()

def recursiveRelabelAll (label : String) : List Tree → Program Unit
  | [] => pure ()
  | entry :: rest => do
      recursiveRelabel label entry
      recursiveRelabelAll label rest

end

section

variable (uname : List UInt8)

def dirIterateCallback (entry : Tree) : Program Unit :=
  if ¬ entry.name.length < EXT2_NAME_LEN then
    throw .assertion
  else if entry.name = build then
    if entry.fileType ≠ EXT2_FT_DIR then
      throw (.notDirectory uname entry.name)
    else do
      processDirent uname entry.ino entry.name labelUsr true
      checkDirectory entry.ino
      recursiveRelabelAll labelUsr entry.entries
  else if entry.name.length ≥ 8 ∧ entry.name.take 8 = modulesDot then
    if entry.fileType ≠ EXT2_FT_REG_FILE then
      throw (.notRegular uname entry.name)
    else
      processDirent uname entry.ino entry.name labelModulesDep true
  else
    pure ()

def dirIterate : List Tree → Program Unit
  | [] => pure ()
  | entry :: rest => do
      dirIterateCallback uname entry
      dirIterate rest

def rootIterateCallback (entry : Tree) : Program Unit :=
  if isDots entry.name then
    pure ()
  else if 0 ∈ entry.name then
    throw (.nulInName entry.ino)
  else if strncmpEq entry.name.length entry.name firmware then do
    checkDirectory entry.ino
    recursiveRelabelAll labelLib entry.entries
    processDirent [] entry.ino entry.name labelLib false
  else if strncmpEq entry.name.length entry.name uname then do
    checkDirectory entry.ino
    dirIterate uname entry.entries
    processDirent [] entry.ino entry.name labelModulesObject false
  else if ¬ strncmpEq entry.name.length entry.name vmlinuz ∧
      ¬ strncmpEq entry.name.length entry.name lostFound ∧
      ¬ strncmpEq entry.name.length entry.name initramfs then
    throw (.unexpectedInode entry.name)
  else
    processDirent [] entry.ino entry.name labelModulesObject false

def rootIterate : List Tree → Program Unit
  | [] => pure ()
  | entry :: rest => do
      rootIterateCallback uname entry
      rootIterate rest

end

/-! The scan. -/

/-- What follows `strtoull`. -/
def checkEpoch (converted : Converted) : Except GenfsError UInt64 :=
  if converted.endp.head? ≠ some 0 then
    .error .trailingGarbage
  else if converted.value ≥ 0x400000000 then
    .error (.epochTooLarge converted.value)
  else
    .ok converted.value

/-- `SOURCE_DATE_EPOCH` -/
def parseEpoch (ptr : CString) : Except GenfsError UInt64 :=
  if ptr.bytes.headD 0 < 0x31 ∨ ptr.bytes.headD 0 > 0x39 then
    .error .invalidEpoch
  else
    checkEpoch (strtoull (ptr.bytes ++ [0]) 10)

/-- The times of an inode. -/
def Inode.stamp (inode : Inode) (timestamp : UInt64) : Inode :=
  if timestamp ≠ 0 then
    { inode with
      ctime := (timestamp &&& 0xFFFFFFFF).toUInt32
      mtime := (timestamp &&& 0xFFFFFFFF).toUInt32
      atime := (timestamp &&& 0xFFFFFFFF).toUInt32
      crtime := (timestamp &&& 0xFFFFFFFF).toUInt32
      ctimeExtra := (timestamp >>> 32).toUInt32
      mtimeExtra := (timestamp >>> 32).toUInt32
      atimeExtra := (timestamp >>> 32).toUInt32
      crtimeExtra := (timestamp >>> 32).toUInt32 }
  else
    inode

/-- The mode and the flags of an inode that is a directory, a regular file or
a symbolic link. -/
def Inode.normalize (inode : Inode) (isLpfIno markImmutable : Bool) : Inode :=
  let mode :=
    if linuxSIsDir inode.mode then
      (if isLpfIno then 0o700 else 0o755) ||| (inode.mode &&& ~~~0o777)
    else inode.mode ||| 0o644
  let immutable := markImmutable &&
    (linuxSIsReg mode || (isLpfIno && linuxSIsDir mode))
  { inode with
    mode := mode
    flags := if immutable then inode.flags ||| EXT2_IMMUTABLE_FL
      else inode.flags &&& ~~~EXT2_IMMUTABLE_FL
    uid := 0
    gid := 0
    generation := 0
    version := 0
    versionHi := 0
    projid := 0 }

/-- The inode is scanned: it is not reserved, and not deleted. -/
def Ext2.isScanned (fs : Ext2) (ino : Ino) : Bool :=
  (ino == EXT2_ROOT_INO || decide (fs.super.firstIno ≤ ino)) &&
    (fs.inodes ino).linksCount != 0

section

variable (timestamp : UInt64) (markImmutable : Bool)

def scanInode (ino : Ino) : Program Unit := do
  let fs ← get
  if fs.isScanned ino = false then
    pure ()
  else
    let inode := (fs.inodes ino).stamp timestamp
    if inode.mode &&& 0o7000 ≠ 0 then
      throw (.setuid ino (inode.mode &&& 0o7777))
    else if linuxSIsLnk inode.mode = false ∧ inode.mode &&& 0o022 ≠ 0 then
      throw (.writable ino (inode.mode &&& 0o7777))
    else if linuxSIsDir inode.mode = false ∧ linuxSIsReg inode.mode = false ∧
        linuxSIsLnk inode.mode = false then
      throw (.neitherType ino inode.mode)
    else do
      setLabel [] ino [] labelModulesObject
      writeInode ino (inode.normalize (ino == fs.super.lpfIno) markImmutable)

def scanInodes : List Ino → Program Unit
  | [] => pure ()
  | ino :: rest => do
      scanInode timestamp markImmutable ino
      scanInodes rest

end

/-! The program. -/

def checkSuper : Program Unit := do
  let fs ← get
  if fs.super.firstErrorTime ≠ 0 ∨ fs.super.lastErrorTime ≠ 0 ∨
      fs.super.firstErrorTimeHi ≠ 0 ∨ fs.super.lastErrorTimeHi ≠ 0 ∨
      fs.super.firstErrorIno ≠ 0 then
    throw .errorInThePast
  else if fs.super.revLevel ≠ EXT2_DYNAMIC_REV then
    throw (.revision fs.super.revLevel)
  else if fs.super.inodeSize < 160 then
    throw (.inodeSize fs.super.inodeSize)
  else if fs.super.lpfIno = 0 then
    -- `ext2fs_namei`
    match fs.root.entries.find? fun entry => entry.name == lostFound with
    | none => throw .noLostFound
    | some entry =>
        set { fs with super := { fs.super with lpfIno := entry.ino } }
  else
    pure ()

/-- The times of the superblock. -/
def stampSuper (timestamp : UInt64) (super : Superblock) : Superblock :=
  if timestamp ≠ 0 then
    { super with
      mtime := (timestamp &&& 0xFFFFFFFF).toUInt32
      wtime := (timestamp &&& 0xFFFFFFFF).toUInt32
      mkfsTime := (timestamp &&& 0xFFFFFFFF).toUInt32
      lastcheck := (timestamp &&& 0xFFFFFFFF).toUInt32
      mtimeHi := (timestamp >>> 32).toUInt32.toUInt8
      wtimeHi := (timestamp >>> 32).toUInt32.toUInt8
      mkfsTimeHi := (timestamp >>> 32).toUInt32.toUInt8
      lastcheckHi := (timestamp >>> 32).toUInt32.toUInt8
      checkinterval := 0 }
  else
    { super with checkinterval := 0 }

/-- What is done with a name of a kernel. -/
def labelTree (timestamp : UInt64) (markImmutable : Bool)
    (uname : CString) : Program Unit := do
  let fs ← get
  scanInodes timestamp markImmutable ((List.range fs.inodesCount).map (· + 1))
  processDirent [] EXT2_ROOT_INO [] labelModulesObject true
  checkDirectory EXT2_ROOT_INO
  rootIterate uname.bytes fs.root.entries

/-- `real_main`; a file system that is opened has not been written yet. -/
def realMain (epoch uname : Option CString) (markImmutable : Bool) :
    Program Unit := do
  let timestamp ← epoch.elim (pure 0) fun ptr =>
    MonadExcept.ofExcept (parseEpoch ptr)
  checkSuper
  uname.elim (pure ()) (labelTree timestamp markImmutable)
  modify fun fs => { fs with super := stampSuper timestamp fs.super }

end QubesUtils.Genfs
