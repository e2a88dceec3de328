/-
The times that `genfs.c` writes, as a file system reads them: those of the
superblock always say what was asked for, those of an inode say it in the
first half of each turn of their 32 bits.
-/
import QubesUtils.GenfsWalk

namespace QubesUtils.Genfs

open Hoare CNumber Numeral

/-! How times are read. -/

/-- A time of an inode: a signed number, and two bits of the extra field. -/
def decodeInodeTime (field extra : UInt32) : Int :=
  field.toBitVec.toInt + 2 ^ 32 * (extra.toNat % 4 : Nat)

/-- A time of the superblock: an unsigned number, and a byte. -/
def decodeSuperTime (low : UInt32) (hi : UInt8) : Int :=
  (low.toNat + 2 ^ 32 * hi.toNat : Nat)

structure InodeTimes (time : Int) (inode : Inode) : Prop where
  ctime : decodeInodeTime inode.ctime inode.ctimeExtra = time
  mtime : decodeInodeTime inode.mtime inode.mtimeExtra = time
  atime : decodeInodeTime inode.atime inode.atimeExtra = time
  crtime : decodeInodeTime inode.crtime inode.crtimeExtra = time

structure SuperTimes (time : Int) (super : Superblock) : Prop where
  mtime : decodeSuperTime super.mtime super.mtimeHi = time
  wtime : decodeSuperTime super.wtime super.wtimeHi = time
  mkfsTime : decodeSuperTime super.mkfsTime super.mkfsTimeHi = time
  lastcheck : decodeSuperTime super.lastcheck super.lastcheckHi = time

section

variable {timestamp : UInt64}

theorem toNat_low (timestamp : UInt64) :
    (timestamp &&& 0xFFFFFFFF).toUInt32.toNat = timestamp.toNat % 2 ^ 32 := by
  have hmask := Nat.and_two_pow_sub_one_eq_mod timestamp.toNat 32
  rw [UInt64.toNat_toUInt32, UInt64.toNat_and]
  simp at hmask ⊢
  omega

theorem toNat_high (h : timestamp.toNat < 2 ^ 34) :
    (timestamp >>> 32).toUInt32.toNat = timestamp.toNat / 2 ^ 32 := by
  have hshift : (timestamp >>> 32).toNat = timestamp.toNat / 2 ^ 32 := by
    rw [UInt64.toNat_shiftRight, Nat.shiftRight_eq_div_pow]
    rfl
  rw [UInt64.toNat_toUInt32, hshift]
  omega

/-- The field of an inode is read as a negative number when its highest bit is
set. -/
theorem decodeInodeTime_iff (h : timestamp.toNat < 2 ^ 34) :
    decodeInodeTime (timestamp &&& 0xFFFFFFFF).toUInt32
        (timestamp >>> 32).toUInt32 = timestamp.toNat ↔
      timestamp.toNat % 2 ^ 32 < 2 ^ 31 := by
  have hfield : (timestamp &&& 0xFFFFFFFF).toUInt32.toBitVec.toNat =
      timestamp.toNat % 2 ^ 32 := toNat_low timestamp
  rw [decodeInodeTime, toNat_high h, BitVec.toInt_eq_toNat_cond, hfield]
  split
  · omega
  · omega

theorem decodeSuperTime_eq (h : timestamp.toNat < 2 ^ 34) :
    decodeSuperTime (timestamp &&& 0xFFFFFFFF).toUInt32
      (timestamp >>> 32).toUInt32.toUInt8 = timestamp.toNat := by
  rw [decodeSuperTime, toNat_low, UInt32.toNat_toUInt8, toNat_high h]
  omega

/-- The inode has the times that are asked for. -/
def Stamped (timestamp : UInt64) (inode : Inode) : Prop :=
  inode.stamp timestamp = inode

theorem stamp_stamp (inode : Inode) (timestamp : UInt64) :
    Stamped timestamp (inode.stamp timestamp) := by
  rw [Stamped, Inode.stamp, Inode.stamp]
  split
  · rfl
  · rfl

theorem stamp_normalize (inode : Inode) (timestamp : UInt64)
    (isLpfIno markImmutable : Bool) :
    (inode.normalize isLpfIno markImmutable).stamp timestamp =
      (inode.stamp timestamp).normalize isLpfIno markImmutable := by
  rw [Inode.stamp, Inode.stamp]
  split
  · rfl
  · rfl

theorem Stamped.flags {inode : Inode} (h : Stamped timestamp inode)
    (flags : UInt32) : Stamped timestamp { inode with flags := flags } := by
  rw [Stamped, Inode.stamp] at h ⊢
  split
  · rename_i hne
    rw [if_pos hne] at h
    exact congrArg (fun inode : Inode => { inode with flags := flags }) h
  · rfl

theorem Stamped.times_iff {inode : Inode} (hstamped : Stamped timestamp inode)
    (hne : timestamp ≠ 0) (h : timestamp.toNat < 2 ^ 34) :
    InodeTimes timestamp.toNat inode ↔ timestamp.toNat % 2 ^ 32 < 2 ^ 31 := by
  rw [← hstamped, Inode.stamp, if_pos hne]
  constructor
  · exact fun htimes => (decodeInodeTime_iff h).mp htimes.ctime
  · intro hlow
    have htime := (decodeInodeTime_iff h).mpr hlow
    exact ⟨htime, htime, htime, htime⟩

theorem stampSuper_times (super : Superblock) (hne : timestamp ≠ 0)
    (h : timestamp.toNat < 2 ^ 34) :
    SuperTimes timestamp.toNat (stampSuper timestamp super) := by
  rw [stampSuper, if_pos hne]
  have htime := decodeSuperTime_eq h
  exact ⟨htime, htime, htime, htime⟩

end

/-! What is asked for. -/

theorem head_nonzero {byte : UInt8} (h : ¬ (byte < 0x31 ∨ byte > 0x39)) :
    isDigit 10 byte = true ∧ byte ≠ zero := by
  revert byte
  apply forall_byte
  decide +kernel

theorem checkEpoch_ok {converted : Converted} {timestamp : UInt64}
    (h : checkEpoch converted = .ok timestamp) :
    converted.endp.head? = some 0 ∧ converted.value = timestamp ∧
      timestamp.toNat < 2 ^ 34 := by
  rw [checkEpoch] at h
  split at h
  · cases h
  rename_i hend
  split at h
  · cases h
  rename_i hbound
  obtain rfl := Except.ok.inj h
  exact ⟨not_not.mp hend, rfl,
    UInt64.lt_iff_toNat_lt.mp (UInt64.not_le.mp hbound)⟩

/-- Digits that end at the terminator are the whole text. -/
theorem digits_whole {ptr : CString} {digits endp : List UInt8}
    (hdigits : AllDigits 10 digits) (hsplit : digits ++ endp = ptr.bytes ++ [0])
    (hend : endp.head? = some 0) : digits = ptr.bytes := by
  cases endp with
  | nil => cases hend
  | cons byte more =>
      have hbyte : byte = 0 := Option.some.inj hend
      subst hbyte
      have hnul : (0 : UInt8) ∉ digits :=
        fun hmem => absurd (hdigits 0 hmem) (by decide)
      have hleft := CString.ofBuffer_bytes hnul more
      have hright := CString.ofBuffer_bytes ptr.noNul []
      rw [hsplit] at hleft
      exact hleft.symm.trans hright

/-- The accepted texts are plain numerals of positive numbers below
`2 ^ 34`. -/
theorem parseEpoch_ok {ptr : CString} {timestamp : UInt64}
    (h : parseEpoch ptr = .ok timestamp) :
    Plain 10 ptr.bytes ∧ Numeral.value 10 ptr.bytes = timestamp.toNat ∧
      timestamp ≠ 0 ∧ timestamp.toNat < 2 ^ 34 := by
  rw [parseEpoch] at h
  split at h
  · cases h
  rename_i hfirst
  obtain ⟨hdigit, hzero⟩ := head_nonzero hfirst
  obtain ⟨byte, rest, hbytes⟩ : ∃ byte rest, ptr.bytes = byte :: rest := by
    cases hbytes : ptr.bytes with
    | nil =>
        rw [hbytes] at hdigit
        cases hdigit
    | cons byte rest => exact ⟨byte, rest, rfl⟩
  rw [hbytes, List.headD_cons] at hdigit hzero
  obtain ⟨hend, hvalue, hbound⟩ := checkEpoch_ok h
  rw [hbytes, List.cons_append, strtoull_digit (by decide) hdigit hzero,
    ← List.cons_append, ← hbytes] at hend hvalue
  have hsplit := @List.takeWhile_append_dropWhile _ (isDigit 10)
    (ptr.bytes ++ [0])
  have hdigits : AllDigits 10 ((ptr.bytes ++ [0]).takeWhile (isDigit 10)) :=
    fun b hb => List.mem_takeWhile_imp hb
  have hpositive : 0 < Numeral.value 10 ptr.bytes := by
    rw [hbytes]
    exact value_pos hdigit hzero
  have hnumber : Numeral.value 10 ptr.bytes = timestamp.toNat := by
    split at hvalue
    · -- the largest number is out of bounds
      have hlargest : (0xFFFFFFFFFFFFFFFF : UInt64) = timestamp := hvalue
      rw [← hlargest] at hbound
      exact absurd hbound (by decide)
    · rename_i hsmall
      rw [if_neg hsmall] at hend
      rw [digits_whole hdigits hsplit hend] at hsmall hvalue
      rw [← hvalue]
      exact (UInt64.toNat_ofNat_of_lt' (Nat.not_le.mp hsmall)).symm
  have hplain : AllDigits 10 ptr.bytes := by
    have hwhole : (ptr.bytes ++ [0]).takeWhile (isDigit 10) = ptr.bytes := by
      apply digits_whole hdigits hsplit
      split at hend
      · exact hend
      · exact hend
    rw [← hwhole]
    exact hdigits
  refine ⟨⟨hplain, by simp [hbytes], fun hhead => ?_⟩, hnumber, ?_, hbound⟩
  · rw [hbytes] at hhead
    exact absurd (Option.some.inj hhead) hzero
  · intro heq
    rw [hnumber, heq] at hpositive
    exact absurd hpositive (by decide)

/-! The run. -/

/-- The scan has come so far. -/
structure Scanned (timestamp : UInt64) (fs₀ : Ext2) (done : List Ino)
    (fs : Ext2) : Prop extends SameShape fs₀ fs where
  stamped : ∀ ino ∈ done, fs₀.isScanned ino = true →
    Stamped timestamp (fs.inodes ino) ∧ ino ∈ fs.written
  written : ∀ ino ∈ fs.written, ino ∈ done ∧ fs₀.isScanned ino = true

section

variable {timestamp : UInt64} {fs₀ fs : Ext2} {done : List Ino} {ino : Ino}

theorem Scanned.write (h : Scanned timestamp fs₀ done fs) {inode : Inode}
    {xattrs : List (String × String)}
    (hlinks : inode.linksCount = (fs.inodes ino).linksCount)
    (hscanned : fs₀.isScanned ino = true)
    (hstamped : Stamped timestamp inode) :
    Scanned timestamp fs₀ (done ++ [ino])
      ((fs.setXattrs ino xattrs).writeInode ino inode) where
  toSameShape := h.toSameShape.write hlinks
  stamped := by
    intro other hother hother'
    change Stamped timestamp (Function.update fs.inodes ino inode other) ∧
      other ∈ fs.written ++ [ino]
    by_cases heq : other = ino
    · subst heq
      rw [Function.update_self]
      exact ⟨hstamped, by simp⟩
    · rw [Function.update_of_ne heq]
      have hdone : other ∈ done := by
        rcases List.mem_append.mp hother with hdone | hlast
        · exact hdone
        · exact absurd (List.mem_singleton.mp hlast) heq
      obtain ⟨hbefore, hwritten⟩ := h.stamped other hdone hother'
      exact ⟨hbefore, List.mem_append_left _ hwritten⟩
  written := by
    intro other hother
    rcases List.mem_append.mp hother with hbefore | hlast
    · obtain ⟨hdone, hother'⟩ := h.written other hbefore
      exact ⟨List.mem_append_left _ hdone, hother'⟩
    · rw [List.mem_singleton.mp hlast]
      exact ⟨by simp, hscanned⟩

theorem scanInode_scanned (markImmutable : Bool) (ino : Ino) :
    Triple (Scanned timestamp fs₀ done)
      (scanInode timestamp markImmutable ino)
      (fun _ => Scanned timestamp fs₀ (done ++ [ino])) fun _ _ => True := by
  apply scanInode_rule
  · intro fs h hnot
    refine ⟨h.toSameShape, fun other hother hother' => ?_,
      fun other hother => ?_⟩
    · rcases List.mem_append.mp hother with hdone | hlast
      · exact h.stamped other hdone hother'
      · rw [List.mem_singleton.mp hlast, ← h.same, hnot] at hother'
        cases hother'
    · obtain ⟨hdone, hother'⟩ := h.written other hother
      exact ⟨List.mem_append_left _ hdone, hother'⟩
  · intro fs h hscanned xattrs isLpfIno _ _
    apply h.write
    · exact linksCount_normalize _ _ _ _
    · exact (h.same ino).symm.trans hscanned
    · rw [Stamped, stamp_normalize, stamp_stamp]

theorem scanInodes_scanned (markImmutable : Bool) (inos : List Ino) :
    Triple (Scanned timestamp fs₀ done)
      (scanInodes timestamp markImmutable inos)
      (fun _ => Scanned timestamp fs₀ (done ++ inos)) fun _ _ => True := by
  induction inos generalizing done with
  | nil =>
      rw [scanInodes, List.append_nil]
      exact .ret fun _ h => h
  | cons ino rest ih =>
      rw [scanInodes, ← List.singleton_append, ← List.append_assoc]
      exact (scanInode_scanned markImmutable ino).bind fun _ => ih

/-- Behind the scan, the inodes that it has reached are written again with
their times. -/
theorem Scanned.keptOn (inos : List Ino)
    (h : ∀ ino ∈ inos, ino ∈ done ∧ fs₀.isScanned ino = true) :
    KeptOn (Scanned timestamp fs₀ done) inos := by
  intro ino hino path name label force
  obtain ⟨hdone, hscanned⟩ := h ino hino
  apply processDirent_rule
  intro fs hfs xattrs flags _ _
  have hnext := @Scanned.write _ _ _ _ ino hfs { fs.inodes ino with flags := flags }
    xattrs rfl hscanned
    ((hfs.stamped ino hdone hscanned).1.flags flags)
  refine ⟨hnext.toSameShape, fun other hother => ?_, fun other hother => ?_⟩
  · exact hnext.stamped other (List.mem_append_left _ hother)
  · obtain ⟨hmem, hother'⟩ := hnext.written other hother
    refine ⟨?_, hother'⟩
    rcases List.mem_append.mp hmem with hbefore | hlast
    · exact hbefore
    · rw [List.mem_singleton.mp hlast]
      exact hdone

/-! The program. -/

theorem Scanned.start (hfresh : fs₀.written = []) {super : Superblock}
    (hfirst : super.firstIno = fs₀.super.firstIno) :
    Scanned timestamp fs₀ [] { fs₀ with super := super } := by
  refine ⟨.super fs₀ hfirst, fun _ h => absurd h List.not_mem_nil, ?_⟩
  intro ino hino
  rw [show ({ fs₀ with super := super } : Ext2).written = [] from hfresh]
    at hino
  exact absurd hino List.not_mem_nil

theorem labelTree_scanned (hfresh : fs₀.written = []) (hwf : fs₀.WellFormed)
    {super : Superblock} (hfirst : super.firstIno = fs₀.super.firstIno)
    (markImmutable : Bool) (uname : CString) :
    Triple (· = { fs₀ with super := super })
      (labelTree timestamp markImmutable uname)
      (fun _ => Scanned timestamp fs₀ fs₀.allInos) fun _ _ => True := by
  have hkept : KeptOn (Scanned timestamp fs₀ fs₀.allInos) fs₀.root.inos :=
    Scanned.keptOn _ hwf.inodes
  rw [Tree.inos_eq, hwf.root] at hkept
  apply labelTree_rule
  · apply (scanInodes_scanned markImmutable fs₀.allInos).pre_mono
    rintro _ rfl
    exact Scanned.start hfresh hfirst
  · exact hkept _ List.mem_cons_self _ _ _ _
  · apply rootIterate_kept
    exact hkept.mono fun _ hmem => List.mem_cons_of_mem _ hmem

/-- What a run leaves that ends without an error. -/
theorem realMain_scanned (hfresh : fs₀.written = []) (hwf : fs₀.WellFormed)
    (epoch uname : Option CString) (markImmutable : Bool) :
    Triple (· = fs₀) (realMain epoch uname markImmutable)
      (fun _ fs' => ∃ timestamp fs, EpochIs epoch timestamp ∧
        Scanned timestamp fs₀ (uname.elim [] fun _ => fs₀.allInos) fs ∧
        fs' = { fs with super := stampSuper timestamp fs.super })
      fun _ _ => True := by
  apply realMain_rule
  intro timestamp super _ hfirst
  cases uname with
  | none =>
      apply Triple.ret
      rintro _ rfl
      exact Scanned.start hfresh hfirst
  | some uname => exact labelTree_scanned hfresh hwf hfirst markImmutable uname

/-- The inodes that are written say the time that was asked for if and only
if no inode is written or the time has its bit 31 clear; the superblock always
says it. -/
theorem realMain_times {fs' : Ext2} (hfresh : fs₀.written = [])
    (hwf : fs₀.WellFormed) {ptr : CString} {uname : Option CString}
    {markImmutable : Bool}
    (hrun : (realMain (some ptr) uname markImmutable).run fs₀ = .ok () fs') :
    ((∀ ino ∈ fs'.written,
        InodeTimes (Numeral.value 10 ptr.bytes) (fs'.inodes ino)) ∧
      SuperTimes (Numeral.value 10 ptr.bytes) fs'.super) ↔
        uname = none ∨ Numeral.value 10 ptr.bytes % 2 ^ 32 < 2 ^ 31 := by
  obtain ⟨timestamp, fs, hparse, hscanned, rfl⟩ :=
    (realMain_scanned hfresh hwf (some ptr) uname markImmutable).run_ok rfl hrun
  obtain ⟨_, hvalue, hne, hbound⟩ := parseEpoch_ok hparse
  rw [hvalue]
  have hsuper := stampSuper_times fs.super hne hbound
  have htimes : ∀ ino ∈ fs.written,
      (InodeTimes timestamp.toNat (fs.inodes ino) ↔
        timestamp.toNat % 2 ^ 32 < 2 ^ 31) := by
    intro ino hino
    obtain ⟨hdone, hscan⟩ := hscanned.written ino hino
    exact (hscanned.stamped ino hdone hscan).1.times_iff hne hbound
  constructor
  · rintro ⟨hinodes, _⟩
    cases uname with
    | none => exact Or.inl rfl
    | some uname =>
        have hroot : fs₀.root.ino ∈ fs₀.root.inos := by
          rw [Tree.inos_eq]
          exact List.mem_cons_self
        obtain ⟨hmem, hscan⟩ := hwf.inodes _ hroot
        have hwritten := (hscanned.stamped _ hmem hscan).2
        exact Or.inr ((htimes _ hwritten).mp (hinodes _ hwritten))
  · rintro (hnone | hlow)
    · refine ⟨fun ino hino => ?_, hsuper⟩
      subst hnone
      exact absurd (hscanned.written ino hino).1 List.not_mem_nil
    · exact ⟨fun ino hino => (htimes ino hino).mpr hlow, hsuper⟩

end

/-! A file system with a root alone, and the first second of the wrong half. -/

def emptyExt2 : Ext2 :=
  sampleExt2 (.node [] 2 2 []) 2 fun _ => 0x41ED

/-- `2147483648` and `1700000000` -/
def lateEpoch : CString :=
  CString.ofBuffer [0x32, 0x31, 0x34, 0x37, 0x34, 0x38, 0x33, 0x36, 0x34, 0x38]

def earlyEpoch : CString :=
  CString.ofBuffer [0x31, 0x37, 0x30, 0x30, 0x30, 0x30, 0x30, 0x30, 0x30, 0x30]

theorem emptyExt2_wellFormed : emptyExt2.WellFormed where
  root := rfl
  inodes := by decide
  names := by decide

theorem realMain_times_early :
    EXT2_ROOT_INO ∈ (finalState (realMain (some earlyEpoch) (some kernelName)
        false) emptyExt2).written ∧
      InodeTimes (Numeral.value 10 earlyEpoch.bytes)
        ((finalState (realMain (some earlyEpoch) (some kernelName) false)
          emptyExt2).inodes EXT2_ROOT_INO) := by
  obtain ⟨_, hrun⟩ := run_of_returns (by decide +kernel :
    returns (realMain (some earlyEpoch) (some kernelName) false)
      emptyExt2 = true)
  have hroot : EXT2_ROOT_INO ∈ (finalState (realMain (some earlyEpoch)
      (some kernelName) false) emptyExt2).written := by decide +kernel
  exact ⟨hroot, ((realMain_times rfl emptyExt2_wellFormed hrun).mpr
    (Or.inr (by decide))).1 EXT2_ROOT_INO hroot⟩

/-- In the year 2038 the root directory seems to be from 1901. -/
theorem realMain_times_late :
    returns (realMain (some lateEpoch) (some kernelName) false)
        emptyExt2 = true ∧
      parseEpoch lateEpoch = .ok 2147483648 ∧
      EXT2_ROOT_INO ∈ (finalState (realMain (some lateEpoch)
        (some kernelName) false) emptyExt2).written ∧
      ¬ InodeTimes 2147483648 ((finalState (realMain (some lateEpoch)
        (some kernelName) false) emptyExt2).inodes EXT2_ROOT_INO) := by
  refine ⟨by decide +kernel, by decide, by decide +kernel, fun h => ?_⟩
  exact absurd h.mtime (by decide +kernel)

end QubesUtils.Genfs
