/-
The limits of a transfer: what each change takes of them, and that no run takes
more than was set.
-/
import QubesUtils.IncomingRun
import QubesUtils.PartialFiles
import Mathlib.Algebra.BigOperators.Group.Finset.Basic

namespace QubesUtils

open Hoare Process ByteCodec FileSystem

/-! Loops that spend. -/

namespace Process

section

variable {σ : Type} {R : Nat → World σ → Prop} {E : Exit → World σ → Prop}

/-- A write leaves what is not spent by it. -/
def Spends (R : Nat → World σ → Prop) (n : Nat) (data : List UInt8) :
    Option Nat → World σ → Prop
  | none, w => R 0 w
  | some count, w => count ≤ data.length ∧ R (n - count) w

theorem writeAllLoop_spends {write : List UInt8 → Process σ (Option Nat)}
    (hless : ∀ m n w, m ≤ n → R n w → R m w)
    (hretry : ∀ n, Triple (R n) retryInterrupted (fun _ => R n) E)
    (hwrite : ∀ n data, data.length ≤ n →
      Triple (R n) (write data) (Spends R n data) E) (fuel : Nat) :
    ∀ n rest, rest.length ≤ n →
      Triple (R n) (writeAllLoop write fuel rest)
        (fun ok => R (if ok then n - rest.length else 0)) E := by
  induction fuel with
  | zero => exact fun n rest _ => .ret fun w h => hless _ _ w (by simp) h
  | succ fuel ih =>
      intro n rest hrest
      refine .ite (fun _ => .ret fun w h => hless _ _ w (by simp) h)
        fun _ => ?_
      refine (hretry n).bind fun _ => (hwrite n rest hrest).bind
        fun result => ?_
      cases result with
      | none => exact .ret fun _ h => h
      | some count =>
          refine Triple.assume (fun _ h => h.1) fun hcount => ?_
          refine .ite (fun _ => .ret fun w h =>
            hless _ _ w (by simp) h.2) fun _ => ?_
          have hlength : (rest.drop count).length = rest.length - count :=
            List.length_drop
          refine ((ih (n - count) (rest.drop count) (by omega)).pre_mono
            fun _ h => h.2).post_mono fun ok w h => hless _ _ w ?_ h
          cases ok with
          | true =>
              simp only [if_true]
              omega
          | false => simp

/-- A copy spends no more than the bytes that it is asked for. -/
theorem copyFileLoop_spends {read : Nat → Process σ ReadResult}
    {write : List UInt8 → Process σ (Option Nat)}
    (hless : ∀ m n w, m ≤ n → R n w → R m w)
    (hread : ∀ n count, 0 < count → Triple (R n) (read count)
      (fun result w => R n w ∧
        ∀ bytes, result = .data bytes → bytes.length ≤ count) E)
    (hcrc : ∀ n bytes, Triple (R n) (addCrc bytes) (fun _ => R n) E)
    (hretry : ∀ n, Triple (R n) retryInterrupted (fun _ => R n) E)
    (hwrite : ∀ n data, data.length ≤ n →
      Triple (R n) (write data) (Spends R n data) E) (fuel : Nat) :
    ∀ missing, Triple (R missing) (copyFileLoop read write fuel missing)
      (fun _ => R 0) E := by
  have hzero : ∀ n w, R n w → R 0 w := fun n w h => hless 0 n w n.zero_le h
  induction fuel with
  | zero => exact fun missing => .ret fun w h => hzero _ w h
  | succ fuel ih =>
      intro missing
      refine .ite (fun _ => .ret fun w h => hzero _ w h) fun hmissing => ?_
      refine (hread missing _ (by omega)).bind fun result => ?_
      cases result with
      | eof => exact .ret fun w h => hzero _ w h.1
      | error => exact .ret fun w h => hzero _ w h.1
      | data bytes =>
          refine Triple.assume (fun _ h => h.2 bytes rfl) fun hbytes => ?_
          refine ((hcrc missing bytes).pre_mono fun _ h => h.1).bind
            fun _ => ?_
          refine (writeAllLoop_spends hless hretry hwrite _ missing bytes
            (by omega)).bind fun ok => ?_
          cases ok with
          | true => exact ih _
          | false => exact .ret fun _ h => h

end

end Process

/-! What is taken of the limits. -/

/-- The bytes that a change puts into a file or a link. -/
def Mutation.bytes (m : Mutation) : Nat :=
  match m.effect with
  | .write ino =>
      (m.after.inodes ino).data.length - (m.before.inodes ino).data.length
  | .symlink target _ _ => target.bytes.length
  | _ => 0

/-- The objects that a change makes. -/
def Mutation.objects (m : Mutation) : Nat :=
  match m.effect with
  | .create _ _ _ => 1
  | .tmpfile _ _ => 1
  | .mkdir _ _ => 1
  | .symlink _ _ _ => 1
  | _ => 0

def bytesPut : List Mutation → Nat
  | [] => 0
  | m :: mutations => m.bytes + bytesPut mutations

def objectsMade : List Mutation → Nat
  | [] => 0
  | m :: mutations => m.objects + objectsMade mutations

theorem bytesPut_concat (mutations : List Mutation) (m : Mutation) :
    bytesPut (mutations ++ [m]) = bytesPut mutations + m.bytes := by
  induction mutations with
  | nil => exact Nat.add_comm _ _
  | cons first mutations ih =>
      rw [List.cons_append, bytesPut, ih, bytesPut, Nat.add_assoc]

theorem objectsMade_concat (mutations : List Mutation) (m : Mutation) :
    objectsMade (mutations ++ [m]) = objectsMade mutations + m.objects := by
  induction mutations with
  | nil => exact Nat.add_comm _ _
  | cons first mutations ih =>
      rw [List.cons_append, objectsMade, ih, objectsMade, Nat.add_assoc]

/-- No more has been taken than was set. -/
structure WithinLimits (limits : Limits) (u : Unpacker) : Prop where
  bytes : limits.bytesLimit ≠ 0 →
    bytesPut u.mutations ≤ limits.bytesLimit.toNat
  objects : limits.filesLimit ≠ 0 →
    objectsMade u.mutations ≤ limits.filesLimit.toNat

/-- The total covers what was put, with so many bytes that may still come for
the entry.  It exceeds the limit by no more than the sizes of directories. -/
structure Covered (limit spent credit : Nat) (u : Unpacker) : Prop where
  paid : bytesPut u.mutations + credit ≤ u.totalBytes.toNat
  kept : bytesPut u.mutations + credit ≤ limit
  total : u.totalBytes.toNat ≤ limit + spent

/-- So many entries were counted, and so many bytes and objects may still come
for the last one. -/
structure Charged (limits : Limits) (entries spent credit objects : Nat)
    (u : Unpacker) : Prop where
  counted : u.totalFiles.toNat = entries
  made : objectsMade u.mutations + objects ≤ entries
  kept : limits.filesLimit ≠ 0 →
    objectsMade u.mutations + objects ≤ limits.filesLimit.toNat
  covered : limits.bytesLimit ≠ 0 →
    Covered limits.bytesLimit.toNat spent credit u

section

variable {limits : Limits} {entries spent spent' credit credit' objects
  objects' : Nat} {u : Unpacker}

theorem Charged.within (h : Charged limits entries spent credit objects u) :
    WithinLimits limits u :=
  ⟨fun hlimit => Nat.le_trans (Nat.le_add_right _ _) (h.covered hlimit).kept,
    fun hlimit => Nat.le_trans (Nat.le_add_right _ _) (h.kept hlimit)⟩

theorem Charged.weaken (h : Charged limits entries spent credit objects u)
    (hspent : spent ≤ spent') (hcredit : credit' ≤ credit)
    (hobjects : objects' ≤ objects) :
    Charged limits entries spent' credit' objects' u := by
  obtain ⟨hcounted, hmade, hkept, hcovered⟩ := h
  refine ⟨hcounted, by omega, fun hlimit => ?_, fun hlimit => ?_⟩
  · exact Nat.le_trans (Nat.add_le_add_left hobjects _) (hkept hlimit)
  · obtain ⟨hpaid, hunder, htotal⟩ := hcovered hlimit
    exact ⟨by omega, by omega, by omega⟩

/-- A change is paid for by what may still come. -/
theorem Charged.record {effect : Effect} {fs : FileSystem} {m : Mutation}
    (h : Charged limits entries spent credit objects u)
    (hm : m = ⟨u.untrustedNamebuf, u.start, effect, u.fs, fs⟩)
    (hbytes : m.bytes ≤ credit) (hobjects : m.objects ≤ objects) :
    Charged limits entries spent (credit - m.bytes) (objects - m.objects)
      (u.record effect fs) := by
  obtain ⟨hcounted, hmade, hkept, hcovered⟩ := h
  have hobjectsMade : objectsMade (u.record effect fs).mutations =
      objectsMade u.mutations + m.objects := by
    rw [Unpacker.record, objectsMade_concat, hm]
  have hbytesPut : bytesPut (u.record effect fs).mutations =
      bytesPut u.mutations + m.bytes := by
    rw [Unpacker.record, bytesPut_concat, hm]
  refine ⟨hcounted, by omega, fun hlimit => ?_, fun hlimit => ?_⟩
  · have hunder := hkept hlimit
    omega
  · obtain ⟨hpaid, hunder, htotal⟩ := hcovered hlimit
    refine ⟨?_, by omega, htotal⟩
    change bytesPut (u.record effect fs).mutations + _ ≤ u.totalBytes.toNat
    omega

end

/-! Calls. -/

/-- The condition in which the process exits. -/
def Bounded (limits : Limits) (_ : Exit) : World Unpacker → Prop :=
  OnStatics (WithinLimits limits)

section

variable {limits : Limits} {entries spent credit objects cost made : Nat}
  {P : Unpacker → Prop} {α : Type}

/-- A program that leaves the static variables alone. -/
theorem Preserves.bounded {program : Unpack α}
    (h : Preserves (OnStatics P) program)
    (hP : ∀ u, P u → WithinLimits limits u) :
    Triple (OnStatics P) program (fun _ => OnStatics P) (Bounded limits) :=
  h.mono (fun _ h => h) (fun _ _ h => h) fun _ _ h => hP _ h

theorem doExit_bounded {post : α → World Unpacker → Prop} (code : UInt32)
    (last : Option CString) (hP : ∀ u, P u → WithinLimits limits u) :
    Triple (OnStatics P) (doExit code last) post (Bounded limits) :=
  (doExit_triple code last).pre_mono fun _ h => hP _ h

theorem doExitErrno_bounded {post : α → World Unpacker → Prop}
    (last : Option CString) (hP : ∀ u, P u → WithinLimits limits u) :
    Triple (OnStatics P) (doExitErrno last) post (Bounded limits) :=
  (doExitErrno_triple last).pre_mono fun _ h => hP _ h

variable {E : Exit → World Unpacker → Prop}

/-- A call takes no more than what its change takes. -/
theorem perform_charged {call : FileSystem → Outcome →
      Except Errno (α × Effect × FileSystem)}
    (hcall : ∀ (m : Mutation) outcome result,
      call m.before outcome = .ok (result, m.effect, m.after) →
        m.bytes ≤ credit ∧ m.objects ≤ objects) :
    Triple (OnStatics (Charged limits entries spent credit objects))
      (perform call)
      (OnResult (Charged limits entries spent credit objects)
        fun _ => Charged limits entries spent 0 0) E := by
  refine perform_triple fun u outcome result effect fs hu hresult => ?_
  obtain ⟨hbytes, hobjects⟩ :=
    hcall ⟨u.untrustedNamebuf, u.start, effect, u.fs, fs⟩ outcome result
      hresult
  exact (hu.record rfl hbytes hobjects).weaken (Nat.le_refl _)
    (Nat.zero_le _) (Nat.zero_le _)

/-- Whether a call fails or not, what it was made for is used up. -/
theorem OnResult.charged {result : Option α} {w : World Unpacker}
    (h : OnResult (Charged limits entries spent credit objects)
      (fun _ => Charged limits entries spent 0 0) result w) :
    OnStatics (Charged limits entries spent 0 0) w := by
  cases result with
  | none =>
      exact Charged.weaken h (Nat.le_refl _) (Nat.zero_le _) (Nat.zero_le _)
  | some a => exact h

/-- The effect of a call tells what its change takes. -/
theorem performEffect_charged
    {change : FileSystem → Outcome → Except Errno FileSystem}
    {effect : FileSystem → Effect} {result : FileSystem → α}
    (hcost : ∀ m : Mutation, m.effect = effect m.before →
      m.bytes ≤ credit ∧ m.objects ≤ objects) :
    Triple (OnStatics (Charged limits entries spent credit objects))
      (perform fun fs outcome => do
        let fs' ← change fs outcome
        return (result fs, effect fs, fs'))
      (OnResult (Charged limits entries spent credit objects)
        fun _ => Charged limits entries spent 0 0) E := by
  apply perform_charged
  intro m outcome a hcall
  obtain ⟨fs', _, heq⟩ := map_eq_ok.mp hcall
  apply hcost m
  exact (congrArg (fun value => value.2.1) heq).symm

theorem openTmpfile_charged (dir : Path) :
    Triple (OnStatics (Charged limits entries spent 0 1)) (openTmpfile dir)
      (OnResult (Charged limits entries spent 0 1)
        fun _ => Charged limits entries spent 0 0) E := by
  apply performEffect_charged
  intro m heffect
  rw [Mutation.bytes, Mutation.objects, heffect]
  exact ⟨Nat.le_refl _, Nat.le_refl _⟩

theorem createFile_charged (dir : Path) (segment : Name) :
    Triple (OnStatics (Charged limits entries spent 0 1))
      (createFile dir segment)
      (OnResult (Charged limits entries spent 0 1)
        fun _ => Charged limits entries spent 0 0) E := by
  apply performEffect_charged
  intro m heffect
  rw [Mutation.bytes, Mutation.objects, heffect]
  exact ⟨Nat.le_refl _, Nat.le_refl _⟩

theorem linkFile_charged (ino : Nat) (dir : Path) (segment : Name) :
    Triple (OnStatics (Charged limits entries spent 0 0))
      (linkFile ino dir segment)
      (OnResult (Charged limits entries spent 0 0)
        fun _ => Charged limits entries spent 0 0) E := by
  apply performEffect_charged
  intro m heffect
  rw [Mutation.bytes, Mutation.objects, heffect]
  exact ⟨Nat.le_refl _, Nat.le_refl _⟩

theorem makeDir_charged (dir : Path) (segment : Name) :
    Triple (OnStatics (Charged limits entries spent 0 1))
      (makeDir dir segment)
      (OnResult (Charged limits entries spent 0 1)
        fun _ => Charged limits entries spent 0 0) E := by
  apply performEffect_charged
  intro m heffect
  rw [Mutation.bytes, Mutation.objects, heffect]
  exact ⟨Nat.le_refl _, Nat.le_refl _⟩

theorem makeLink_charged (target : CString) (dir : Path) (segment : Name)
    (htarget : target.bytes.length ≤ credit) :
    Triple (OnStatics (Charged limits entries spent credit 1))
      (makeLink target dir segment)
      (OnResult (Charged limits entries spent credit 1)
        fun _ => Charged limits entries spent 0 0) E := by
  apply performEffect_charged
  intro m heffect
  rw [Mutation.bytes, Mutation.objects, heffect]
  exact ⟨htarget, Nat.le_refl _⟩

theorem fixTimesAndPerms_charged (object : Object) (hdr : FileHeader)
    (name : CString) :
    Preserves (OnStatics (Charged limits entries spent 0 0))
      (fixTimesAndPerms object hdr name) := by
  refine (validateUtimeNsec_statics _).bind fun _ => ?_
  refine (validateUtimeNsec_statics _).bind fun _ => ?_
  have hmode : Preserves (OnStatics (Charged limits entries spent 0 0))
      (setMode object hdr) := by
    refine .ite (.ret _) (Triple.post_mono (perform_charged ?_)
      fun _ _ h => h.charged)
    intro m outcome result hcall
    simp only [Except.ok.injEq, Prod.mk.injEq, true_and] at hcall
    rw [Mutation.bytes, Mutation.objects, ← hcall.1]
    exact ⟨Nat.le_refl _, Nat.le_refl _⟩
  refine hmode.bind fun result => ?_
  cases result with
  | none => exact doExitErrno_triple _
  | some _ =>
      have htimes : ∀ atime mtime,
          Preserves (OnStatics (Charged limits entries spent 0 0))
            (futimens object atime mtime) := by
        intro atime mtime
        refine Triple.post_mono (perform_charged ?_) fun _ _ h => h.charged
        intro m outcome result hcall
        simp only [Except.ok.injEq, Prod.mk.injEq, true_and] at hcall
        rw [Mutation.bytes, Mutation.objects, ← hcall.1]
        exact ⟨Nat.le_refl _, Nat.le_refl _⟩
      refine (htimes _ _).bind fun result => ?_
      cases result with
      | none => exact doExitErrno_triple _
      | some _ => exact .ret _

/-- A file grows by the bytes that were taken. -/
theorem writeFile_charged (ino n : Nat) (data : List UInt8)
    (hdata : data.length ≤ n) :
    Triple (OnStatics (Charged limits entries spent n 0)) (writeFile ino data)
      (Spends (fun n => OnStatics (Charged limits entries spent n 0)) n data)
      E := by
  refine (perform_triple (Q := fun count u => count ≤ data.length ∧
    Charged limits entries spent (n - count) 0 u)
      fun u outcome count effect fs hu hcall => ?_).post_mono
        fun result w h => ?_
  · simp only [Except.ok.injEq, Prod.mk.injEq] at hcall
    obtain ⟨rfl, rfl, rfl⟩ := hcall
    have hcount : (data.take outcome.count).length ≤ data.length :=
      List.length_take_le' _ _
    refine ⟨hcount, ?_⟩
    have hgrown : (Mutation.mk u.untrustedNamebuf u.start (.write ino) u.fs
        (u.fs.append ino (data.take outcome.count)
          outcome.now)).bytes = (data.take outcome.count).length := by
      rw [Mutation.bytes, append, setInode]
      simp only [Function.update_self, List.length_append,
        Nat.add_sub_cancel_left]
    have hpaid := @Charged.record limits entries spent n 0 u (.write ino)
      (u.fs.append ino (data.take outcome.count) outcome.now) _ hu rfl
      (by omega) (Nat.le_refl _)
    rw [hgrown] at hpaid
    exact hpaid
  · cases result with
    | none =>
        exact Charged.weaken h (Nat.le_refl _) (Nat.zero_le _) (Nat.le_refl _)
    | some count => exact h

theorem read_charged (n count : Nat) (hcount : 0 < count) :
    Triple (OnStatics (Charged limits entries spent n 0)) (read count)
      (fun result w => OnStatics (Charged limits entries spent n 0) w ∧
        ∀ bytes, result = .data bytes → bytes.length ≤ count)
      (Bounded limits) := by
  intro w hw
  have hread := @read_at _ False (Charged limits entries spent n 0) w.stdin
    (Bounded limits) count hcount w ⟨hw, rfl, False.elim⟩
  have hkept := Preserves.bounded (read_stable count)
    (fun _ h => Charged.within h) w hw
  cases hrun : (read count).run w with
  | error e w' =>
      rw [hrun] at hkept
      exact hkept
  | ok result w' =>
      rw [hrun] at hread hkept
      refine ⟨hkept, ?_⟩
      rintro bytes rfl
      exact hread.2.1

/-- What is written into a file was announced in its header. -/
theorem copyFile_charged (ino size : Nat) :
    Triple (OnStatics (Charged limits entries spent size 0))
      (copyFile read (writeFile ino) size)
      (fun _ => OnStatics (Charged limits entries spent 0 0))
      (Bounded limits) := by
  apply copyFileLoop_spends
    (R := fun n => OnStatics (Charged limits entries spent n 0))
  · intro m n w hle h
    exact Charged.weaken h (Nat.le_refl _) hle (Nat.le_refl _)
  · exact read_charged
  · exact fun _ bytes => addCrc_stable bytes
  · exact fun _ => retryInterrupted_stable
  · exact writeFile_charged ino

end

/-! Handlers. -/

section

variable {limits : Limits} {entries spent size : Nat} {hdr : FileHeader}
  {name : CString} {flags : Flags} {α : Type}

/-- The total leaves room for so many bytes. -/
def Fits (limits : Limits) (filelen : UInt64) (u : Unpacker) : Prop :=
  limits.bytesLimit ≠ 0 →
    u.totalBytes.toNat + filelen.toNat ≤ limits.bytesLimit.toNat

theorem Charged.fits {filelen : UInt64} {objects : Nat} {u : Unpacker}
    (h : Charged limits entries spent 0 objects u)
    (hfits : Fits limits filelen u) :
    Charged limits entries spent filelen.toNat objects
      { u with totalBytes := u.totalBytes + filelen } := by
  obtain ⟨hcounted, hmade, hkept, hcovered⟩ := h
  refine ⟨hcounted, hmade, hkept, fun hlimit => ?_⟩
  obtain ⟨hpaid, hunder, htotal⟩ := hcovered hlimit
  have hroom := hfits hlimit
  have hlimit' := limits.bytesLimit.toNat_lt
  have hsum : (u.totalBytes + filelen).toNat =
      u.totalBytes.toNat + filelen.toNat := by
    rw [UInt64.toNat_add, Nat.mod_eq_of_lt (by omega)]
  refine ⟨?_, ?_, ?_⟩
  · simp only [hsum]
    omega
  · simp only
    omega
  · simp only [hsum]
    omega

theorem checkQuota_charged (filelen : UInt64) :
    Triple (OnStatics (Charged limits entries spent 0 0))
      (checkQuota limits filelen name)
      (fun _ => OnStatics fun u => Charged limits entries spent 0 0 u ∧
        Fits limits filelen u) (Bounded limits) := by
  refine .get_bind fun w hw => ?_
  have hstop : ∀ {code : UInt32} {last : Option CString}
      {post : Unit → World Unpacker → Prop},
      Triple (· = w) (doExit code last) post (Bounded limits) :=
    (doExit_bounded _ _ fun _ h => Charged.within h).from_state hw
  refine .ite (fun _ => hstop) fun hsize => .ite (fun _ => hstop) fun htotal =>
    .ret fun _ h => h ▸ ⟨hw, fun hlimit => ?_⟩
  have hunder : filelen ≤ limits.bytesLimit :=
    UInt64.not_lt.mp fun hover => hsize (Or.inr ⟨hlimit, hover⟩)
  have hroom : w.statics.totalBytes ≤ limits.bytesLimit - filelen :=
    UInt64.not_lt.mp fun hover => htotal ⟨hlimit, hover⟩
  rw [UInt64.le_iff_toNat_le] at hunder hroom
  rw [UInt64.toNat_sub_of_le _ _ (UInt64.le_iff_toNat_le.mpr hunder)] at hroom
  omega

theorem fillOutput_bounded (ino : Nat) :
    Triple (OnStatics (Charged limits entries spent 0 0))
      (fillOutput limits ino hdr name)
      (fun _ => OnStatics (Charged limits entries spent 0 0))
      (Bounded limits) := by
  refine (checkQuota_charged hdr.filelen).bind fun _ => ?_
  refine (Preserves.bounded (reserveSpace_statics limits _)
    fun _ h => h.1.within).bind fun _ => ?_
  have hadd : Triple (OnStatics fun u => Charged limits entries spent 0 0 u ∧
        Fits limits hdr.filelen u) (addTotalBytes hdr.filelen)
      (fun _ => OnStatics
        (Charged limits entries spent hdr.filelen.toNat 0))
      (Bounded limits) := .modify fun _ h => h.1.fits h.2
  refine hadd.bind fun _ => (copyFile_charged ino _).bind fun status => ?_
  cases status with
  | ok => exact .ret fun _ h => h
  | readEof => exact doExit_bounded _ _ fun _ h => Charged.within h
  | readError => exact doExit_bounded _ _ fun _ h => Charged.within h
  | writeError => exact doExitErrno_bounded _ fun _ h => Charged.within h

theorem openOutput_bounded (dir : Path) (segment : Name) :
    Triple (OnStatics (Charged limits entries spent 0 1))
      (openOutput dir segment name)
      (fun _ => OnStatics (Charged limits entries spent 0 0))
      (Bounded limits) := by
  have htmpfile : Triple (OnStatics (Charged limits entries spent 0 1))
      (tryTmpfile dir name)
      (OnResult (Charged limits entries spent 0 1)
        fun _ => Charged limits entries spent 0 0) (Bounded limits) := by
    refine .get_bind fun w hw => .ite (fun _ => ?_) fun _ =>
      .ret fun _ h => h ▸ hw
    refine ((openTmpfile_charged dir).from_state hw).bind fun result => ?_
    cases result with
    | some ino => exact .ret fun _ h => h
    | none =>
        refine .get_bind fun w' hw' => .ite (fun _ => ?_) fun _ => ?_
        · have hset : Triple (· = w') (setUseTmpfile false)
              (fun _ => OnStatics (Charged limits entries spent 0 1))
              (Bounded limits) := .modify fun _ h => h ▸
            ⟨hw'.counted, hw'.made, hw'.kept, fun hlimit =>
              ⟨(hw'.covered hlimit).paid, (hw'.covered hlimit).kept,
                (hw'.covered hlimit).total⟩⟩
          exact hset.bind fun _ => .ret fun _ h => h
        · exact (doExitErrno_bounded _ fun _ h => Charged.within h).from_state
            hw'
  refine htmpfile.bind fun result => ?_
  cases result with
  | some ino => exact .ret fun _ h => h
  | none =>
      refine (createFile_charged dir segment).bind fun result => ?_
      cases result with
      | some ino => exact .ret fun _ h => h
      | none => exact doExitErrno_bounded _ fun _ h => Charged.within h

theorem nameOutput_bounded (ino : Nat) (dir : Path) (segment : Name) :
    Preserves (OnStatics (Charged limits entries spent 0 0))
      (nameOutput ino dir segment) :=
  .get_bind fun _ => .ite
    (Triple.post_mono (linkFile_charged ino dir segment)
      fun _ _ h => h.charged) (.ret _)

theorem processOneFileReg_bounded :
    Triple (OnStatics (Charged limits entries spent 0 1))
      (processOneFileReg limits hdr name flags)
      (fun _ => OnStatics (Charged limits entries spent 0 0))
      (Bounded limits) := by
  refine (Preserves.bounded (liftFault_preserves _)
    fun _ h => Charged.within h).bind fun ret => .ite
      (fun _ => doExit_bounded _ _ fun _ h => Charged.within h) fun _ => ?_
  refine (Preserves.bounded (strdup_statics name)
    fun _ h => Charged.within h).bind fun _ => .get_bind fun w hw => ?_
  refine ((Preserves.bounded (opendirSafe_statics _ _)
    fun _ h => Charged.within h).from_state hw).bind fun place => ?_
  refine (openOutput_bounded _ _).bind fun fdout => ?_
  refine (fillOutput_bounded fdout).bind fun _ => ?_
  refine (Preserves.bounded (nameOutput_bounded fdout _ _)
    fun _ h => Charged.within h).bind fun result => ?_
  cases result with
  | none => exact doExitErrno_bounded _ fun _ h => Charged.within h
  | some _ =>
      exact Preserves.bounded (fixTimesAndPerms_charged _ _ _)
        fun _ h => Charged.within h

/-- A directory that is there takes nothing of the limits by itself. -/
theorem statDir_bounded :
    Triple (OnStatics (Charged limits entries spent 0 1))
      (statDir limits name flags)
      (fun _ => OnStatics (Charged limits entries spent 0 0))
      (Bounded limits) := by
  refine (Preserves.bounded (liftFault_preserves _)
    fun _ h => Charged.within h).bind fun rc => .ite
      (fun _ => doExit_bounded _ _ fun _ h => Charged.within h) fun _ => ?_
  refine (Preserves.bounded (strdup_statics name)
    fun _ h => Charged.within h).bind fun _ => .get_bind fun w hw => ?_
  refine ((Preserves.bounded (opendirSafe_statics _ _)
    fun _ h => Charged.within h).from_state hw).bind fun place => ?_
  refine ((makeDir_charged _ _).post_mono fun _ _ h => h.charged).bind
    fun made => ?_
  cases made with
  | some _ => exact .ret fun _ h => h
  | none =>
      refine .get_bind fun w' hw' => .ite (fun _ => ?_) fun _ => ?_
      · exact (doExitErrno_bounded _ fun _ h => Charged.within h).from_state
          hw'
      refine ((Preserves.bounded (openDir_statics _ _)
        fun _ h => Charged.within h).from_state hw').bind fun opened => ?_
      cases opened with
      | none => exact doExitErrno_bounded _ fun _ h => Charged.within h
      | some path =>
          refine attempt_stable.bind fun stat => ?_
          cases stat with
          | none => exact doExitErrno_bounded _ fun _ h => Charged.within h
          | some stat => exact .ret fun _ h => h

/-- The size of a directory does not make the total wrap around. -/
theorem Charged.addSize {size : UInt64} {u : Unpacker}
    (h : Charged limits entries spent 0 0 u)
    (hsum : spent + size.toNat + limits.bytesLimit.toNat + MAX_PATH_LENGTH ≤
      2 ^ 64) :
    Charged limits entries (spent + size.toNat) 0 0
      { u with totalBytes := u.totalBytes + size } := by
  obtain ⟨hcounted, hmade, hkept, hcovered⟩ := h
  refine ⟨hcounted, hmade, hkept, fun hlimit => ?_⟩
  obtain ⟨hpaid, hunder, htotal⟩ := hcovered hlimit
  have hpath : 0 < MAX_PATH_LENGTH := by decide
  have hadded : (u.totalBytes + size).toNat =
      u.totalBytes.toNat + size.toNat := by
    rw [UInt64.toNat_add, Nat.mod_eq_of_lt (by omega)]
  refine ⟨?_, hunder, ?_⟩
  · simp only [hadded]
    omega
  · simp only [hadded]
    omega

theorem countDir_bounded {path : Path} {stat : Outcome}
    (hsum : spent + (UInt64.ofNat stat.amount).toNat +
      limits.bytesLimit.toNat + MAX_PATH_LENGTH ≤ 2 ^ 64) :
    Triple (OnStatics (Charged limits entries spent 0 0))
      (countDir (some (path, stat)))
      (fun _ => OnStatics (Charged limits entries
        (spent + (UInt64.ofNat stat.amount).toNat) 0 0)) (Bounded limits) := by
  have hadd : Triple (OnStatics (Charged limits entries spent 0 0))
      (addTotalBytes (UInt64.ofNat stat.amount))
      (fun _ => OnStatics (Charged limits entries
        (spent + (UInt64.ofNat stat.amount).toNat) 0 0)) (Bounded limits) :=
    .modify fun _ h => Charged.addSize h hsum
  exact hadd.bind fun _ => .ret fun _ h => h

theorem processOneFileDir_bounded {w : World Unpacker} {size : UInt64}
    (hw : OnStatics (Charged limits entries spent 0 1) w)
    (hfound : ∀ path stat w', (statDir limits name flags).run w =
      .ok (some (path, stat)) w' → UInt64.ofNat stat.amount = size)
    (hsum : spent + size.toNat + limits.bytesLimit.toNat + MAX_PATH_LENGTH ≤
      2 ^ 64) :
    Triple (· = w) (processOneFileDir limits hdr name flags)
      (fun _ => OnStatics
        (Charged limits entries (spent + size.toNat) 0 0))
      (Bounded limits) := by
  rw [processOneFileDir_eq, reopenDir_eq]
  have hcount : Triple (· = w) (statDir limits name flags >>= countDir)
      (fun _ => OnStatics
        (Charged limits entries (spent + size.toNat) 0 0))
      (Bounded limits) := by
    refine (statDir_bounded.from_state hw).ran.bind fun found => ?_
    cases found with
    | none =>
        exact .ret fun _ h => Charged.weaken h.1 (Nat.le_add_right _ _)
          (Nat.le_refl _) (Nat.le_refl _)
    | some place =>
        obtain ⟨path, stat⟩ := place
        refine Triple.assume (fun _ h => hfound path stat _ h.2) ?_
        rintro rfl
        exact (countDir_bounded hsum).pre_mono fun _ h => h.1
  refine hcount.bind fun reopened => ?_
  cases reopened with
  | none => exact .ret fun _ h => h
  | some path =>
      exact Preserves.bounded (fixTimesAndPerms_charged _ _ _)
        fun _ h => Charged.within h

/-- The total has been checked after the size of a link was added. -/
theorem Charged.addLink {filelen total : UInt64} {u : Unpacker}
    (h : Charged limits entries spent 0 1 { u with totalBytes := total })
    (htotal : u.totalBytes = total + filelen)
    (hfilelen : filelen.toNat < MAX_PATH_LENGTH)
    (hchecked : limits.bytesLimit ≠ 0 → u.totalBytes ≤ limits.bytesLimit)
    (hsum : spent + limits.bytesLimit.toNat + MAX_PATH_LENGTH ≤ 2 ^ 64) :
    Charged limits entries spent filelen.toNat 1 u := by
  obtain ⟨hcounted, hmade, hkept, hcovered⟩ := h
  refine ⟨hcounted, hmade, hkept, fun hlimit => ?_⟩
  obtain ⟨hpaid, hunder, hspent⟩ := hcovered hlimit
  have hroom := UInt64.le_iff_toNat_le.mp (hchecked hlimit)
  simp only at hpaid hspent
  have hadded : u.totalBytes.toNat = total.toNat + filelen.toNat := by
    rw [htotal, UInt64.toNat_add, Nat.mod_eq_of_lt (by omega)]
  exact ⟨by omega, by omega, by omega⟩

theorem CString.ofBuffer_length_le (buffer : List UInt8) :
    (CString.ofBuffer buffer).bytes.length ≤ buffer.length :=
  (List.takeWhile_prefix _).length_le

theorem readAllWithCrc_bounded {P : Unpacker → Prop} (n : Nat)
    (hP : ∀ u, P u → WithinLimits limits u) :
    Triple (OnStatics P) (readAllWithCrc n)
      (fun result w => OnStatics P w ∧
        ∀ bytes, result = some bytes → bytes.length = n)
      (Bounded limits) := by
  intro w hw
  have hread := @readAllWithCrc_at _ False P w.stdin (Bounded limits) n w
    ⟨hw, rfl, False.elim⟩
  have hkept := Preserves.bounded (readAllWithCrc_stable n) hP w hw
  cases hrun : (readAllWithCrc n).run w with
  | error e w' =>
      rw [hrun] at hkept
      exact hkept
  | ok result w' =>
      rw [hrun] at hread hkept
      refine ⟨hkept, ?_⟩
      rintro bytes rfl
      exact hread.1

theorem linkTarget_bounded {credit : Nat} {content : CString}
    (hcontent : content.bytes.length ≤ credit) :
    Triple (OnStatics (Charged limits entries spent credit 1))
      (linkTarget limits name flags content)
      (fun _ => OnStatics (Charged limits entries spent 0 0))
      (Bounded limits) := by
  refine (Preserves.bounded (liftFault_preserves _)
    fun _ h => Charged.within h).bind fun rc => .ite
      (fun _ => doExit_bounded _ _ fun _ h => Charged.within h) fun _ => ?_
  refine (Preserves.bounded (strdup_statics name)
    fun _ h => Charged.within h).bind fun _ => .get_bind fun w hw => ?_
  refine ((Preserves.bounded (opendirSafe_statics _ _)
    fun _ h => Charged.within h).from_state hw).bind fun place => ?_
  refine ((makeLink_charged content _ _ hcontent).post_mono
    fun _ _ h => h.charged).bind fun made => ?_
  cases made with
  | none => exact doExitErrno_bounded _ fun _ h => Charged.within h
  | some _ => exact .ret fun _ h => h

theorem receiveTarget_bounded
    (hsum : spent + limits.bytesLimit.toNat + MAX_PATH_LENGTH ≤ 2 ^ 64) :
    Triple (OnStatics (Charged limits entries spent 0 1))
      (receiveTarget limits hdr name)
      (fun content => OnStatics fun u =>
        Charged limits entries spent hdr.filelen.toNat 1 u ∧
          content.bytes.length ≤ hdr.filelen.toNat) (Bounded limits) := by
  have hpath : MAX_PATH_LENGTH = 16384 := by decide
  refine .ite (fun _ => doExit_bounded _ _ fun _ h => Charged.within h)
    fun hlength => ?_
  have hadd : Triple (OnStatics (Charged limits entries spent 0 1))
      (addTotalBytes hdr.filelen)
      (fun _ => OnStatics fun u => ∃ total : UInt64,
        Charged limits entries spent 0 1 { u with totalBytes := total } ∧
          u.totalBytes = total + hdr.filelen) (Bounded limits) :=
    .modify fun w h => ⟨w.statics.totalBytes, h, rfl⟩
  have hwithin : ∀ u : Unpacker, (∃ total : UInt64,
      Charged limits entries spent 0 1 { u with totalBytes := total } ∧
        u.totalBytes = total + hdr.filelen) → WithinLimits limits u := by
    rintro u ⟨total, h, _⟩
    exact ⟨h.within.bytes, h.within.objects⟩
  refine hadd.bind fun _ => .get_bind fun w hw => .ite (fun _ => ?_)
    fun hchecked => ?_
  · exact (doExit_bounded _ _ hwithin).from_state hw
  obtain ⟨total, hcharged, htotal⟩ := hw
  have hpaid : OnStatics
      (Charged limits entries spent hdr.filelen.toNat 1) w :=
    hcharged.addLink htotal (by omega) (fun hlimit => UInt64.not_lt.mp
      fun hover => hchecked ⟨hlimit, hover⟩) hsum
  refine ((readAllWithCrc_bounded _ fun _ h => Charged.within h).from_state
    hpaid).bind fun result => ?_
  cases result with
  | none =>
      exact (doExit_bounded _ _ fun _ h => Charged.within h).pre_mono
        fun _ h => h.1
  | some bytes =>
      refine .ret fun w' h => ⟨h.1, ?_⟩
      rw [← h.2 bytes rfl]
      exact CString.ofBuffer_length_le bytes

theorem processOneFileLink_bounded
    (hsum : spent + limits.bytesLimit.toNat + MAX_PATH_LENGTH ≤ 2 ^ 64) :
    Triple (OnStatics (Charged limits entries spent 0 1))
      (processOneFileLink limits hdr name flags)
      (fun _ => OnStatics (Charged limits entries spent 0 0))
      (Bounded limits) := by
  rw [processOneFileLink_eq]
  refine (receiveTarget_bounded hsum).bind fun content => ?_
  refine Triple.assume (fun _ h => h.2) fun hcontent => ?_
  exact (linkTarget_bounded hcontent).pre_mono fun _ h => h.1

/-- One entry takes no more than what is there for it. -/
theorem handleEntry_bounded {w : World Unpacker} {size : UInt64}
    {bytes : List UInt8}
    (hw : OnStatics (Charged limits entries spent 0 1) w)
    (hfound : SizeFound limits flags hdr (CString.ofBuffer bytes) w size)
    (hsum : spent + size.toNat + limits.bytesLimit.toNat + MAX_PATH_LENGTH ≤
      2 ^ 64) :
    Triple (· = w) (handleEntry limits flags hdr bytes)
      (fun _ => OnStatics
        (Charged limits entries (spent + size.toNat) 0 0))
      (Bounded limits) := by
  have hmore : ∀ u, Charged limits entries spent 0 0 u →
      Charged limits entries (spent + size.toNat) 0 0 u :=
    fun _ h => h.weaken (Nat.le_add_right _ _) (Nat.le_refl _) (Nat.le_refl _)
  refine Triple.bind ?_ fun _ => emit_stable _
  refine .ite (fun _ => ?_) fun _ => .ite (fun _ => ?_) fun _ =>
    .ite (fun hdir => ?_) fun _ => ?_
  · exact (processOneFileReg_bounded.post_mono
      fun _ _ h => hmore _ h).from_state hw
  · exact ((processOneFileLink_bounded (by omega)).post_mono
      fun _ _ h => hmore _ h).from_state hw
  · exact processOneFileDir_bounded hw (hfound hdir) hsum
  · exact (doExit_bounded _ _ fun _ h => Charged.within h).from_state hw

end

/-! Runs. -/

section

variable {limits : Limits} {flags : Flags} {sizes : Nat → UInt64}

/-- What `fstat` has reported in so many passes. -/
def sizesTotal (sizes : Nat → UInt64) (n : Nat) : Nat :=
  ∑ i ∈ Finset.range n, (sizes i).toNat

theorem sizesTotal_succ (sizes : Nat → UInt64) (n : Nat) :
    sizesTotal sizes (n + 1) = sizesTotal sizes n + (sizes n).toNat :=
  Finset.sum_range_succ _ _

/-- A pass counts its entry before it asks for the name. -/
def PassBounded (limits : Limits) (entries spent : Nat) :
    PassStart → Unpacker → Prop
  | .ended _ => Charged limits entries spent 0 0
  | .entry _ _ => Charged limits (entries + 1) spent 0 1

theorem startEntry_bounded {entries spent objects : Nat} (hdr : FileHeader) :
    Triple (OnStatics (Charged limits entries spent 0 objects))
      (startEntry hdr)
      (fun start w => (∃ name, start = .entry hdr name) ∧
        OnStatics (Charged limits entries spent 0 objects) w)
      (Bounded limits) := by
  refine .ite (fun _ => doExit_bounded _ _ fun _ h => Charged.within h)
    fun _ => ?_
  refine (Preserves.bounded (readAllWithCrc_stable _)
    fun _ h => Charged.within h).bind fun result => ?_
  cases result with
  | none => exact doExit_bounded _ _ fun _ h => Charged.within h
  | some name =>
      have hbegin : Triple (OnStatics (Charged limits entries spent 0 objects))
          (beginEntry (CString.ofBuffer name))
          (fun _ => OnStatics (Charged limits entries spent 0 objects))
          (Bounded limits) := .modify fun _ h =>
        ⟨h.counted, h.made, h.kept, fun hlimit =>
          ⟨(h.covered hlimit).paid, (h.covered hlimit).kept,
            (h.covered hlimit).total⟩⟩
      exact hbegin.bind fun _ => .ret fun _ h => ⟨⟨name, rfl⟩, h⟩

theorem startPass_bounded {entries spent : Nat}
    (hentries : entries + 1 < 2 ^ 64) :
    Triple (OnStatics (Charged limits entries spent 0 0)) (startPass limits)
      (fun start => OnStatics (PassBounded limits entries spent start))
      (Bounded limits) := by
  refine (Preserves.bounded (readAllWithCrc_stable _)
    fun _ h => Charged.within h).bind fun result => ?_
  cases result with
  | none => exact .ret fun _ h => h
  | some bytes =>
      refine .ite (fun _ => (setErrno_stable _).bind fun _ =>
        .ret fun _ h => h) fun _ => ?_
      have hcount : Triple (OnStatics (Charged limits entries spent 0 0))
          countFile
          (fun _ => OnStatics fun u => u.totalFiles.toNat = entries + 1 ∧
            Charged limits entries spent 0 0
              { u with totalFiles := UInt64.ofNat entries })
          (Bounded limits) := by
        refine .modify fun w h => ⟨?_, ?_⟩
        · simp only
          rw [UInt64.toNat_add, h.counted]
          exact Nat.mod_eq_of_lt hentries
        · refine ⟨UInt64.toNat_ofNat_of_lt' (Nat.lt_of_succ_lt hentries), h.made, h.kept,
            fun hlimit => ?_⟩
          exact ⟨(h.covered hlimit).paid, (h.covered hlimit).kept,
            (h.covered hlimit).total⟩
      refine hcount.bind fun _ => .get_bind fun w hw => .ite (fun _ => ?_)
        fun hchecked => ?_
      · refine (doExit_bounded (P := fun u => WithinLimits limits u) _ _
          fun _ h => h).from_state ?_
        exact ⟨hw.2.within.bytes, hw.2.within.objects⟩
      · have hcharged : OnStatics
            (Charged limits (entries + 1) spent 0 1) w := by
          obtain ⟨hcounted, _, hmade, hkept, hcovered⟩ := hw
          refine ⟨hcounted, by simp only at hmade; omega, fun hlimit => ?_,
            fun hlimit => ⟨(hcovered hlimit).paid, (hcovered hlimit).kept,
              (hcovered hlimit).total⟩⟩
          have hunder : w.statics.totalFiles ≤ limits.filesLimit :=
            UInt64.not_lt.mp fun hover => hchecked ⟨hlimit, hover⟩
          rw [UInt64.le_iff_toNat_le] at hunder
          simp only at hmade
          omega
        refine ((startEntry_bounded _).from_state hcharged).post_mono ?_
        rintro start w' ⟨⟨name, rfl⟩, h⟩
        exact h

theorem unpackLoop_bounded {count : Nat} (hcount : count + 1 < 2 ^ 64)
    (hsum : ∀ n, n ≤ count + 1 → sizesTotal sizes n +
      limits.bytesLimit.toNat + MAX_PATH_LENGTH ≤ 2 ^ 64) (fuel : Nat) :
    ∀ n w, n + fuel = count + 1 → SizesFound limits flags sizes n w →
      OnStatics (Charged limits n (sizesTotal sizes n) 0 0) w →
      Triple (· = w) (unpackLoop limits flags fuel)
        (fun _ => OnStatics (WithinLimits limits)) (Bounded limits) := by
  induction fuel with
  | zero => exact fun n w _ _ hw => .throw fun _ h => h ▸ hw.within
  | succ fuel ih =>
      intro n w hn hsizes hw
      rw [unpackLoop_succ]
      refine ((startPass_bounded (by omega)).from_state hw).ran.bind
        fun start => ?_
      cases start with
      | ended seen => exact .ret fun _ h => Charged.within h.1
      | entry hdr name =>
          rintro w₁ ⟨hcharged, hstart⟩
          have hnext := hsum (n + 1) (by omega)
          rw [sizesTotal_succ] at hnext
          refine Triple.bind (handleEntry_bounded hcharged
            (hsizes.here hstart) hnext).ran (fun _ => ?_) w₁ rfl
          rintro w₂ ⟨hkept, hentry⟩
          rw [← sizesTotal_succ] at hkept
          exact ih (n + 1) w₂ (by omega) (hsizes.next hstart hentry) hkept w₂
            rfl

/-- No run puts more bytes into files and links, or makes more objects, than
the limits allow, if the sizes of the directories that are sent again do not
make the total wrap around. -/
theorem doUnpackExt_withinLimits (limits : Limits) (flags : Flags)
    (sizes : Nat → UInt64) (w : World Unpacker)
    (hfresh : w.statics.mutations = [])
    (hlength : w.stdin.length + 1 < 2 ^ 64)
    (hsizes : SizesFound limits flags sizes 0 w.started)
    (hsum : ∀ n, n ≤ w.stdin.length + 1 → sizesTotal sizes n +
      limits.bytesLimit.toNat + MAX_PATH_LENGTH ≤ 2 ^ 64) :
    WithinLimits limits
      (finalState (doUnpackExt limits flags) w).statics := by
  have hstart : OnStatics
      (Charged limits 0 (sizesTotal sizes 0) 0 0) w.started := by
    have hbytes : bytesPut w.started.statics.mutations = 0 := by
      change bytesPut w.statics.mutations = 0
      rw [hfresh]
      rfl
    have hobjects : objectsMade w.started.statics.mutations = 0 := by
      change objectsMade w.statics.mutations = 0
      rw [hfresh]
      rfl
    refine ⟨rfl, Nat.le_of_eq hobjects, fun _ => ?_, fun _ => ⟨?_, ?_, ?_⟩⟩
    · rw [hobjects]
      exact Nat.zero_le _
    · exact Nat.le_of_eq hbytes
    · rw [hbytes]
      exact Nat.zero_le _
    · exact Nat.zero_le _
  have hrun := (unpackLoop_bounded hlength hsum _ 0 w.started
    (Nat.zero_add _) hsizes hstart).bind fun seen =>
      Preserves.bounded (finishUnpack_statics seen) fun _ h => h
  have hfinal := hrun.finalState rfl
  rw [finalState, ← doUnpackExt_run] at hfinal
  exact hfinal

end

/-- The files `a` and `b` with two bytes each. -/
def twoFilesStream : List UInt8 :=
  fileHeaderCodec.put ⟨2, 0x81A4, 2, 0, 0, 0, 0⟩ ++ [0x61, 0] ++ [1, 2] ++
    fileHeaderCodec.put ⟨2, 0x81A4, 2, 0, 0, 0, 0⟩ ++ [0x62, 0] ++ [3, 4]

/-- The second file does not fit. -/
theorem doUnpackExt_withinLimits_twoFiles :
    bytesPut (finalState (doUnpackExt ⟨committedTable, 3, 2, 0⟩ 0#32)
      (freshWorld twoFilesStream false)).statics.mutations = 2 ∧
    WithinLimits ⟨committedTable, 3, 2, 0⟩
      (finalState (doUnpackExt ⟨committedTable, 3, 2, 0⟩ 0#32)
        (freshWorld twoFilesStream false)).statics := by
  refine ⟨by decide +kernel, ?_⟩
  refine doUnpackExt_withinLimits _ _ (fun _ => 0) _ rfl (by decide) ?_ ?_
  · rintro done w₁ hdr name w₂ _ _ ⟨_, hflag⟩
    cases hflag
  · intro n _
    have hzero : sizesTotal (fun _ => 0) n = 0 := Finset.sum_const_zero
    rw [hzero]
    decide

end QubesUtils
