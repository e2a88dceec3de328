/-
A name or a target that a validator rejects: the code of the validator is what
the receiver sends and what the sender goes by, except for directories.
-/
import QubesUtils.ResultMessage

namespace QubesUtils

open ByteCodec Process Hoare

/-! The sender. -/

/-- A message that gives the reason of a rejection. -/
inductive NamesReason : Nat → Message → Prop
  | forbiddenCharacter (text : List UInt8) :
      NamesReason EILSEQ (.forbiddenCharacter text)
  | brokenLink (text : List UInt8) : NamesReason ENOLINK (.brokenLink text)

/-- A sender that reads this reports the reason. -/
def ReasonTold (e : Nat) (sent : List UInt8) : Prop :=
  ∀ (ignoreQuotaError : Bool) (sender : World Packer),
    Benign sender.outcomes → sender.stdin = sent →
      ∃ message sender', (waitForResult ignoreQuotaError).run sender =
        .error (.message message) sender' ∧ NamesReason e message

/-- The sender goes by the header, whatever follows it. -/
theorem waitForResult_header (ignoreQuotaError : Bool) {w : World Packer}
    {hdr : ResultHeader} {rest : List UInt8} (h : Benign w.outcomes)
    (hstdin : w.stdin = resultHeaderCodec.put hdr ++ rest) :
    ∃ lastFilename w', (waitForResult ignoreQuotaError).run w =
      (judgeResult ignoreQuotaError hdr lastFilename).run w' := by
  obtain ⟨w₁, hheader, _⟩ := readAll_front _ _ h hstdin
  rw [resultHeaderCodec.length_put] at hheader
  obtain ⟨name, w₂, hname⟩ := readLastFilename_returns w₁
  have hreceived : receiveResult.run w =
      .ok (some (hdr, name.map shownByte)) w₂ := by
    rw [receiveResult, EStateM.run_bind, hheader]
    simp only [Option.elim_some, resultHeaderCodec.get_put]
    rw [EStateM.run_bind, hname]
    rfl
  exact ⟨_, _, waitForResult_received ignoreQuotaError hreceived⟩

theorem judgeResult_reason (ignoreQuotaError : Bool) {e : Nat}
    {hdr : ResultHeader} (lastFilename : List UInt8) (w : World Packer)
    (he : e = EILSEQ ∨ e = ENOLINK) (hcode : hdr.errorCode = UInt32.ofNat e) :
    ∃ message, (judgeResult ignoreQuotaError hdr lastFilename).run w =
      .error (.message message) w ∧ NamesReason e message := by
  rw [judgeResult, EStateM.run_bind, EStateM.run_get, hcode]
  rcases he with rfl | rfl
  · exact ⟨_, rfl, .forbiddenCharacter lastFilename⟩
  · exact ⟨_, rfl, .brokenLink lastFilename⟩

theorem reasonTold_of_header {e : Nat} {crc32 : UInt64} {sent : List UInt8}
    (he : e = EILSEQ ∨ e = ENOLINK)
    (h : resultHeaderCodec.put ⟨UInt32.ofNat e, 0, crc32⟩ <+: sent) :
    ReasonTold e sent := by
  intro ignoreQuotaError sender hsender hstdin
  obtain ⟨rest, hrest⟩ := h
  obtain ⟨lastFilename, w', hwait⟩ := waitForResult_header ignoreQuotaError
    hsender (hstdin.trans hrest.symm)
  obtain ⟨message, hjudge, hreason⟩ := @judgeResult_reason ignoreQuotaError e
    ⟨UInt32.ofNat e, 0, crc32⟩ lastFilename w' he rfl
  exact ⟨message, w', hwait.trans hjudge, hreason⟩

/-! The receiver. -/

/-- The validator for the type of an entry returns `-e` for what has been
received. -/
inductive Rejects (limits : Limits) (flags : Flags) (hdr : FileHeader)
    (name : List UInt8) (w : World Unpacker) (e : Nat) : Prop
  | file (hreg : sIsReg hdr.mode = true)
      (hret : qubesPureValidateFileNameV2 limits.table
        (CString.ofBuffer name) (validateFlags flags) = .ok (-e))
  | dir (hdir : sIsDir hdr.mode = true)
      (hflag : hasFlag flags COPY_ALLOW_DIRECTORIES = true)
      (hrc : qubesPureValidateFileNameV2 limits.table
        (CString.ofBuffer name) (validateFlags flags) = .ok (-e))
  | link {content : CString} {w' : World Unpacker}
      (hlink : sIsLnk hdr.mode = true)
      (hflag : hasFlag flags COPY_ALLOW_SYMLINKS = true)
      (hread : (receiveTarget limits hdr (CString.ofBuffer name)).run w =
        .ok content w')
      (hrc : qubesPureValidateSymbolicLinkV2 limits.table
        (CString.ofBuffer name) content (validateFlags flags) = .ok (-e))

/-- The run tells the code, and with it the reason, unless the result cannot
be written. -/
def RejectionTold (limits : Limits) (flags : Flags) (w : World Unpacker)
    (e : Nat) : Prop :=
  ∃ last before after,
    Reports limits flags w (UInt32.ofNat e) last before after ∧
      ((∃ w', (writeAll writeStdout (resultHeaderCodec.put
          ⟨UInt32.ofNat e, 0, before.crc32Sum⟩)).run before = .ok true w') →
        ReasonTold e (pipes.sentBy after.trace))

section

variable {limits : Limits} {flags : Flags} {hdr : FileHeader}
  {name : List UInt8} {w : World Unpacker} {e : Nat}

theorem Rejects.reason (h : Rejects limits flags hdr name w e)
    (he : e ≠ 0) : e = EILSEQ ∨ e = ENOLINK := by
  have hflags := flagCheck_validateFlags flags
  cases h with
  | file _ hret =>
      have hreason := qubesPureValidateFileNameV2_reason hflags hret
      omega
  | dir _ _ hrc =>
      have hreason := qubesPureValidateFileNameV2_reason hflags hrc
      omega
  | link _ _ _ hrc =>
      have hreason := qubesPureValidateSymbolicLinkV2_reason hflags hrc
      omega

/-- A run that exits in the handler of an entry has told the code. -/
theorem reports_of_exit {done : List (FileHeader × List UInt8)}
    {last w₁ before : World Unpacker} {code : UInt32}
    {lastFilename : Option CString} (htrace : w.trace = [])
    (hpasses : Passes limits flags w.started done last)
    (hstart : (startPass limits).run last = .ok (.entry hdr name) w₁)
    (hexit : (processByType limits hdr (CString.ofBuffer name) flags).run
      w₁ = (doExit code lastFilename).run before)
    (hbefore : Silent before) :
    ∃ after, Reports limits flags w code lastFilename before after ∧
      (doUnpackExt limits flags).run w = .error (.exit code) after := by
  obtain ⟨after, hsends, _⟩ :=
    sendStatusAndCrc_returns code lastFilename before
  have hentry : (handleEntry limits flags hdr name).run w₁ =
      .error (.exit code) after := by
    rw [handleEntry, EStateM.run_bind, hexit, doExit_run hsends]
  have hrun :=
    doUnpackExt_lastPass htrace hpasses (.stopped hstart hentry)
  exact ⟨after, ⟨Or.inr hrun, hbefore, hsends,
    sendStatusAndCrc_header hbefore hsends⟩, hrun⟩

theorem liftFault_ok {α : Type} {x : Except Fault α} {a : α}
    (h : x = .ok a) (w : World Unpacker) :
    (liftFault x : Unpack α).run w = .ok a w := by
  rw [h]
  rfl

/-- Files and links are refused with the code of the validator. -/
theorem Rejects.exits (h : Rejects limits flags hdr name w e) (he : e ≠ 0)
    (hw : Steady w) (hdir : sIsDir hdr.mode = false) :
    ∃ lastFilename before, Silent before ∧
      (processByType limits hdr (CString.ofBuffer name) flags).run w =
        (doExit (UInt32.ofNat e) lastFilename).run before := by
  have hne : (-e : Int) ≠ 0 := by omega
  have hcode : UInt32.ofInt (- -(e : Int)) = UInt32.ofNat e := by
    rcases h.reason he with hreason | hreason
    · rw [hreason]
      decide
    · rw [hreason]
      decide
  cases h with
  | file hreg hret =>
      refine ⟨some (CString.ofBuffer name), w, hw.silent, ?_⟩
      rw [processByType_reg hreg, processOneFileReg, EStateM.run_bind,
        liftFault_ok hret]
      simp only [if_pos hne, hcode]
  | dir hdir' _ _ =>
      rw [hdir] at hdir'
      cases hdir'
  | @link content w' hlink hflag hread hrc =>
      obtain ⟨input, consumed, done, hreading⟩ := hw
      obtain ⟨payload, _, htaken⟩ :=
        (receiveTarget_taken limits hdr _).run_ok hreading hread
      refine ⟨some content, w', htaken.silent, ?_⟩
      rw [processByType_link hlink hflag, processOneFileLink_eq,
        EStateM.run_bind, hread]
      simp only
      rw [linkTarget, EStateM.run_bind, liftFault_ok hrc]
      simp only [if_pos hne, hcode]

/-- A directory is refused with the code as the validator returned it. -/
theorem Rejects.exits_dir (h : Rejects limits flags hdr name w e)
    (he : e ≠ 0) (hdir : sIsDir hdr.mode = true) :
    (processByType limits hdr (CString.ofBuffer name) flags).run w =
      (doExit (UInt32.ofInt (-e)) (some (CString.ofBuffer name))).run w := by
  have hne : (-e : Int) ≠ 0 := by omega
  obtain ⟨hreg, hlink⟩ := sIsDir_exclusive hdir
  cases h with
  | file hreg' _ =>
      rw [hreg] at hreg'
      cases hreg'
  | dir _ hflag hrc =>
      rw [processByType_dir hdir hflag, processOneFileDir,
        EStateM.run_bind, liftFault_ok hrc]
      simp only [if_pos hne]
  | link hlink' _ _ _ =>
      rw [hlink] at hlink'
      cases hlink'

/-- A run that exits with another code has not told this one. -/
theorem not_rejectionTold {code : UInt32} {after : World Unpacker}
    (hrun : (doUnpackExt limits flags).run w = .error (.exit code) after)
    (hcode : code ≠ UInt32.ofNat e) : ¬ RejectionTold limits flags w e := by
  rintro ⟨last, before, after', hreports, _⟩
  rcases hreports.ends with h | h
  · rw [hrun] at h
    cases h
  · rw [hrun] at h
    exact hcode (Exit.exit.inj (EStateM.Result.error.inj h).1)

/-- The code of a rejection is told if and only if the entry is no
directory. -/
theorem rejectionTold_iff {done : List (FileHeader × List UInt8)}
    {last w₁ : World Unpacker} (htrace : w.trace = [])
    (hpasses : Passes limits flags w.started done last)
    (hstart : (startPass limits).run last = .ok (.entry hdr name) w₁)
    (hrejects : Rejects limits flags hdr name w₁ e) (he : e ≠ 0) :
    RejectionTold limits flags w e ↔ sIsDir hdr.mode = false := by
  have hreason := hrejects.reason he
  have hsteady : Steady w₁ :=
    (startPass_steady (hpasses.steady (started_steady htrace)) hstart).1
  cases hdir : sIsDir hdr.mode with
  | false =>
      obtain ⟨lastFilename, before, hbefore, hexit⟩ :=
        hrejects.exits he hsteady hdir
      obtain ⟨after, hreports, _⟩ :=
        reports_of_exit htrace hpasses hstart hexit hbefore
      refine ⟨fun _ => rfl, fun _ => ⟨_, _, after, hreports, ?_⟩⟩
      rintro ⟨w', hheader⟩
      exact reasonTold_of_header hreason (hreports.header.whole w' hheader)
  | true =>
      obtain ⟨after, _, hrun⟩ := reports_of_exit htrace hpasses hstart
        (hrejects.exits_dir he hdir) hsteady.silent
      have hcode : UInt32.ofInt (-e) ≠ UInt32.ofNat e := by
        rcases hreason with rfl | rfl
        · decide
        · decide
      refine ⟨fun h => absurd h (not_rejectionTold hrun hcode), ?_⟩
      intro h
      cases h

end

/-- The code that a run exits with. -/
def exitCode {α : Type} : EStateM.Result Exit (World Unpacker) α →
    Option UInt32
  | .error (.exit code) _ => some code
  | _ => none

theorem run_of_exitCode {α : Type} {code : UInt32}
    {result : EStateM.Result Exit (World Unpacker) α}
    (h : exitCode result = some code) :
    ∃ after, result = .error (.exit code) after := by
  unfold exitCode at h
  split at h
  · rw [Option.some.inj h]
    exact ⟨_, rfl⟩
  · cases h

/-- The entry that a pass has found. -/
def foundEntry : EStateM.Result Exit (World Unpacker) PassStart →
    Option (FileHeader × List UInt8)
  | .ok (.entry hdr name) _ => some (hdr, name)
  | _ => none

theorem startPass_of_foundEntry {limits : Limits} {w : World Unpacker}
    {hdr : FileHeader} {name : List UInt8}
    (h : foundEntry ((startPass limits).run w) = some (hdr, name)) :
    (startPass limits).run w =
      .ok (.entry hdr name) (finalState (startPass limits) w) := by
  rw [finalState]
  unfold foundEntry at h
  split at h
  · rename_i hrun
    obtain ⟨rfl, rfl⟩ := Prod.mk.inj (Option.some.inj h)
    rw [hrun]
  · cases h

/-- The directory `..`. -/
def dotdotStream : List UInt8 :=
  fileHeaderCodec.put ⟨3, 0x41ED, 0, 0, 0, 0, 0⟩ ++ [0x2E, 0x2E, 0]

theorem dotdotStream_untold :
    qubesPureValidateFileNameV2 committedTable
        (CString.ofBuffer [0x2E, 0x2E, 0]) (validateFlags 2#32) =
          .ok (-EILSEQ) ∧
      exitCode ((doUnpackExt noLimits 2#32).run
        (freshWorld dotdotStream false)) = some 4294967212 ∧
      ¬ RejectionTold noLimits 2#32 (freshWorld dotdotStream false)
        EILSEQ := by
  have hexit : exitCode ((doUnpackExt noLimits 2#32).run
      (freshWorld dotdotStream false)) = some 4294967212 := by
    decide +kernel
  obtain ⟨after, hrun⟩ := run_of_exitCode hexit
  exact ⟨by decide +kernel, hexit, not_rejectionTold hrun (by decide)⟩

/-- The regular file `..`. -/
def dotdotFile : FileHeader := ⟨3, 0x81A4, 0, 0, 0, 0, 0⟩

theorem rejectionTold_dotdotFile :
    RejectionTold noLimits 0#32 (freshWorld
      (fileHeaderCodec.put dotdotFile ++ [0x2E, 0x2E, 0]) false) EILSEQ := by
  have hentry : foundEntry ((startPass noLimits).run (freshWorld
      (fileHeaderCodec.put dotdotFile ++ [0x2E, 0x2E, 0]) false).started) =
        some (dotdotFile, [0x2E, 0x2E, 0]) := by
    decide +kernel
  exact (rejectionTold_iff rfl (.nil _) (startPass_of_foundEntry hentry)
    (.file (by decide) (by decide +kernel)) (by decide)).mpr (by decide)

end QubesUtils
