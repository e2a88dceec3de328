/-
Every run of the receiver reports its outcome once, with code 0 if and only if
all went well, with two exceptions: it exits without a report when it gets to
the times of an entry and they are out of range, and it reports code 0 when a
`write` to a file takes nothing and no call has failed.
-/
import QubesUtils.UnpackRun

namespace QubesUtils

open Hoare Fifo Process ByteCodec

/-! What is to be shown. -/

/-- The next call succeeds. -/
def Succeeding (outcomes : List Outcome) : Prop :=
  (outcomes.headD .plain).error = none

/-- The current directory can be opened, synced and closed. -/
def SyncSucceeds (w : World Unpacker) : Prop :=
  Succeeding w.outcomes ∧ Succeeding w.outcomes.tail ∧
    Succeeding w.outcomes.tail.tail

/-- One result is on the pipe, whole if the pipe has taken its header. -/
structure HeaderSent (code : UInt32) (before after : World Unpacker) :
    Prop where
  answer : Answer code before.crc32Sum (pipes.sentBy after.trace)
  whole : ∀ w', (writeAll writeStdout
    (resultHeaderCodec.put ⟨code, 0, before.crc32Sum⟩)).run before =
      .ok true w' →
    resultHeaderCodec.put ⟨code, 0, before.crc32Sum⟩ <+:
      pipes.sentBy after.trace

/-- The run ends with a code, right after it has sent it; it has not sent
anything before. -/
structure Reports (limits : Limits) (flags : Flags) (w : World Unpacker)
    (code : UInt32) (last : Option CString) (before after : World Unpacker) :
    Prop where
  ends : (doUnpackExt limits flags).run w = .ok code after ∨
    (doUnpackExt limits flags).run w = .error (.exit code) after
  silent : Silent before
  sends : (sendStatusAndCrc code last).run before = .ok () after
  header : HeaderSent code before after

/-- The handler gets to the times of the entry. -/
inductive TimesReached (limits : Limits) (flags : Flags) (hdr : FileHeader)
    (name : List UInt8) (w : World Unpacker) : Prop
  | file {fdout : Nat} {w' : World Unpacker} (hreg : sIsReg hdr.mode = true)
      (hrun : (completeFile limits hdr (CString.ofBuffer name)
        (validateFlags flags)).run w = .ok fdout w')
  | dir {path : Path} {w' : World Unpacker} (hdir : sIsDir hdr.mode = true)
      (hflag : hasFlag flags COPY_ALLOW_DIRECTORIES = true)
      (hrun : (reopenDir limits (CString.ofBuffer name)
        (validateFlags flags)).run w = .ok (some path) w')

/-- The run gets to the times of an entry with this header. -/
def CallsTimes (limits : Limits) (flags : Flags) (w : World Unpacker)
    (hdr : FileHeader) : Prop :=
  ∃ done last name w', Passes limits flags w.started done last ∧
    (startPass limits).run last = .ok (.entry hdr name) w' ∧
    TimesReached limits flags hdr name w'

/-- The content of a file stops at a `write` that takes nothing, and `errno`
is still 0. -/
structure Stalls (limits : Limits) (flags : Flags) (hdr : FileHeader)
    (name : List UInt8) (w : World Unpacker) : Prop where
  reg : sIsReg hdr.mode = true
  copy : ∃ fdout dir segment w₁ w₂,
    (openFile limits (CString.ofBuffer name) (validateFlags flags)).run w =
      .ok (fdout, dir, segment) w₁ ∧
    (copyOutput limits fdout hdr (CString.ofBuffer name)).run w₁ =
      .ok .writeError w₂ ∧ w₂.errno = 0

/-- The run gets to such a `write`. -/
def WritesNothing (limits : Limits) (flags : Flags) (w : World Unpacker) :
    Prop :=
  ∃ done last hdr name w', Passes limits flags w.started done last ∧
    (startPass limits).run last = .ok (.entry hdr name) w' ∧
    Stalls limits flags hdr name w'

/-! The result on the pipe. -/

/-- The process has gone on to write, and the data was the first of it. -/
def Carries (start : World Unpacker) (data : List UInt8)
    (w : World Unpacker) : Prop :=
  ∃ more, OnStream (Wrote start.trace start.crc32Sum start.stdin
    (data ++ more)) w

section

variable {start : World Unpacker} {data : List UInt8}
  {E : Exit → World Unpacker → Prop}

theorem writeAll_carries (rest : List UInt8) :
    Triple (Carries start data) (writeAll writeStdout rest)
      (fun _ => Carries start data) E := by
  refine Triple.exists_pre fun more => ?_
  refine (writeAll_writes rest).post_mono fun _ w h => ?_
  obtain ⟨part, _, h⟩ := h.part
  rw [List.append_assoc] at h
  exact ⟨_, h⟩

theorem setErrno_carries (errno : UInt32) :
    Triple (Carries start data) (setErrno errno)
      (fun _ => Carries start data) E :=
  .modify fun _ h => h

theorem Carries.prefix {w : World Unpacker} (h : Carries start data w)
    (hstart : Silent start) : data <+: pipes.sentBy w.trace := by
  obtain ⟨more, ⟨writes, htrace, _, hwrites⟩, _⟩ := h
  rw [htrace, Port.sentBy_append, hstart, List.nil_append, hwrites]
  exact List.prefix_append _ _

end

/-- The name behind the header. -/
def sendName (errno : UInt32) : Option CString → Unpack Unit
  | none => setErrno errno
  | some name => do
      let _ ← writeAll writeStdout
        (resultHeaderExtCodec.put (UInt32.ofNat name.bytes.length))
      let _ ← writeAll writeStdout name.bytes
      setErrno errno

theorem sendStatusAndCrc_run (code : UInt32) (last : Option CString)
    (w : World Unpacker) : (sendStatusAndCrc code last).run w =
      (writeAll writeStdout (resultHeaderCodec.put ⟨code, 0, w.crc32Sum⟩) >>=
        fun _ => sendName w.errno last).run w := by
  cases last with
  | none => rfl
  | some name => rfl

theorem sendName_carries {start : World Unpacker} {data : List UInt8}
    {E : Exit → World Unpacker → Prop} (errno : UInt32)
    (last : Option CString) :
    Triple (Carries start data) (sendName errno last)
      (fun _ => Carries start data) E := by
  cases last with
  | none => exact setErrno_carries errno
  | some name =>
      exact (writeAll_carries _).bind fun _ =>
        (writeAll_carries _).bind fun _ => setErrno_carries errno

theorem sendStatusAndCrc_header {code : UInt32} {last : Option CString}
    {before after : World Unpacker} (hbefore : Silent before)
    (hrun : (sendStatusAndCrc code last).run before = .ok () after) :
    HeaderSent code before after := by
  have hanswer : Answered before.trace code before.crc32Sum after :=
    (@sendStatusAndCrc_answer (fun _ _ => True) code last before.trace
      before.crc32Sum before.stdin).run_ok ⟨rfl, rfl, rfl⟩ hrun
  refine ⟨?_, fun w' hheader => ?_⟩
  · obtain ⟨answer, htrace, _, htext, _⟩ := hanswer
    rw [htrace, Port.sentBy_append, hbefore, List.nil_append]
    exact htext
  have hstart : OnStream (Wrote before.trace before.crc32Sum before.stdin [])
      before :=
    ⟨⟨[], (List.append_nil _).symm, onlyWrites_nil, rfl⟩, rfl, rfl⟩
  have hwrote := (@writeAll_writes _ (fun _ _ => True) before.trace
    before.crc32Sum before.stdin [] _).run_ok hstart hheader
  have hcarries : Carries before
      (resultHeaderCodec.put ⟨code, 0, before.crc32Sum⟩) w' := by
    refine ⟨[], ?_⟩
    rw [List.append_nil]
    exact hwrote
  rw [sendStatusAndCrc_run, EStateM.run_bind, hheader] at hrun
  have hafter := (@sendName_carries _ _ (fun _ _ => True) before.errno
    last).run_ok hcarries hrun
  exact hafter.prefix hbefore

/-! The part behind the loop. -/

theorem attempt_run (w : World Unpacker) :
    (attempt.run w = .ok (some (w.outcomes.headD .plain))
        { w with outcomes := w.outcomes.tail } ∧ Succeeding w.outcomes) ∨
      ∃ errno : Errno, attempt.run w = .ok none
        { w with outcomes := w.outcomes.tail, errno := errno.value } ∧
          ¬ Succeeding w.outcomes := by
  rw [Succeeding]
  have hnext : (nextOutcome : Unpack Outcome).run w =
      .ok (w.outcomes.headD .plain) { w with outcomes := w.outcomes.tail } :=
    rfl
  rw [attempt, EStateM.run_bind, hnext]
  simp only
  cases herror : (w.outcomes.headD .plain).error with
  | none => exact Or.inl ⟨rfl, rfl⟩
  | some errno => exact Or.inr ⟨errno, rfl, by simp⟩

theorem syncfs_run (w : World Unpacker) :
    (syncfs.run w = .ok (some (w.outcomes.headD .plain))
        { w with outcomes := w.outcomes.tail, trace := w.trace ++ [.synced] } ∧
          Succeeding w.outcomes) ∨
      ∃ errno : Errno, syncfs.run w = .ok none
        { w with outcomes := w.outcomes.tail, errno := errno.value } ∧
          ¬ Succeeding w.outcomes := by
  rw [syncfs, EStateM.run_bind]
  rcases attempt_run w with ⟨hrun, hsucceeds⟩ | ⟨errno, hrun, hfails⟩
  · rw [hrun]
    exact Or.inl ⟨rfl, hsucceeds⟩
  · rw [hrun]
    exact Or.inr ⟨errno, rfl, hfails⟩

theorem silent_synced {w w' : World Unpacker} (h : Silent w)
    (htrace : w'.trace = w.trace ++ [.synced]) : Silent w' := by
  rw [Silent, htrace, Port.sentBy_append, h]
  rfl

/-- The error is gone behind `syncfs` if and only if there was none and
nothing has failed. -/
theorem syncCwd_run {w : World Unpacker} (hsilent : Silent w) :
    ∃ w', (syncCwd w.errno).run w = .ok () w' ∧ Silent w' ∧
      (w'.errno = 0 ↔ w.errno = 0 ∧ SyncSucceeds w) := by
  rw [syncCwd, EStateM.run_bind]
  rcases attempt_run w with ⟨hopen, hopened⟩ | ⟨errno, hopen, hfails⟩
  swap
  · rw [hopen]
    exact ⟨_, rfl, hsilent, fun h => absurd h errno.ne_zero,
      fun h => absurd h.2.1 hfails⟩
  rw [hopen]
  simp only [EStateM.run_bind]
  rcases syncfs_run { w with outcomes := w.outcomes.tail } with
    ⟨hsync, hsynced⟩ | ⟨errno, hsync, hfails⟩
  swap
  · rw [hsync]
    exact ⟨_, rfl, hsilent, fun h => absurd h errno.ne_zero,
      fun h => absurd h.2.2.1 hfails⟩
  rw [hsync]
  simp only [EStateM.run_bind]
  rcases attempt_run { w with
      outcomes := w.outcomes.tail.tail, trace := w.trace ++ [.synced] } with
    ⟨hclose, hclosed⟩ | ⟨errno, hclose, hfails⟩
  · rw [hclose]
    exact ⟨_, rfl, silent_synced hsilent rfl,
      fun h => ⟨h, hopened, hsynced, hclosed⟩, fun h => h.1⟩
  · rw [hclose]
    exact ⟨_, rfl, silent_synced hsilent rfl,
      fun h => absurd h errno.ne_zero, fun h => absurd h.2.2.2 hfails⟩

theorem savedErrno_eq_zero_iff {seen : Bool} {errno : UInt32}
    (herrno : seen = true → errno = 0) :
    (if seen = false ∧ errno = 0 then UInt32.ofNat EREMOTEIO else errno) = 0 ↔
      seen = true := by
  cases seen with
  | true => simp [herrno rfl]
  | false =>
      have hremote : UInt32.ofNat EREMOTEIO ≠ 0 := by decide
      simp only [true_and, Bool.false_eq_true, iff_false]
      split
      · exact hremote
      · rename_i h
        exact h

/-- The result that is sent at the end. -/
def sendLast : Unpack UInt32 := do
  let w ← get
  sendStatusAndCrc w.errno (some w.statics.untrustedNamebuf)
  return w.errno

theorem sendLast_run {w after : World Unpacker}
    (hsend : (sendStatusAndCrc w.errno (some w.statics.untrustedNamebuf)).run
      w = .ok () after) : sendLast.run w = .ok w.errno after := by
  rw [sendLast, EStateM.run_bind, EStateM.run_get]
  simp only [EStateM.run_bind]
  rw [hsend]
  rfl

theorem finishUnpack_run {seen : Bool} {w : World Unpacker}
    {saved : UInt32} (hsaved : saved = if seen = false ∧ w.errno = 0
      then UInt32.ofNat EREMOTEIO else w.errno) :
    (finishUnpack seen).run w = (syncCwd saved >>= fun _ => sendLast).run
      { w with errno := saved } := by
  subst hsaved
  rfl

/-- Behind the loop a result is sent, without an error if the end marker has
been seen and the current directory is synced. -/
theorem finishUnpack_sends {seen : Bool} {w : World Unpacker}
    (hsilent : Silent w) (herrno : seen = true → w.errno = 0) :
    ∃ code last before after, (finishUnpack seen).run w = .ok code after ∧
      Silent before ∧ (sendStatusAndCrc code last).run before = .ok () after ∧
      (code = 0 ↔ seen = true ∧ SyncSucceeds w) := by
  obtain ⟨saved, hsaved⟩ : ∃ saved, saved = (if seen = false ∧ w.errno = 0
    then UInt32.ofNat EREMOTEIO else w.errno) := ⟨_, rfl⟩
  have hzero : saved = 0 ↔ seen = true :=
    hsaved ▸ savedErrno_eq_zero_iff herrno
  have hsilent' : Silent { w with errno := saved } := hsilent
  obtain ⟨before, hsync, hbefore, herror⟩ := syncCwd_run hsilent'
  obtain ⟨after, hsend, _⟩ := sendStatusAndCrc_returns before.errno
    (some before.statics.untrustedNamebuf) before
  refine ⟨before.errno, _, before, after, ?_, hbefore, hsend, ?_⟩
  · rw [finishUnpack_run hsaved, EStateM.run_bind, hsync]
    exact sendLast_run hsend
  · exact herror.trans (and_congr hzero Iff.rfl)

/-! A `write` that takes nothing. -/

/-- Something has failed, or the last call was a `write` that took nothing. -/
def FailedOrEmpty (ino : Nat) (w : World Unpacker) : Prop :=
  w.errno ≠ 0 ∨ ∃ data before, data ≠ [] ∧
    (writeFile ino data).run before = .ok (some 0) w

theorem writeAllLoop_failed (ino fuel : Nat) :
    ∀ rest, Triple (fun _ => True) (writeAllLoop (writeFile ino) fuel rest)
      (fun ok w => ok = false → FailedOrEmpty ino w) fun _ _ => True := by
  induction fuel with
  | zero => exact fun _ => .ret fun _ _ h => by cases h
  | succ fuel ih =>
      intro rest
      refine .ite (fun _ => .ret fun _ _ h => by cases h) fun hrest => ?_
      refine Triple.anything.bind fun _ => fun before _ => ?_
      have hwrite : Triple (OnStream fun _ _ _ => True) (writeFile ino rest)
          (OrErrno (OnStream fun _ _ _ => True)) fun _ _ => True :=
        perform_stream _
      refine ((hwrite.from_state trivial).ran.bind fun result => ?_) before rfl
      cases result with
      | none => exact .ret fun _ h _ => Or.inl (h.1.2 rfl)
      | some count =>
          refine .ite (fun hnothing => .ret fun _ h _ => ?_)
            fun _ => (ih _).pre_mono fun _ _ => trivial
          rw [hnothing] at h
          exact Or.inr ⟨rest, before, hrest, h.2⟩

theorem copyFileLoop_failed (ino fuel : Nat) :
    ∀ missing, Triple (fun _ => True)
      (copyFileLoop read (writeFile ino) fuel missing)
      (fun status w => status = .writeError → FailedOrEmpty ino w)
      fun _ _ => True := by
  induction fuel with
  | zero => exact fun _ => .ret fun _ _ h => by cases h
  | succ fuel ih =>
      intro missing
      refine .ite (fun _ => .ret fun _ _ h => by cases h) fun _ => ?_
      refine Triple.anything.bind fun result => ?_
      cases result with
      | eof => exact .ret fun _ _ h => by cases h
      | error => exact .ret fun _ _ h => by cases h
      | data bytes =>
          refine Triple.anything.bind fun _ => ?_
          refine (writeAllLoop_failed ino _ bytes).bind fun ok => ?_
          refine .ite (fun _ => (ih _).pre_mono fun _ _ => trivial)
            fun hok => .ret fun _ h _ => h (Bool.eq_false_iff.mpr hok)

/-- Where the content stops with `errno` 0, a `write` has taken nothing. -/
theorem Stalls.write {limits : Limits} {flags : Flags} {hdr : FileHeader}
    {name : List UInt8} {w : World Unpacker}
    (h : Stalls limits flags hdr name w) :
    ∃ fdout data before after, data ≠ [] ∧
      (writeFile fdout data).run before = .ok (some 0) after ∧
        after.errno = 0 := by
  obtain ⟨_, fdout, dir, segment, w₁, w₂, _, hcopy, herrno⟩ := h
  have hfailed : Triple (fun _ => True)
      (copyOutput limits fdout hdr (CString.ofBuffer name))
      (fun status w => status = .writeError → FailedOrEmpty fdout w)
      fun _ _ => True :=
    Triple.anything.bind fun _ => Triple.anything.bind fun _ =>
      Triple.anything.bind fun _ => copyFileLoop_failed fdout _ _
  rcases hfailed.run_ok trivial hcopy rfl with hne | ⟨data, before, hdata,
    hwrite⟩
  · exact absurd herrno hne
  · exact ⟨fdout, data, before, w₂, hdata, hwrite, herrno⟩

/-! Times that are out of range. -/

theorem fixTimesAndPerms_outOfRange (object : FileSystem.Object)
    {hdr : FileHeader} (name : CString) (h : OutOfRange hdr)
    (w : World Unpacker) : ∃ value,
      (fixTimesAndPerms object hdr name).run w =
        .error (.message (.invalidNanoseconds value)) w := by
  by_cases hatime : hdr.atimeNsec > 999999999
  · rw [fixTimesAndPerms, validateUtimeNsec, if_pos hatime]
    exact ⟨_, rfl⟩
  · rw [fixTimesAndPerms, validateUtimeNsec, if_neg hatime,
      validateUtimeNsec, if_pos (h.resolve_left hatime)]
    exact ⟨_, rfl⟩

section

variable {limits : Limits} {flags : Flags} {hdr : FileHeader}
  {name : List UInt8} {w : World Unpacker}

/-- Times that are out of range end the run when it gets to them. -/
theorem TimesReached.ends (h : TimesReached limits flags hdr name w)
    (hrange : OutOfRange hdr) : ∃ value w',
      (handleEntry limits flags hdr name).run w =
        .error (.message (.invalidNanoseconds value)) w' := by
  cases h with
  | @file fdout w' hreg hrun =>
      obtain ⟨value, hfix⟩ := fixTimesAndPerms_outOfRange (.file fdout)
        (CString.ofBuffer name) hrange w'
      refine ⟨value, w', ?_⟩
      rw [handleEntry, processByType_reg hreg, processOneFileReg_eq,
        EStateM.run_bind, EStateM.run_bind, hrun]
      simp only
      rw [hfix]
  | @dir path w' hdir hflag hrun =>
      obtain ⟨value, hfix⟩ := fixTimesAndPerms_outOfRange (.dir path)
        (CString.ofBuffer name) hrange w'
      refine ⟨value, w', ?_⟩
      rw [handleEntry, processByType_dir hdir hflag, processOneFileDir_eq,
        EStateM.run_bind, EStateM.run_bind, hrun]
      simp only [fixReopened]
      rw [hfix]

/-- A `write` that takes nothing ends the run with code 0. -/
theorem Stalls.ends (h : Stalls limits flags hdr name w) : ∃ w',
    (handleEntry limits flags hdr name).run w = .error (.exit 0) w' := by
  obtain ⟨hreg, fdout, dir, segment, w₁, w₂, hopen, hcopy, herrno⟩ := h
  obtain ⟨w', hsend, _⟩ := sendStatusAndCrc_returns w₂.errno
    (some (CString.ofBuffer name)) w₂
  have hexit : (doExitErrno (some (CString.ofBuffer name)) :
      Unpack Unit).run w₂ = .error (.exit 0) w' := by
    rw [doExitErrno_run hsend, herrno]
  have hcomplete : (completeFile limits hdr (CString.ofBuffer name)
      (validateFlags flags)).run w = .error (.exit 0) w' := by
    rw [completeFile_eq, EStateM.run_bind, hopen]
    simp only [fillFile, fillOutput_eq, EStateM.run_bind]
    rw [hcopy]
    simp only [checkCopy]
    rw [hexit]
  refine ⟨w', ?_⟩
  rw [handleEntry, processByType_reg hreg, processOneFileReg_eq,
    EStateM.run_bind, EStateM.run_bind, hcomplete]

end

/-! Whole runs. -/

section

variable {limits : Limits} {flags : Flags} {w : World Unpacker}

/-- Times that are out of range end the run without a report. -/
theorem CallsTimes.run (htrace : w.trace = []) {hdr : FileHeader}
    (h : CallsTimes limits flags w hdr) (hrange : OutOfRange hdr) :
    ∃ value w', (doUnpackExt limits flags).run w =
      .error (.message (.invalidNanoseconds value)) w' := by
  obtain ⟨done, last, name, w₁, hpasses, hstart, htimes⟩ := h
  obtain ⟨value, w', hentry⟩ := htimes.ends hrange
  exact ⟨value, w',
    doUnpackExt_lastPass htrace hpasses (.stopped hstart hentry)⟩

/-- A `write` that takes nothing ends the run with code 0. -/
theorem WritesNothing.run (htrace : w.trace = [])
    (h : WritesNothing limits flags w) : ∃ done last w',
      LoopRun limits flags w.started done last (.error (.exit 0) w') ∧
        (doUnpackExt limits flags).run w = .error (.exit 0) w' := by
  obtain ⟨done, last, hdr, name, w₁, hpasses, hstart, hstalls⟩ := h
  obtain ⟨w', hentry⟩ := hstalls.ends
  have hlast : LastPass limits flags last (.error (.exit 0) w') :=
    .stopped hstart hentry
  exact ⟨done, last, w', ⟨hpasses, hlast⟩,
    doUnpackExt_lastPass htrace hpasses hlast⟩

end

end QubesUtils
