/-
The answer of the receiver.  It writes nothing before its answer; an answer
with code 0 says that all the input up to the end marker has been processed,
that it is on disk, and what its checksum is.
-/
import QubesUtils.UnpackPass
import QubesUtils.UnpackConfinement
import QubesUtils.ProcessTrace

namespace QubesUtils

open Hoare Fifo Process ByteCodec

/-- A header, a length and a name, each as far as it could be written. -/
structure Answer (code : UInt32) (crc : UInt64) (text : List UInt8) :
    Prop where
  parts : ∃ header length name, text = header ++ length ++ name ∧
    header <+: resultHeaderCodec.put ⟨code, 0, crc⟩ ∧
    ∃ last : CString,
      length <+: resultHeaderExtCodec.put (UInt32.ofNat last.bytes.length) ∧
      name <+: last.bytes

/-- The process has answered. -/
def Answered (before : List Event) (code : UInt32) (crc : UInt64)
    (w : World Unpacker) : Prop :=
  ∃ answer, w.trace = before ++ answer ∧ OnlyWrites answer ∧
    Answer code crc (pipes.sentBy answer) ∧ w.crc32Sum = crc

/-- The process has exited without an answer, or with a code that says so. -/
def Refused (e : Exit) (w : World Unpacker) : Prop :=
  e ≠ .outOfFuel ∧ (Silent w ∨ ∃ before code crc, (code = 0 → e = .exit 0) ∧
    pipes.sentBy before = [] ∧ Answered before code crc w)

/-- The process has exited with a code, right after it has sent it. -/
def Exited (e : Exit) (w : World Unpacker) : Prop :=
  ∃ code last before, e = .exit code ∧ Silent before ∧
    (sendStatusAndCrc code last).run before = .ok () w

/-- The process has exited with an error, right after it has sent it. -/
def Told (e : Exit) (w : World Unpacker) : Prop :=
  ∃ code last before, e = .exit code ∧ code ≠ 0 ∧ Silent before ∧
    (sendStatusAndCrc code last).run before = .ok () w

/-- Times that `validate_utime_nsec` does not accept. -/
def OutOfRange (hdr : FileHeader) : Prop :=
  hdr.atimeNsec > 999999999 ∨ hdr.mtimeNsec > 999999999

/-- The process has stopped at the times of an entry without a word. -/
def Mute (hdr : FileHeader) (e : Exit) (w : World Unpacker) : Prop :=
  Silent w ∧ OutOfRange hdr ∧ ∃ value, e = .message (.invalidNanoseconds value)

/-- The process has sent its code, or has stopped without a word. -/
def Ended (hdr : FileHeader) (e : Exit) (w : World Unpacker) : Prop :=
  Exited e w ∨ Mute hdr e w

/-! Answers. -/

section

variable {E : Exit → World Unpacker → Prop}

theorem sendStatusAndCrc_answer (code : UInt32) (last : Option CString)
    (before : List Event) (crc : UInt64) (stdin : List UInt8) :
    Triple (fun w => w.trace = before ∧ w.crc32Sum = crc ∧ w.stdin = stdin)
      (sendStatusAndCrc code last)
      (fun _ => Answered before code crc) E := by
  refine .get_bind fun w hw => ?_
  have hstart : OnStream (Wrote before crc stdin []) w :=
    ⟨⟨[], hw.1.trans (List.append_nil _).symm, onlyWrites_nil, rfl⟩, hw.2⟩
  refine ((writeAll_writes _).from_state hstart).bind fun ok => ?_
  refine Triple.pre_mono ?_ fun _ h => h.part
  refine Triple.exists_pre fun header => ?_
  refine Triple.assume (fun _ h => h.1) fun hheader => ?_
  refine Triple.pre_mono ?_ fun _ h => h.2
  rw [hw.2.1] at hheader
  have hend : ∀ {text : List UInt8} (errno : UInt32), Answer code crc text →
      Triple (OnStream (Wrote before crc stdin text))
        (setErrno errno : Unpack Unit)
        (fun _ => Answered before code crc) E := by
    intro text errno htext
    refine .modify fun w h => ?_
    obtain ⟨⟨writes, htrace, honly, hsent⟩, hcrc, _⟩ := h
    exact ⟨writes, htrace, honly, hsent ▸ htext, hcrc⟩
  cases last with
  | none =>
      refine hend _ ⟨header, [], [], ?_, hheader, CString.ofBuffer [],
        List.nil_prefix, List.nil_prefix⟩
      simp
  | some name =>
      refine (writeAll_writes _).bind fun ok => ?_
      refine Triple.pre_mono ?_ fun _ h => h.part
      refine Triple.exists_pre fun length => ?_
      refine Triple.assume (fun _ h => h.1) fun hlength => ?_
      refine Triple.pre_mono ?_ fun _ h => h.2
      refine (writeAll_writes _).bind fun ok => ?_
      refine Triple.pre_mono ?_ fun _ h => h.part
      refine Triple.exists_pre fun part => ?_
      refine Triple.assume (fun _ h => h.1) fun hpart => ?_
      refine Triple.pre_mono ?_ fun _ h => h.2
      exact hend _ ⟨header, length, part, rfl, hheader, name, hlength, hpart⟩

theorem sendStatusAndCrc_returns (code : UInt32) (last : Option CString)
    (w : World Unpacker) : ∃ w', (sendStatusAndCrc code last).run w =
      .ok () w' ∧ Answered w.trace code w.crc32Sum w' := by
  have hsend := sendStatusAndCrc_answer (E := fun _ _ => False) code last
    w.trace w.crc32Sum w.stdin
  obtain ⟨_, w', hrun, hanswer⟩ := hsend.exists_ok ⟨rfl, rfl, rfl⟩
  exact ⟨w', hrun, hanswer⟩

theorem Told.exited {e : Exit} {w : World Unpacker} (h : Told e w) :
    Exited e w := by
  obtain ⟨code, last, before, hexit, _, hsends⟩ := h
  exact ⟨code, last, before, hexit, hsends⟩

theorem Exited.refused {e : Exit} {w : World Unpacker} (h : Exited e w) :
    Refused e w := by
  obtain ⟨code, last, before, rfl, hbefore, hrun⟩ := h
  obtain ⟨w', hrun', hanswer⟩ := sendStatusAndCrc_returns code last before
  rw [hrun] at hrun'
  obtain rfl := (EStateM.Result.ok.inj hrun').2
  exact ⟨by simp, Or.inr ⟨before.trace, code, before.crc32Sum,
    congrArg Exit.exit, hbefore, hanswer⟩⟩

theorem Ended.refused {hdr : FileHeader} {e : Exit} {w : World Unpacker}
    (h : Ended hdr e w) : Refused e w := by
  rcases h with h | ⟨hsilent, _, value, rfl⟩
  · exact h.refused
  · exact ⟨by simp, Or.inl hsilent⟩

theorem doExit_run {α : Type} {code : UInt32} {last : Option CString}
    {w w' : World Unpacker}
    (hrun : (sendStatusAndCrc code last).run w = .ok () w') :
    (doExit code last : Unpack α).run w = .error (.exit code) w' := by
  rw [doExit, EStateM.run_bind, hrun]
  rfl

theorem doExitErrno_run {α : Type} {last : Option CString}
    {w w' : World Unpacker}
    (hrun : (sendStatusAndCrc w.errno last).run w = .ok () w') :
    (doExitErrno last : Unpack α).run w = .error (.exit w.errno) w' := by
  rw [doExitErrno, EStateM.run_bind, EStateM.run_get]
  exact doExit_run hrun

theorem doExit_told {α : Type} {code : UInt32} (hcode : code ≠ 0)
    (last : Option CString) {post : α → World Unpacker → Prop} :
    Triple Silent (doExit code last) post Told := by
  intro w hw
  obtain ⟨w', hrun, _⟩ := sendStatusAndCrc_returns code last w
  rw [doExit_run hrun]
  exact ⟨code, last, w, rfl, hcode, hw, hrun⟩

theorem doExit_exited {α : Type} (code : UInt32) (last : Option CString)
    {post : α → World Unpacker → Prop} :
    Triple Silent (doExit code last) post Exited := by
  intro w hw
  obtain ⟨w', hrun, _⟩ := sendStatusAndCrc_returns code last w
  rw [doExit_run hrun]
  exact ⟨code, last, w, rfl, hw, hrun⟩

theorem doExitErrno_exited {α : Type} (last : Option CString)
    {post : α → World Unpacker → Prop} :
    Triple Silent (doExitErrno last) post Exited :=
  .get_bind fun w hw => (doExit_exited w.errno last).from_state hw

theorem doExitErrno_told {α : Type} (last : Option CString)
    {post : α → World Unpacker → Prop} :
    Triple (fun w => Silent w ∧ w.errno ≠ 0) (doExitErrno last) post Told :=
  .get_bind fun _ hw => (doExit_told hw.2 last).from_state hw.1

end

/-! Calls. -/

section

variable {P : List Event → UInt64 → List UInt8 → Prop}
  {E : Exit → World Unpacker → Prop}

theorem perform_stream {α : Type} (call : FileSystem → Outcome →
    Except Errno (α × Effect × FileSystem)) :
    Triple (OnStream P) (perform call) (OrErrno (OnStream P)) E := by
  refine attempt_stream.bind fun outcome => ?_
  cases outcome with
  | none => exact .ret fun _ h => ⟨h.1, fun _ => h.2 rfl⟩
  | some outcome =>
      refine .get_bind fun w hw => ?_
      cases call w.statics.fs outcome with
      | error errno =>
          refine ((setErrno_stream errno.value).from_state hw.1).bind
            fun _ => .ret fun w' h => ?_
          exact ⟨h.1, fun _ => h.2 ▸ errno.ne_zero⟩
      | ok value =>
          have hcommit : Triple (OnStream P) (commit value.2.1 value.2.2)
              (fun _ => OnStream P) E := .modify fun _ h => h
          exact (hcommit.from_state hw.1).bind fun _ =>
            .ret fun _ h => ⟨h, fun h => by cases h⟩

theorem openDir_stream (dir : Path) (segment : Name) :
    Triple (OnStream P) (openDir dir segment) (OrErrno (OnStream P)) E := by
  refine attempt_stream.bind fun outcome => ?_
  cases outcome with
  | none => exact .ret fun _ h => ⟨h.1, fun _ => h.2 rfl⟩
  | some outcome =>
      refine .get_bind fun w hw => ?_
      cases w.statics.fs.openDirAt dir segment with
      | error errno =>
          refine ((setErrno_stream errno.value).from_state hw.1).bind
            fun _ => .ret fun w' h => ?_
          exact ⟨h.1, fun _ => h.2 ▸ errno.ne_zero⟩
      | ok path => exact .ret fun _ h => h ▸ ⟨hw.1, fun h => by cases h⟩

end

/-- The program reads and writes nothing, or the process tells an error. -/
def Quiet {α : Type} (program : Unpack α) : Prop :=
  ∀ input consumed done,
    Triple (OnStream (Reading input consumed consumed done)) program
      (fun _ => OnStream (Reading input consumed consumed done)) Told

theorem Quiet.reading {α : Type} {program : Unpack α} (h : Quiet program)
    (input consumed : List UInt8) (done : List (FileHeader × List UInt8)) :
    Triple (OnStream (Reading input consumed consumed done)) program
      (fun _ => OnStream (Reading input consumed consumed done)) Told :=
  h input consumed done

theorem Quiet.ret {α : Type} (a : α) : Quiet (pure a) :=
  fun _ _ _ => .ret fun _ h => h

theorem Quiet.bind {α β : Type} {program : Unpack α} {next : α → Unpack β}
    (hprogram : Quiet program) (hnext : ∀ a, Quiet (next a)) :
    Quiet (program >>= next) :=
  fun input consumed done => (hprogram input consumed done).bind
    fun a => hnext a input consumed done

theorem Quiet.ite {α : Type} {condition : Prop} [Decidable condition]
    {left right : Unpack α} (hleft : Quiet left) (hright : Quiet right) :
    Quiet (if condition then left else right) :=
  fun input consumed done => .ite (fun _ => hleft input consumed done)
    fun _ => hright input consumed done

theorem Quiet.get_bind {α : Type} {next : World Unpacker → Unpack α}
    (hnext : ∀ w, Quiet (next w)) : Quiet (get >>= next) :=
  fun input consumed done => .get_bind fun w hw =>
    (hnext w input consumed done).from_state hw

theorem Quiet.modify {f : World Unpacker → World Unpacker}
    (hf : ∀ w, (f w).trace = w.trace ∧ (f w).crc32Sum = w.crc32Sum ∧
      (f w).stdin = w.stdin) : Quiet (modify f) :=
  fun _ _ _ => .modify fun w h => by
    rw [OnStream, (hf w).1, (hf w).2.1, (hf w).2.2]
    exact h

theorem doExit_reading {α : Type} {code : UInt32} (hcode : code ≠ 0)
    (last : Option CString) {input consumed summed : List UInt8}
    {done : List (FileHeader × List UInt8)}
    {post : α → World Unpacker → Prop} :
    Triple (OnStream (Reading input consumed summed done))
      (doExit code last) post Told :=
  (doExit_told hcode last).pre_mono fun _ h => h.silent

theorem doExit_quiet {α : Type} {code : UInt32} (hcode : code ≠ 0)
    (last : Option CString) : Quiet (doExit code last : Unpack α) :=
  fun _ _ _ => doExit_reading hcode last

/-- A call that may fail, in front of an exit with its error. -/
theorem quiet_call {α β : Type} {call : Unpack (Option α)}
    {next : Option α → Unpack β}
    (hcall : ∀ P, Triple (OnStream P) call (OrErrno (OnStream P)) Told)
    (hnone : ∀ post : β → World Unpacker → Prop,
      Triple (fun w => Silent w ∧ w.errno ≠ 0) (next none) post Told)
    (hsome : ∀ a, Quiet (next (some a))) : Quiet (call >>= next) := by
  intro input consumed done
  refine (hcall _).bind fun result => ?_
  cases result with
  | none => exact (hnone _).pre_mono fun _ h => ⟨h.1.silent, h.2 rfl⟩
  | some a => exact (hsome a input consumed done).pre_mono fun _ h => h.1

/-! Parts of the handlers. -/

theorem short_of_normal {segment : Name} (h : Normal segment) :
    ¬ (segment.length ≤ 2 ∧
      segment = dotdotComponent.take segment.length) := by
  rintro ⟨hlength, hsegment⟩
  obtain ⟨hempty, hdot, hdotdot⟩ := h
  have hlengths : segment.length = 0 ∨ segment.length = 1 ∨
      segment.length = 2 := by omega
  rcases hlengths with hlength | hlength | hlength
  · exact hempty (List.length_eq_zero_iff.mp hlength)
  · rw [hlength] at hsegment
    exact hdot hsegment
  · rw [hlength] at hsegment
    exact hdotdot hsegment

/-- No piece of a name that has been validated makes the process abort. -/
theorem opendirSafe_quiet {pieces : List Name} (hne : pieces ≠ [])
    (hnormal : ∀ piece ∈ pieces, Normal piece) :
    ∀ dir : Path, Quiet (opendirSafe dir pieces) := by
  induction pieces with
  | nil => exact absurd rfl hne
  | cons segment rest ih =>
      intro dir
      cases rest with
      | nil => exact .ret _
      | cons second rest =>
          rw [opendirSafe_cons,
            if_neg (short_of_normal (hnormal segment List.mem_cons_self))]
          refine quiet_call (fun _ => openDir_stream _ _)
            (fun _ => doExitErrno_told _) fun path => ?_
          exact ih (List.cons_ne_nil _ _)
            (fun piece h => hnormal piece (List.mem_cons_of_mem _ h)) path

theorem strdup_quiet (name : CString) : Quiet (strdup name) := by
  intro input consumed done
  refine attempt_stream.bind fun outcome => ?_
  cases outcome with
  | none =>
      exact (doExit_quiet (by decide) _ input consumed done).pre_mono
        fun _ h => h.1
  | some _ => exact .ret fun _ h => h.1

theorem setMode_stream (object : FileSystem.Object) (hdr : FileHeader)
    {P : List Event → UInt64 → List UInt8 → Prop}
    {E : Exit → World Unpacker → Prop} :
    Triple (OnStream P) (setMode object hdr) (OrErrno (OnStream P)) E :=
  .ite (fun _ => .ret fun _ h => ⟨h, fun h => by cases h⟩)
    fun _ => perform_stream _

theorem tryTmpfile_quiet (dir : Path) (name : CString) :
    Quiet (tryTmpfile dir name) := by
  refine .get_bind fun w => .ite ?_ (.ret _)
  intro input consumed done
  refine (perform_stream _).bind fun result => ?_
  cases result with
  | some ino => exact .ret fun _ h => h.1
  | none =>
      refine .get_bind fun w hw => .ite (fun _ => ?_) fun _ => ?_
      · have hset : Triple (· = w) (setUseTmpfile false)
            (fun _ => OnStream (Reading input consumed consumed done))
            Told := .modify fun _ h => h ▸ hw.1
        exact hset.bind fun _ => .ret fun _ h => h
      · exact (doExitErrno_told _).from_state ⟨hw.1.silent, hw.2 rfl⟩

theorem openOutput_quiet (dir : Path) (segment : Name) (name : CString) :
    Quiet (openOutput dir segment name) := by
  refine (tryTmpfile_quiet dir name).bind fun result => ?_
  cases result with
  | some ino => exact .ret _
  | none =>
      intro input consumed done
      refine (perform_stream _).bind fun result => ?_
      cases result with
      | some ino => exact .ret fun _ h => h.1
      | none =>
          exact (doExitErrno_told _).pre_mono
            fun _ h => ⟨h.1.silent, h.2 rfl⟩

theorem nameOutput_stream (ino : Nat) (dir : Path) (segment : Name)
    {P : List Event → UInt64 → List UInt8 → Prop}
    {E : Exit → World Unpacker → Prop} :
    Triple (OnStream P) (nameOutput ino dir segment) (OrErrno (OnStream P))
      E := by
  refine .get_bind fun w hw => .ite (fun _ => ?_) fun _ => ?_
  · exact (perform_stream _).from_state hw
  · exact .ret fun _ h => h ▸ ⟨hw, fun h => by cases h⟩

theorem addTotalBytes_quiet (count : UInt64) : Quiet (addTotalBytes count) :=
  .modify fun _ => ⟨rfl, rfl, rfl⟩

/-- A validator never reads out of bounds. -/
theorem liftFault_reading {α : Type} {x : Except Fault α} (hx : ∃ a, x = .ok a)
    {P : World Unpacker → Prop} {E : Exit → World Unpacker → Prop} :
    Triple P (liftFault x : Unpack α) (fun a w => x = .ok a ∧ P w) E := by
  obtain ⟨a, rfl⟩ := hx
  exact .ret fun _ h => ⟨rfl, h⟩

section

variable (limits : Limits)

theorem checkQuota_quiet (filelen : UInt64) (name : CString) :
    Quiet (checkQuota limits filelen name) :=
  .get_bind fun _ => .ite (doExit_quiet (by decide) _)
    (.ite (doExit_quiet (by decide) _) (.ret _))

theorem reserveSpace_quiet (filelen : UInt64) :
    Quiet (reserveSpace limits filelen) :=
  .ite (.modify fun _ => ⟨rfl, rfl, rfl⟩) (.ret _)

/-! Handlers. -/

/-- So many bytes have been taken from the input. -/
def Taken (input consumed : List UInt8)
    (done : List (FileHeader × List UInt8)) (size : Nat)
    (w : World Unpacker) : Prop :=
  ∃ payload : List UInt8, payload.length = size ∧
    OnStream (Reading input (consumed ++ payload) (consumed ++ payload)
      done) w

variable {input consumed : List UInt8}
  {done : List (FileHeader × List UInt8)}

theorem taken_zero {w : World Unpacker}
    (h : OnStream (Reading input consumed consumed done) w) :
    Taken input consumed done 0 w := by
  refine ⟨[], rfl, ?_⟩
  rw [List.append_nil]
  exact h

theorem copyOutput_copied (ino : Nat) (hdr : FileHeader) (name : CString) :
    Triple (OnStream (Reading input consumed consumed done))
      (copyOutput limits ino hdr name)
      (Copied input consumed done hdr.filelen.toNat) Told := by
  refine (checkQuota_quiet limits _ name input consumed done).bind
    fun _ => ?_
  refine (reserveSpace_quiet limits _ input consumed done).bind fun _ => ?_
  refine (addTotalBytes_quiet _ input consumed done).bind fun _ => ?_
  exact copyFileLoop_reading (fun _ _ => perform_stream _) _ _ _
    (Nat.le_refl _)

/-- The code is 0 where a `write` took nothing and nothing had failed. -/
theorem fillOutput_taken (ino : Nat) (hdr : FileHeader) (name : CString) :
    Triple (OnStream (Reading input consumed consumed done))
      (fillOutput limits ino hdr name)
      (fun _ => Taken input consumed done hdr.filelen.toNat) Exited := by
  rw [fillOutput_eq]
  refine ((copyOutput_copied limits ino hdr name).mono (fun _ h => h)
    (fun _ _ h => h) fun _ _ h => h.exited).bind fun status => ?_
  cases status with
  | ok => exact .ret fun _ h => h
  | readEof => exact doExit_exited _ _
  | readError => exact doExit_exited _ _
  | writeError => exact doExitErrno_exited _

/-- An error that a validator returns is never sent as success. -/
theorem IsVerdict.ofInt_ne_zero {rc : Int} (h : IsVerdict rc) (hrc : rc ≠ 0) :
    UInt32.ofInt rc ≠ 0 ∧ UInt32.ofInt (-rc) ≠ 0 := by
  rcases h with rfl | rfl | rfl | rfl
  · exact absurd rfl hrc
  · exact ⟨by decide, by decide⟩
  · exact ⟨by decide, by decide⟩
  · exact ⟨by decide, by decide⟩

theorem openFile_reading (name : CString) (flags : Flags) :
    Triple (OnStream (Reading input consumed consumed done))
      (openFile limits name (validateFlags flags))
      (fun _ => OnStream (Reading input consumed consumed done)) Told := by
  refine (liftFault_reading (qubesPureValidateFileNameV2_total _)).bind
    fun ret => ?_
  refine Triple.assume (fun _ h => h.1) fun hret => ?_
  refine Triple.pre_mono ?_ fun _ h => h.2
  refine .ite (fun hne => ?_) fun hzero => ?_
  · exact doExit_reading ((qubesPureValidateFileNameV2_verdict
      hret).ofInt_ne_zero hne).2 _
  rw [not_not.mp hzero] at hret
  refine (strdup_quiet name input consumed done).bind fun _ => ?_
  refine .get_bind fun w hw => Triple.from_state ?_ hw
  refine (opendirSafe_quiet (components_ne_nil _) (normal_of_fileName hret) _
    input consumed done).bind fun place => ?_
  exact (openOutput_quiet _ _ _ input consumed done).bind fun fdout =>
    .ret fun _ h => h

/-- The name of an open file, which it may have got before. -/
theorem nameOrExit_reading (fdout : Nat) (dir : Path) (segment : Name)
    (name : CString) :
    Triple (OnStream (Reading input consumed consumed done))
      (nameOrExit name fdout dir segment)
      (fun _ => OnStream (Reading input consumed consumed done)) Told := by
  refine (nameOutput_stream _ _ _).bind fun result => ?_
  cases result with
  | none =>
      exact (doExitErrno_told _).pre_mono
        fun _ h => ⟨h.1.silent, h.2 rfl⟩
  | some _ => exact .ret fun _ h => h.1

theorem fillFile_taken (hdr : FileHeader) (name : CString)
    (place : Nat × Path × Name) :
    Triple (OnStream (Reading input consumed consumed done))
      (fillFile limits hdr name place)
      (fun _ => Taken input consumed done hdr.filelen.toNat) Exited := by
  obtain ⟨fdout, dir, segment⟩ := place
  refine (fillOutput_taken limits fdout hdr name).bind fun _ => ?_
  refine Triple.exists_pre fun payload => ?_
  refine Triple.assume (fun _ h => h.1) fun hpayload => ?_
  exact (nameOrExit_reading fdout dir segment name).mono (fun _ h => h.2)
    (fun _ _ h => ⟨payload, hpayload, h⟩) fun _ _ h => h.exited

theorem completeFile_taken (hdr : FileHeader) (name : CString)
    (flags : Flags) :
    Triple (OnStream (Reading input consumed consumed done))
      (completeFile limits hdr name (validateFlags flags))
      (fun _ => Taken input consumed done hdr.filelen.toNat) Exited := by
  rw [completeFile_eq]
  exact ((openFile_reading limits name flags).mono (fun _ h => h)
    (fun _ _ h => h) fun _ _ h => h.exited).bind
      fun place => fillFile_taken limits hdr name place

theorem reopenDir_reading (name : CString) (flags : Flags) :
    Triple (OnStream (Reading input consumed consumed done))
      (reopenDir limits name (validateFlags flags))
      (fun _ => OnStream (Reading input consumed consumed done)) Told := by
  refine (liftFault_reading (qubesPureValidateFileNameV2_total _)).bind
    fun rc => ?_
  refine Triple.assume (fun _ h => h.1) fun hrc => ?_
  refine Triple.pre_mono ?_ fun _ h => h.2
  refine .ite (fun hne => ?_) fun hzero => ?_
  · exact doExit_reading ((qubesPureValidateFileNameV2_verdict
      hrc).ofInt_ne_zero hne).1 _
  rw [not_not.mp hzero] at hrc
  refine (strdup_quiet name input consumed done).bind fun _ => ?_
  refine .get_bind fun w hw => Triple.from_state ?_ hw
  refine (opendirSafe_quiet (components_ne_nil _) (normal_of_fileName hrc) _
    input consumed done).bind fun place => ?_
  refine (perform_stream _).bind fun made => ?_
  cases made with
  | some _ => exact .ret fun _ h => h.1
  | none =>
      refine .get_bind fun w' hw' => .ite (fun _ => ?_) fun _ => ?_
      · exact (doExitErrno_told _).from_state ⟨hw'.1.silent, hw'.2 rfl⟩
      refine Triple.from_state ?_ hw'.1
      refine quiet_call (fun _ => openDir_stream _ _)
        (fun _ => doExitErrno_told _) (fun path => ?_) input consumed done
      refine quiet_call (fun _ => attempt_stream)
        (fun _ => doExitErrno_told _) fun stat => ?_
      exact (addTotalBytes_quiet _).bind fun _ => .ret _

/-- Times that are out of range end the process without a word. -/
theorem validateUtimeNsec_reading {hdr : FileHeader} {nsec : UInt32}
    (h : nsec > 999999999 → OutOfRange hdr) :
    Triple (OnStream (Reading input consumed consumed done))
      (validateUtimeNsec nsec)
      (fun _ => OnStream (Reading input consumed consumed done))
      (fun e w => Told e w ∨ Mute hdr e w) :=
  .ite (fun hnsec => .throw fun _ hw =>
    Or.inr ⟨hw.silent, h hnsec, nsec, rfl⟩) fun _ => .ret fun _ hw => hw

theorem fixTimesAndPerms_reading (object : FileSystem.Object)
    (hdr : FileHeader) (name : CString) :
    Triple (OnStream (Reading input consumed consumed done))
      (fixTimesAndPerms object hdr name)
      (fun _ => OnStream (Reading input consumed consumed done))
      (fun e w => Told e w ∨ Mute hdr e w) := by
  refine (validateUtimeNsec_reading Or.inl).bind fun _ => ?_
  refine (validateUtimeNsec_reading Or.inr).bind fun _ => ?_
  refine Triple.mono ?_ (fun _ h => h) (fun _ _ h => h) fun _ _ h => Or.inl h
  refine quiet_call (fun _ => setMode_stream object hdr)
    (fun _ => doExitErrno_told _) (fun _ => ?_) input consumed done
  exact quiet_call (fun _ => perform_stream _)
    (fun _ => doExitErrno_told _) fun _ => .ret _

theorem processOneFileReg_taken (hdr : FileHeader) (name : CString)
    (flags : Flags) :
    Triple (OnStream (Reading input consumed consumed done))
      (processOneFileReg limits hdr name (validateFlags flags))
      (fun _ => Taken input consumed done hdr.filelen.toNat)
      (Ended hdr) := by
  rw [processOneFileReg_eq]
  refine ((completeFile_taken limits hdr name flags).mono (fun _ h => h)
    (fun _ _ h => h) fun _ _ h => Or.inl h).bind fun fdout => ?_
  refine Triple.exists_pre fun payload => ?_
  refine Triple.assume (fun _ h => h.1) fun hpayload => ?_
  exact (fixTimesAndPerms_reading _ hdr name).mono (fun _ h => h.2)
    (fun _ _ h => ⟨payload, hpayload, h⟩)
    fun _ _ h => h.imp_left Told.exited

theorem processOneFileDir_reading (hdr : FileHeader) (name : CString)
    (flags : Flags) :
    Triple (OnStream (Reading input consumed consumed done))
      (processOneFileDir limits hdr name (validateFlags flags))
      (fun _ => OnStream (Reading input consumed consumed done))
      (Ended hdr) := by
  rw [processOneFileDir_eq]
  refine ((reopenDir_reading limits name flags).mono (fun _ h => h)
    (fun _ _ h => h) fun _ _ h => Or.inl h.exited).bind fun path => ?_
  cases path with
  | none => exact .ret fun _ h => h
  | some path =>
      exact (fixTimesAndPerms_reading _ hdr name).mono (fun _ h => h)
        (fun _ _ h => h) fun _ _ h => h.imp_left Told.exited

theorem receiveTarget_taken (hdr : FileHeader) (name : CString) :
    Triple (OnStream (Reading input consumed consumed done))
      (receiveTarget limits hdr name)
      (fun _ => Taken input consumed done hdr.filelen.toNat) Told := by
  have hlong : UInt32.ofNat ENAMETOOLONG ≠ 0 := by decide
  have hquota : UInt32.ofNat EDQUOT ≠ 0 := by decide
  refine .ite (fun _ => doExit_reading hlong _) fun _ => ?_
  refine (addTotalBytes_quiet _ input consumed done).bind fun _ => ?_
  refine .get_bind fun w hw => Triple.from_state ?_ hw
  refine .ite (fun _ => doExit_reading hquota _) fun _ => ?_
  refine (readAllWithCrc_reading _).bind fun result => ?_
  cases result with
  | none => exact doExit_told (by decide) _
  | some bytes => exact .ret fun _ h => ⟨bytes, h⟩

theorem linkTarget_reading (name : CString) (flags : Flags)
    (content : CString) :
    Triple (OnStream (Reading input consumed consumed done))
      (linkTarget limits name (validateFlags flags) content)
      (fun _ => OnStream (Reading input consumed consumed done)) Told := by
  refine (liftFault_reading
    (qubesPureValidateSymbolicLinkV2_total _ _)).bind fun rc => ?_
  refine Triple.assume (fun _ h => h.1) fun hrc => ?_
  refine Triple.pre_mono ?_ fun _ h => h.2
  refine .ite (fun hne => ?_) fun hzero => ?_
  · exact doExit_reading ((qubesPureValidateSymbolicLinkV2_verdict
      hrc).ofInt_ne_zero hne).2 _
  rw [not_not.mp hzero] at hrc
  refine Quiet.reading ?_ input consumed done
  exact (strdup_quiet name).bind fun _ => .get_bind fun w' =>
    (opendirSafe_quiet (components_ne_nil _)
      (normal_of_symbolicLink hrc) _).bind fun place => quiet_call
        (fun _ => perform_stream _) (fun _ => doExitErrno_told _)
        fun _ => .ret _

theorem processOneFileLink_taken (hdr : FileHeader) (name : CString)
    (flags : Flags) :
    Triple (OnStream (Reading input consumed consumed done))
      (processOneFileLink limits hdr name (validateFlags flags))
      (fun _ => Taken input consumed done hdr.filelen.toNat) Told := by
  rw [processOneFileLink_eq]
  refine (receiveTarget_taken limits hdr name).bind fun content => ?_
  refine Triple.exists_pre fun payload => ?_
  refine Triple.assume (fun _ h => h.1) fun hpayload => ?_
  refine Triple.pre_mono ?_ fun _ h => h.2
  exact (linkTarget_reading limits name flags content).post_mono
    fun _ _ h => ⟨payload, hpayload, h⟩

theorem processByType_taken (hdr : FileHeader) (name : CString)
    (flags : Flags) :
    Triple (OnStream (Reading input consumed consumed done))
      (processByType limits hdr name flags)
      (fun _ => Taken input consumed done hdr.payloadLength)
      (Ended hdr) := by
  have htold : ∀ e w, Told e w → Ended hdr e w :=
    fun _ _ h => Or.inl h.exited
  have hinvalid : UInt32.ofNat EINVAL ≠ 0 := by decide
  refine .ite (fun hreg => ?_) fun hreg => .ite (fun hlink => ?_)
    fun _ => .ite (fun hdir => ?_) fun _ => ?_
  · rw [FileHeader.payloadLength, if_pos (Or.inl hreg)]
    exact processOneFileReg_taken limits hdr name _
  · rw [FileHeader.payloadLength, if_pos (Or.inr hlink.1)]
    exact (processOneFileLink_taken limits hdr name _).mono (fun _ h => h)
      (fun _ _ h => h) htold
  · obtain ⟨hreg', hlink'⟩ := sIsDir_exclusive hdir.1
    rw [FileHeader.payloadLength, if_neg (by simp [hreg', hlink'])]
    exact (processOneFileDir_reading limits hdr name _).post_mono
      fun _ _ h => taken_zero h
  · exact (doExit_reading hinvalid _).mono (fun _ h => h)
      (fun _ _ h => h) htold

theorem emit_processed (hdr : FileHeader) (name : List UInt8)
    {E : Exit → World Unpacker → Prop} :
    Triple (OnStream (Reading input consumed consumed done))
      (emit (.processed hdr name) : Unpack Unit)
      (fun _ => OnStream (Reading input consumed consumed
        (done ++ [(hdr, name)]))) E := by
  refine .modify fun w h => ⟨?_, ?_, ?_, h.rest, h.crc⟩
  · change pipes.sentBy (w.trace ++ [_]) = []
    rw [Port.sentBy_append, h.silent]
    rfl
  · change pipes.receivedBy (w.trace ++ [_]) = _
    rw [Port.receivedBy_append, h.received]
    exact List.append_nil _
  · change finishedBy (w.trace ++ [_]) = _
    rw [finishedBy_append, h.finished]
    rfl

/-- What the first part of a pass leaves. -/
def PassStarted (input consumed : List UInt8)
    (done : List (FileHeader × List UInt8)) :
    PassStart → World Unpacker → Prop
  | .ended true, w => w.errno = 0 ∧ ∃ marker,
      marker.length = fileHeaderCodec.width ∧
      (fileHeaderCodec.get marker).namelen = 0 ∧
      OnStream (Reading input (consumed ++ marker) (consumed ++ marker)
        done) w
  | .ended false, w => Silent w
  | .entry hdr name, w => hdr.namelen ≠ 0 ∧
      name.length = hdr.namelen.toNat ∧
      OnStream (Reading input (consumed ++ (fileHeaderCodec.put hdr ++ name))
        (consumed ++ (fileHeaderCodec.put hdr ++ name)) done) w

theorem startPass_reading :
    Triple (OnStream (Reading input consumed consumed done))
      (startPass limits) (PassStarted input consumed done) Told := by
  refine (readAllWithCrc_reading _).bind fun result => ?_
  cases result with
  | none => exact .ret fun _ h => h
  | some bytes =>
      refine Triple.assume (fun _ h => h.1) fun hbytes => ?_
      refine Triple.pre_mono ?_ fun _ h => h.2
      refine .ite (fun hmarker => ?_) fun hnamed => ?_
      · refine (setErrno_stream 0).bind fun _ => .ret fun w h => ?_
        exact ⟨h.2, bytes, hbytes, hmarker, h.1⟩
      have hcount : Quiet countFile := .modify fun _ => ⟨rfl, rfl, rfl⟩
      refine (hcount input _ _).bind fun _ => ?_
      refine .get_bind fun w hw => Triple.from_state ?_ hw
      refine .ite (fun _ => doExit_reading (by decide) _) fun _ => ?_
      refine .ite (fun _ => doExit_reading (by decide) _) fun _ => ?_
      refine (readAllWithCrc_reading _).bind fun result => ?_
      cases result with
      | none => exact doExit_told (by decide) _
      | some name =>
          refine Triple.assume (fun _ h => h.1) fun hname => ?_
          refine Triple.pre_mono ?_ fun _ h => h.2
          have hbegin : Quiet (beginEntry (CString.ofBuffer name)) :=
            .modify fun _ => ⟨rfl, rfl, rfl⟩
          refine (hbegin input _ done).bind fun _ => .ret fun w h => ?_
          refine ⟨hnamed, hname, ?_⟩
          rw [fileHeaderCodec.put_get bytes hbytes, ← List.append_assoc]
          exact h

/-- The payload of an entry is taken from the input. -/
theorem handleEntry_reading (flags : Flags) (hdr : FileHeader)
    (name : List UInt8) :
    Triple (OnStream (Reading input consumed consumed done))
      (handleEntry limits flags hdr name)
      (fun _ w => ∃ payload : List UInt8,
        payload.length = hdr.payloadLength ∧
        OnStream (Reading input (consumed ++ payload) (consumed ++ payload)
          (done ++ [(hdr, name)])) w) (Ended hdr) := by
  refine (processByType_taken limits hdr _ flags).bind fun _ => ?_
  refine Triple.exists_pre fun payload => ?_
  refine Triple.assume (fun _ h => h.1) fun hpayload => ?_
  refine Triple.pre_mono ?_ fun _ h => h.2
  exact (emit_processed hdr name).post_mono
    fun _ w h => ⟨payload, hpayload, h⟩

/-- What the loop leaves: an end marker behind the entries, or nothing that
is of use. -/
def LoopDone (input : List UInt8) : Bool → World Unpacker → Prop
  | true, w => w.errno = 0 ∧ ∃ entries marker,
      marker.length = fileHeaderCodec.width ∧
      (fileHeaderCodec.get marker).namelen = 0 ∧
      OnStream (Reading input (frames entries ++ marker)
        (frames entries ++ marker) (entries.map Entry.key)) w
  | false, w => Silent w

theorem frames_concat (entries : List Entry) (entry : Entry) :
    frames (entries ++ [entry]) = frames entries ++ entry.frame := by
  rw [frames, List.flatMap_append, List.flatMap_singleton]
  rfl

/-- The bytes of one more entry. -/
theorem frames_entry (entries : List Entry) {hdr : FileHeader}
    {name payload : List UInt8} (hnamed : hdr.namelen ≠ 0)
    (hname : name.length = hdr.namelen.toNat)
    (hpayload : payload.length = hdr.payloadLength) :
    frames entries ++ (fileHeaderCodec.put hdr ++ name) ++ payload =
      frames (entries ++ [⟨hdr, name, payload, hnamed, hname, hpayload⟩]) := by
  rw [frames_concat, Entry.frame]
  simp only [List.append_assoc]

theorem keys_entry (entries : List Entry) {hdr : FileHeader}
    {name payload : List UInt8} (hnamed : hdr.namelen ≠ 0)
    (hname : name.length = hdr.namelen.toNat)
    (hpayload : payload.length = hdr.payloadLength) :
    entries.map Entry.key ++ [(hdr, name)] = List.map Entry.key
      (entries ++ [⟨hdr, name, payload, hnamed, hname, hpayload⟩]) := by
  rw [List.map_append]
  rfl

theorem unpackLoop_reading (flags : Flags) (fuel : Nat) :
    ∀ entries : List Entry, input.length < (frames entries).length + fuel →
      Triple (OnStream (Reading input (frames entries) (frames entries)
          (entries.map Entry.key)))
        (unpackLoop limits flags fuel) (LoopDone input) Refused := by
  induction fuel with
  | zero =>
      intro entries hfuel
      refine .throw fun w h => absurd hfuel ?_
      have hrest := congrArg List.length h.rest
      rw [List.length_append] at hrest
      omega
  | succ fuel ih =>
      intro entries hfuel
      rw [unpackLoop_succ]
      refine ((startPass_reading limits).mono (fun _ h => h)
        (fun _ _ h => h) fun _ _ h => h.exited.refused).bind fun start => ?_
      cases start with
      | ended seen =>
          cases seen with
          | false => exact .ret fun _ h => h
          | true =>
              refine .ret fun w h => ?_
              obtain ⟨herrno, marker, hmarker⟩ := h
              exact ⟨herrno, entries, marker, hmarker⟩
      | entry hdr name =>
          refine Triple.assume (fun _ h => (⟨h.1, h.2.1⟩ : _ ∧ _))
            fun hnamed => ?_
          refine Triple.pre_mono ?_ fun _ h => h.2.2
          refine ((handleEntry_reading limits flags hdr name).mono
            (fun _ h => h) (fun _ _ h => h)
            fun _ _ h => h.refused).bind fun _ => ?_
          refine Triple.exists_pre fun payload => ?_
          refine Triple.assume (fun _ h => h.1) fun hpayload => ?_
          refine Triple.pre_mono ?_ fun _ h => h.2
          have hframe := frames_entry entries hnamed.1 hnamed.2 hpayload
          rw [hframe, keys_entry entries hnamed.1 hnamed.2 hpayload]
          refine ih _ ?_
          have hwidth : fileHeaderCodec.width = 32 := by decide
          rw [← hframe, List.length_append, List.length_append,
            List.length_append, Codec.length_put]
          omega

end

/-! The end of a run. -/

section

variable {P : List Event → UInt64 → List UInt8 → Prop}
  {E : Exit → World Unpacker → Prop}

/-- The condition, on a trace with a `syncfs` that succeeded. -/
def Synced (P : List Event → UInt64 → List UInt8 → Prop)
    (trace : List Event) (crc : UInt64) (stdin : List UInt8) : Prop :=
  P trace crc stdin ∧ Event.synced ∈ trace

theorem syncCwd_stream (savedErrno : UInt32)
    (hP : ∀ trace crc stdin, P trace crc stdin →
      P (trace ++ [.synced]) crc stdin) :
    Triple (OnStream P) (syncCwd savedErrno)
      (fun _ w => OnStream P w ∧
        (w.errno ≠ 0 ∨ w.errno = savedErrno ∧ OnStream (Synced P) w)) E := by
  refine attempt_stream.bind fun opened => ?_
  cases opened with
  | none => exact .ret fun _ h => ⟨h.1, Or.inl (h.2 rfl)⟩
  | some _ =>
      have hsync : Triple (OnStream P) syncfs (fun result w =>
          OnStream P w ∧ (result = none → w.errno ≠ 0) ∧
            (result ≠ none → OnStream (Synced P) w)) E := by
        refine attempt_stream.bind fun synced => ?_
        cases synced with
        | none =>
            exact .ret fun _ h => ⟨h.1, fun _ => h.2 rfl,
              fun h => absurd rfl h⟩
        | some outcome =>
            have hemit : Triple (OnStream P) (emit .synced : Unpack Unit)
                (fun _ => OnStream (Synced P)) E :=
              .modify fun w h => ⟨hP _ _ _ h,
                List.mem_append_right _ List.mem_cons_self⟩
            refine (hemit.pre_mono fun _ h => h.1).bind fun _ => .ret ?_
            exact fun _ h => ⟨h.1, ⟨fun h => (by cases h), fun _ => h⟩⟩
      refine (hsync.pre_mono fun _ h => h.1).bind fun synced => ?_
      cases synced with
      | none => exact .ret fun _ h => ⟨h.1, Or.inl (h.2.1 rfl)⟩
      | some _ =>
          have hclose : Triple (OnStream (Synced P)) (attempt : Unpack _)
              _ E := attempt_stream
          refine (hclose.pre_mono fun _ h => h.2.2 (by simp)).bind
            fun closed => ?_
          cases closed with
          | none => exact .ret fun _ h => ⟨h.1.1, Or.inl (h.2 rfl)⟩
          | some _ =>
              refine ((setErrno_stream savedErrno).pre_mono
                fun _ h => h.1).post_mono fun _ w h => ?_
              exact ⟨h.1.1, Or.inr ⟨h.2, h.1⟩⟩

end

/-- All the input up to an end marker has been processed, is on disk and is
in the checksum. -/
def Completed (before : List Event) (crc : UInt64) : Prop :=
  ∃ entries marker, marker.length = fileHeaderCodec.width ∧
    (fileHeaderCodec.get marker).namelen = 0 ∧
    pipes.receivedBy before = frames entries ++ marker ∧
    finishedBy before = entries.map Entry.key ∧
    Event.synced ∈ before ∧
    crc = crc32ComputeBuf 0 (frames entries ++ marker)

/-- The process has answered, and an answer without an error is true. -/
def Reported (w : World Unpacker) : Prop :=
  ∃ before code crc, pipes.sentBy before = [] ∧
    Answered before code crc w ∧ (code = 0 → Completed before crc)

section

variable {E : Exit → World Unpacker → Prop}

/-- The last part of a run, behind the loop. -/
theorem finish_reported {P : List Event → UInt64 → List UInt8 → Prop}
    (hP : ∀ trace crc stdin, P trace crc stdin →
      P (trace ++ [.synced]) crc stdin)
    (hsilent : ∀ trace crc stdin, P trace crc stdin →
      pipes.sentBy trace = [])
    (savedErrno : UInt32) (hsaved : savedErrno = 0 →
      ∀ trace crc stdin, Synced P trace crc stdin → Completed trace crc) :
    Triple (OnStream P)
      (syncCwd savedErrno >>= fun _ => get >>= fun w =>
        sendStatusAndCrc w.errno (some w.statics.untrustedNamebuf) >>=
          fun _ => pure w.errno)
      (fun _ => Reported) E := by
  refine (syncCwd_stream savedErrno hP).bind fun _ => ?_
  refine .get_bind fun w hw => ?_
  refine ((sendStatusAndCrc_answer _ _ w.trace w.crc32Sum w.stdin).from_state
    ⟨rfl, rfl, rfl⟩).bind fun _ => .ret fun w' h => ?_
  refine ⟨w.trace, w.errno, w.crc32Sum, hsilent _ _ _ hw.1, h,
    fun hcode => ?_⟩
  rcases hw.2 with herrno | ⟨herrno, hsynced⟩
  · exact absurd hcode herrno
  · exact hsaved (herrno ▸ hcode) _ _ _ hsynced

theorem reading_synced {input consumed summed : List UInt8}
    {done : List (FileHeader × List UInt8)} {trace : List Event}
    {crc : UInt64} {stdin : List UInt8}
    (h : Reading input consumed summed done trace crc stdin) :
    Reading input consumed summed done (trace ++ [.synced]) crc stdin := by
  refine ⟨?_, ?_, ?_, h.rest, h.crc⟩
  · rw [Port.sentBy_append, h.silent]
    rfl
  · rw [Port.receivedBy_append, h.received]
    exact List.append_nil _
  · rw [finishedBy_append, h.finished]
    exact List.append_nil _

theorem doUnpackExt_reported (limits : Limits) (flags : Flags) :
    Triple (fun w => w.trace = []) (doUnpackExt limits flags)
      (fun _ => Reported) Refused := by
  intro w₀ hw₀
  have hstart : Triple (· = w₀) (modify fun w => { w with
      crc32Sum := 0
      statics := { w.statics with totalBytes := 0, totalFiles := 0 } } :
        Unpack Unit)
      (fun _ => OnStream (Reading w₀.stdin [] [] [])) Refused := by
    refine .modify fun w h => ?_
    subst h
    refine ⟨?_, ?_, ?_, rfl, (crc32ComputeBuf_nil 0).symm⟩
    · exact congrArg pipes.sentBy hw₀
    · exact congrArg pipes.receivedBy hw₀
    · exact congrArg finishedBy hw₀
  refine (hstart.bind fun _ => ?_) w₀ rfl
  refine .get_bind fun w hw => Triple.from_state ?_ hw
  have hrest : w.stdin = w₀.stdin := hw.rest
  have hfuel : w₀.stdin.length < (frames []).length + (w.stdin.length + 1) := by
    rw [hrest]
    omega
  refine (unpackLoop_reading limits flags (w.stdin.length + 1) []
    hfuel).bind fun seen => ?_
  refine .get_bind fun w' hw' => ?_
  cases seen with
  | false =>
      have hne : (if false = false ∧ w'.errno = 0
          then UInt32.ofNat EREMOTEIO else w'.errno) ≠ 0 := by
        split
        · decide
        · rename_i h
          exact fun hzero => h ⟨rfl, hzero⟩
      have hsilent : OnStream (fun trace _ _ => pipes.sentBy trace = []) w' :=
        hw'
      refine ((setErrno_stream _).from_state hsilent).bind fun _ => ?_
      refine (finish_reported (fun trace _ _ h => ?_) (fun _ _ _ h => h) _
        fun hzero => absurd hzero hne).pre_mono fun _ h => h.1
      rw [Port.sentBy_append, h]
      rfl
  | true =>
      obtain ⟨_, entries, marker, hlength, hmarker, hreading⟩ := hw'
      refine ((setErrno_stream _).from_state hreading).bind fun _ => ?_
      refine (finish_reported (fun _ _ _ h => reading_synced h)
        (fun _ _ _ h => h.silent) _ fun _ trace crc stdin h => ?_).pre_mono
          fun _ h => h.1
      exact ⟨entries, marker, hlength, hmarker, h.1.received, h.1.finished,
        h.2, h.1.crc⟩

/-- The bound on the passes of the loop is never reached. -/
theorem doUnpackExt_fuel (limits : Limits) (flags : Flags)
    {w w' : World Unpacker} {e : Exit} (htrace : w.trace = [])
    (hrun : (doUnpackExt limits flags).run w = .error e w') :
    e ≠ .outOfFuel := by
  have h := doUnpackExt_reported limits flags w htrace
  rw [hrun] at h
  exact h.1

end

end QubesUtils
