/-
The sender in a run in which no call fails and nothing has arrived: it sends
its tree, entry after entry, and the end marker.
-/
import QubesUtils.PackTrace
import QubesUtils.Undisturbed

namespace QubesUtils

open Hoare Fifo Process ByteCodec

/-! What is sent. -/

def singleBytes (filename : CString) (st : Stat) (data : List UInt8) :
    List UInt8 :=
  if sIsReg st.mode ∨ sIsLnk st.mode then
    fileHeaderCodec.put (fileHeader filename st st.size) ++
      (filename.bytes ++ [0]) ++ data
  else if sIsDir st.mode then
    fileHeaderCodec.put (fileHeader filename st 0) ++ (filename.bytes ++ [0])
  else
    []

mutual

def walkBytes (file : CString) : Source → List UInt8
  | .node _ st data children =>
      if sIsDir st.mode then
        singleBytes file st data ++ childrenBytes file children ++
          singleBytes file st data
      else
        singleBytes file st data

def childrenBytes (file : CString) : List Source → List UInt8
  | [] => []
  | entry :: rest =>
      if skipped entry.name then childrenBytes file rest
      else
        walkBytes (pathUnder file entry.name) entry ++
          childrenBytes file rest

end

/-! What can be sent. -/

/-- The path is short enough to be looked up, and there is as much content as
the size says. -/
structure Readable (file : CString) (st : Stat) (data : List UInt8) :
    Prop where
  short : file.bytes.length + 1 < MAX_PATH_LENGTH
  content : sIsReg st.mode = true ∨ sIsLnk st.mode = true →
    data.length = st.size.toNat
  target : sIsLnk st.mode = true → data.length < MAX_PATH_LENGTH

mutual

def ReadableTree (file : CString) : Source → Prop
  | .node _ st data children => Readable file st data ∧
      (sIsDir st.mode = true → ReadableTrees file children)

def ReadableTrees (file : CString) : List Source → Prop
  | [] => True
  | entry :: rest =>
      (skipped entry.name = false →
        ReadableTree (pathUnder file entry.name) entry) ∧
      ReadableTrees file rest

end

/-- No call fails, and nothing has arrived; so much has been sent and summed,
and so much of the open file is left. -/
structure Sending (sent summed file : List UInt8) (w : World Packer) :
    Prop where
  sent : pipes.sentBy w.trace = sent
  crc : w.crc32Sum = crc32ComputeBuf 0 summed
  file : w.statics.openFile = file
  stdin : w.stdin = []
  nonblocking : w.nonblocking = true
  undisturbed : Undisturbed w.outcomes

/-- As `Sending`, between two objects. -/
def Unanswered (sent : List UInt8) (w : World Packer) : Prop :=
  ∃ file, Sending sent sent file w

section

variable {sent summed file : List UInt8} {E : Exit → World Packer → Prop}

theorem nextOutcome_sending :
    Triple (Sending sent summed file) nextOutcome
      (fun outcome w => (outcome.error = none ∧ outcome.empty = false) ∧
        Sending sent summed file w) E :=
  .modifyGet fun _ h => ⟨h.undisturbed.head, h.sent, h.crc, h.file, h.stdin,
    h.nonblocking, h.undisturbed.tail⟩

theorem attempt_sending :
    Triple (Sending sent summed file) attempt
      (fun result w => result ≠ none ∧ Sending sent summed file w) E := by
  refine nextOutcome_sending.bind fun outcome => ?_
  refine Triple.assume (fun _ h => h.1.1) fun hok => ?_
  rw [hok]
  exact .ret fun _ h => ⟨by simp, h.2⟩

/-- A call that cannot fail. -/
theorem attempt_sending_bind {α : Type} {failed : Pack α}
    {next : Outcome → Pack α} {post : α → World Packer → Prop}
    (hnext : ∀ outcome, Triple (Sending sent summed file) (next outcome)
      post E) :
    Triple (Sending sent summed file) (attempt >>= fun result =>
      match result with
      | none => failed
      | some outcome => next outcome) post E := by
  refine attempt_sending.bind fun result => ?_
  cases result with
  | none =>
      exact Triple.assume (fun _ h => h.1) fun hne => absurd rfl hne
  | some outcome => exact (hnext outcome).pre_mono fun _ h => h.2

theorem retryInterrupted_sending :
    Triple (Sending sent summed file) retryInterrupted
      (fun _ => Sending sent summed file) E :=
  .modify fun _ h => ⟨h.sent, h.crc, h.file, h.stdin, h.nonblocking,
    fun outcome houtcome => h.undisturbed outcome
      ((List.dropWhile_sublist _).mem houtcome)⟩

theorem addCrc_sending (data : List UInt8) :
    Triple (Sending sent summed file) (addCrc data)
      (fun _ => Sending sent (summed ++ data) file) E :=
  .modify fun _ h => ⟨h.sent, by rw [crc32ComputeBuf_append, ← h.crc],
    h.file, h.stdin, h.nonblocking, h.undisturbed⟩

theorem emitWrite_sending (data : List UInt8) :
    Triple (Sending sent summed file) (emit (.write data))
      (fun _ => Sending (sent ++ data) summed file) E := by
  refine .modify fun w h => ⟨?_, h.crc, h.file, h.stdin, h.nonblocking,
    h.undisturbed⟩
  change pipes.sentBy (w.trace ++ [.write data]) = sent ++ data
  rw [Port.sentBy_append, h.sent, sentBy_singleton]
  rfl

theorem writeStdout_sending {put data : List UInt8} (hdata : data ≠ []) :
    Triple (Sending (sent ++ put) summed file) (writeStdout data)
      (PartPut (fun put => Sending (sent ++ put) summed file)
        (fun _ => False) put data) E := by
  refine nextOutcome_sending.bind fun outcome => ?_
  refine Triple.assume (fun _ h => h.1) fun hok => ?_
  rw [hok.1]
  refine Triple.pre_mono ?_ fun _ h => h.2
  refine (emitWrite_sending _).bind fun _ => .ret fun w h =>
    ⟨fun hzero => ?_, fun _ => ?_⟩
  · have hlength := List.length_pos_iff.mpr hdata
    rw [List.length_take, Outcome.count_of_not_empty hok.2] at hzero
    omega
  · rw [List.append_assoc] at h
    rw [List.length_take, ← List.take_eq_take_min]
    exact h

theorem writeAll_sending (data : List UInt8) :
    Triple (Sending sent summed file) (writeAll writeStdout data)
      (fun ok w => ok = true ∧ Sending (sent ++ data) summed file w) E := by
  have hwrite := @writeAllLoop_rule _ E
    (fun put => Sending (sent ++ put) summed file) (fun _ => False)
    writeStdout (fun _ => retryInterrupted_sending)
    (fun _ _ hdata => writeStdout_sending hdata) data.length [] data
    (Nat.le_refl _)
  refine hwrite.mono (fun _ h => ?_) (fun ok w h => ?_) fun _ _ h => h
  · rw [List.append_nil]
    exact h
  · cases ok with
    | true => exact ⟨rfl, h⟩
    | false => exact h.elim

theorem writeAllWithCrc_sending (data : List UInt8) :
    Triple (Sending sent sent file) (writeAllWithCrc data)
      (fun ok w => ok = true ∧
        Sending (sent ++ data) (sent ++ data) file w) E :=
  (addCrc_sending data).bind fun _ => writeAll_sending data

variable (ignoreQuotaError : Bool)

/-- Data that is sent before something else. -/
theorem writeAllWithCrc_sending_bind (data : List UInt8) {next : Pack Unit}
    {post : Unit → World Packer → Prop}
    (hnext : Triple (Sending (sent ++ data) (sent ++ data) file) next post E) :
    Triple (Sending sent sent file)
      (writeAllWithCrc data >>= fun ok =>
        if ok = true then next else giveUp ignoreQuotaError) post E := by
  refine (writeAllWithCrc_sending data).bind fun ok => ?_
  refine Triple.assume (fun _ h => h.1) fun hok => ?_
  rw [if_pos hok]
  exact hnext.pre_mono fun _ h => h.2

theorem writeHeaders_sending (filename : CString) (st : Stat)
    (filelen : UInt64) (hshort : filename.bytes.length < INT_MAX) :
    Triple (Sending sent sent file)
      (writeHeaders ignoreQuotaError (fileHeader filename st filelen) filename)
      (fun _ => Sending
        (sent ++ (fileHeaderCodec.put (fileHeader filename st filelen) ++
          (filename.bytes ++ [0])))
        (sent ++ (fileHeaderCodec.put (fileHeader filename st filelen) ++
          (filename.bytes ++ [0]))) file) E := by
  have hname : (filename.bytes ++ [0]).take
      (fileHeader filename st filelen).namelen.toNat =
        filename.bytes ++ [0] := by
    rw [fileHeader_namelen st filelen hshort]
    exact List.take_of_length_le (by simp)
  refine writeAllWithCrc_sending_bind ignoreQuotaError _ ?_
  refine writeAllWithCrc_sending_bind ignoreQuotaError _ ?_
  rw [hname, List.append_assoc]
  exact .ret fun _ h => h

/-! Content. -/

theorem readSource_sending {count : Nat} (hcount : 0 < count)
    (hfile : file ≠ []) :
    Triple (Sending sent summed file) (readSource count)
      (fun result w => ∃ bytes rest, result = .data bytes ∧
        file = bytes ++ rest ∧ 0 < bytes.length ∧ bytes.length ≤ count ∧
        Sending sent summed rest w) E := by
  refine nextOutcome_sending.bind fun outcome => ?_
  refine Triple.assume (fun _ h => h.1.1) fun hok => ?_
  rw [hok]
  refine Triple.pre_mono ?_ fun _ h => h.2
  refine .get_bind fun w hw => ?_
  rw [hw.file, if_neg hfile]
  have hdrop : Triple (· = w) (modify fun w : World Packer => { w with
        statics := { w.statics with
          openFile :=
            w.statics.openFile.drop (min count (outcome.amount + 1)) } })
      (fun _ => Sending sent summed
        (file.drop (min count (outcome.amount + 1)))) E := by
    refine .modify fun _ h => h ▸ ⟨hw.sent, hw.crc, ?_, hw.stdin,
      hw.nonblocking, hw.undisturbed⟩
    change w.statics.openFile.drop _ = _
    rw [hw.file]
  refine hdrop.bind fun _ => .ret fun _ h =>
    ⟨_, _, rfl, (List.take_append_drop _ _).symm, ?_, ?_, h⟩
  · have hlength := List.length_pos_iff.mpr hfile
    rw [List.length_take]
    omega
  · rw [List.length_take]
    omega

/-- The state of a copy of a file. -/
def InFile (sent data got summed put : List UInt8) (w : World Packer) :
    Prop :=
  ∃ rest, data = got ++ rest ∧
    Sending (sent ++ put) (sent ++ summed) rest w

theorem copyFile_sending (data : List UInt8) :
    Triple (Sending sent sent data)
      (copyFile readSource writeStdout data.length)
      (fun status w => status = .ok ∧
        Sending (sent ++ data) (sent ++ data) [] w) E := by
  have hcopy := @copyFileLoop_rule _ E (InFile sent data)
    (fun _ _ => False) readSource writeStdout data.length ?_ ?_ ?_ ?_
    data.length data.length [] (Nat.le_refl _) (Nat.zero_add _)
  · refine hcopy.mono (fun w h => ⟨data, rfl, ?_⟩) (fun status w h => ?_)
      fun _ _ h => h
    · rw [List.append_nil]
      exact h
    · cases status with
      | ok =>
          obtain ⟨payload, hlength, rest, hdata, hsending⟩ := h
          have hrest : rest = [] := by
            have hlengths := congrArg List.length hdata
            rw [List.nil_append, List.length_append] at hlengths
            exact List.length_eq_zero_iff.mp (by omega)
          subst hrest
          rw [List.nil_append, List.append_nil] at hdata
          rw [List.nil_append, ← hdata] at hsending
          exact ⟨rfl, hsending⟩
      | readEof => exact h.elim
      | readError => exact h.elim
      | writeError => exact h.elim
  · intro got count hcount htotal
    refine Triple.exists_pre fun rest => ?_
    refine Triple.assume (fun _ h => h.1) fun hdata => ?_
    refine Triple.pre_mono ?_ fun _ h => h.2
    have hrest : rest ≠ [] := by
      rintro rfl
      rw [hdata, List.append_nil] at htotal
      omega
    refine (readSource_sending hcount hrest).post_mono fun result w h => ?_
    obtain ⟨bytes, rest', rfl, hsplit, hpos, hle, hsending⟩ := h
    refine ⟨hpos, hle, rest', ?_, hsending⟩
    rw [hdata, hsplit, List.append_assoc]
  · intro got bytes
    refine Triple.exists_pre fun rest => ?_
    refine Triple.assume (fun _ h => h.1) fun hdata => ?_
    refine Triple.pre_mono ?_ fun _ h => h.2
    refine (addCrc_sending bytes).post_mono fun _ w h => ⟨rest, hdata, ?_⟩
    rw [← List.append_assoc]
    exact h
  · intro got put
    refine Triple.exists_pre fun rest => ?_
    refine Triple.assume (fun _ h => h.1) fun hdata => ?_
    refine Triple.pre_mono ?_ fun _ h => h.2
    exact retryInterrupted_sending.post_mono fun _ _ h => ⟨rest, hdata, h⟩
  · intro got put bytes hbytes
    refine Triple.exists_pre fun rest => ?_
    refine Triple.assume (fun _ h => h.1) fun hdata => ?_
    refine Triple.pre_mono ?_ fun _ h => h.2
    refine (writeStdout_sending hbytes).post_mono fun result w h => ?_
    cases result with
    | none => exact h
    | some count => exact ⟨h.1, fun hcount => ⟨rest, hdata, h.2 hcount⟩⟩

/-! Results. -/

/-- Nothing has arrived. -/
theorem read_sending (count : Nat) :
    Triple (Sending sent summed file) (read count)
      (fun result w => result = .error ∧
        w.errno = UInt32.ofNat EAGAIN ∧ Sending sent summed file w) E := by
  refine nextOutcome_sending.bind fun outcome => ?_
  refine Triple.assume (fun _ h => h.1) fun hok => ?_
  rw [hok.1]
  refine Triple.pre_mono ?_ fun _ h => h.2
  refine .ite (fun hempty => ?_) fun _ => .get_bind fun w hw => ?_
  · rw [hok.2] at hempty
    cases hempty
  · rw [if_pos hw.stdin, if_pos hw.nonblocking]
    have hset : Triple (· = w) (setErrno (UInt32.ofNat EAGAIN))
        (fun _ w => w.errno = UInt32.ofNat EAGAIN ∧
          Sending sent summed file w) E :=
      .modify fun _ h => h ▸ ⟨rfl, hw.sent, hw.crc, hw.file, hw.stdin,
        hw.nonblocking, hw.undisturbed⟩
    exact hset.bind fun _ => .ret fun _ h => ⟨rfl, h⟩

theorem waitForResult_sending :
    Triple (Sending sent summed file) (waitForResult ignoreQuotaError)
      (fun _ => Sending sent summed file) E := by
  have hread : Triple (Sending sent summed file)
      (readAll resultHeaderCodec.width)
      (fun result w => result = none ∧
        w.errno = UInt32.ofNat EAGAIN ∧ Sending sent summed file w) E := by
    refine retryInterrupted_sending.bind fun _ => ?_
    refine (read_sending _).bind fun result => ?_
    refine Triple.assume (fun _ h => h.1) fun hresult => ?_
    subst hresult
    exact .ret fun _ h => ⟨rfl, h.2⟩
  refine hread.bind fun result => ?_
  refine Triple.assume (fun _ h => h.1) fun hresult => ?_
  subst hresult
  refine .get_bind fun w hw => ?_
  rw [if_pos hw.2.1]
  exact .ret fun _ h => h ▸ hw.2.2

/-! The walk. -/

variable {filename : CString} {st : Stat} {data : List UInt8}

theorem Readable.lt_max (h : Readable filename st data) :
    filename.bytes.length < INT_MAX := by
  have hshort := h.short
  rw [MAX_PATH_LENGTH] at hshort
  rw [INT_MAX]
  omega

theorem sendRegular_sending (h : Readable filename st data)
    (hreg : sIsReg st.mode = true) :
    Triple (Unanswered sent) (sendRegular ignoreQuotaError filename st data)
      (fun _ => Unanswered (sent ++ singleBytes filename st data)) E := by
  refine Triple.exists_pre fun file => ?_
  have hopen : Triple (Sending sent sent file) (openSource data)
      (fun result w => result = some () ∧ Sending sent sent data w) E := by
    refine attempt_sending_bind fun _ => ?_
    have hset : Triple (Sending sent sent file) (modify fun w : World Packer =>
        { w with statics := { w.statics with openFile := data } })
        (fun _ => Sending sent sent data) E :=
      .modify fun _ h => ⟨h.sent, h.crc, rfl, h.stdin, h.nonblocking,
        h.undisturbed⟩
    exact hset.bind fun _ => .ret fun _ h => ⟨rfl, h⟩
  refine hopen.bind fun result => ?_
  refine Triple.assume (fun _ h => h.1) fun hresult => ?_
  subst hresult
  refine Triple.pre_mono ?_ fun _ h => h.2
  refine (writeHeaders_sending ignoreQuotaError filename st st.size
    h.lt_max).bind fun _ => ?_
  rw [← h.content (Or.inl hreg)]
  refine (copyFile_sending data).bind fun status => ?_
  refine Triple.assume (fun _ h => h.1) fun hstatus => ?_
  subst hstatus
  refine .ret fun w hw => ?_
  rw [singleBytes, if_pos (Or.inl hreg), ← List.append_assoc]
  exact ⟨[], hw.2⟩

theorem sendLink_sending (h : Readable filename st data)
    (hlink : sIsLnk st.mode = true) :
    Triple (Unanswered sent) (sendLink ignoreQuotaError filename st data)
      (fun _ => Unanswered (sent ++ singleBytes filename st data)) E := by
  refine Triple.exists_pre fun file => ?_
  have hlength := h.content (Or.inr hlink)
  have hread : Triple (Sending sent sent file)
      (readlink data (st.size.toNat + 1))
      (fun result w => result = some data ∧ Sending sent sent file w) E := by
    refine attempt_sending_bind fun _ => ?_
    have hshort := h.target hlink
    rw [MAX_PATH_LENGTH] at hshort
    rw [if_neg (by rw [INT_MAX]; omega),
      List.take_of_length_le (by omega)]
    exact .ret fun _ h => ⟨rfl, h⟩
  refine hread.bind fun result => ?_
  refine Triple.assume (fun _ h => h.1) fun hresult => ?_
  subst hresult
  refine Triple.pre_mono ?_ fun _ h => h.2
  refine .ite (fun hne => absurd hlength hne) fun _ => ?_
  refine (writeHeaders_sending ignoreQuotaError filename st st.size
    h.lt_max).bind fun _ => ?_
  refine writeAllWithCrc_sending_bind ignoreQuotaError data ?_
  refine .ret fun w hw => ?_
  rw [singleBytes, if_pos (Or.inr hlink), ← List.append_assoc]
  exact ⟨file, hw⟩

theorem singleFileProcessor_sending (h : Readable filename st data) :
    Triple (Unanswered sent)
      (singleFileProcessor ignoreQuotaError filename st data)
      (fun _ => Unanswered (sent ++ singleBytes filename st data)) E := by
  have hsend : Triple (Unanswered sent)
      (sendByType ignoreQuotaError filename st data)
      (fun _ => Unanswered (sent ++ singleBytes filename st data)) E := by
    refine .ite (fun hreg => sendRegular_sending ignoreQuotaError h hreg)
      fun hreg => .ite (fun hdir => ?_) fun hdir => .ite
        (fun hlink => sendLink_sending ignoreQuotaError h hlink)
        fun hlink => ?_
    · obtain ⟨_, hlink⟩ := sIsDir_exclusive hdir
      rw [singleBytes, if_neg (by simp [hreg, hlink]), if_pos hdir]
      exact Triple.exists_pre fun file => (writeHeaders_sending
        ignoreQuotaError filename st 0 h.lt_max).post_mono
          fun _ _ h => ⟨file, h⟩
    · rw [singleBytes, if_neg (by simp [hreg, hlink]), if_neg hdir,
        List.append_nil]
      exact .ret fun _ h => h
  refine hsend.bind fun _ => Triple.exists_pre fun file => ?_
  exact (waitForResult_sending ignoreQuotaError).post_mono
    fun _ _ h => ⟨file, h⟩

theorem lstat_sending (h : Readable filename st data) :
    Triple (Unanswered sent) (lstat filename)
      (fun result w => result ≠ none ∧ Unanswered sent w) E := by
  have hshort := h.lt_max
  refine .ite (fun hlong => absurd hlong (Nat.not_le.mpr hshort)) fun _ => ?_
  exact Triple.exists_pre fun file => attempt_sending.post_mono
    fun _ _ h => ⟨h.1, file, h.2⟩

theorem opendir_sending : Triple (Unanswered sent) (opendir filename)
    (fun _ => Unanswered sent) E :=
  Triple.exists_pre fun file => attempt_sending_bind fun _ =>
    .ret fun _ h => ⟨file, h⟩

theorem asprintf_sending : Triple (Unanswered sent) asprintf
    (fun _ => Unanswered sent) E :=
  Triple.exists_pre fun file => attempt_sending_bind fun _ =>
    .ret fun _ h => ⟨file, h⟩

mutual

theorem doFsWalk_sending (file : CString) : ∀ (source : Source)
    (sent : List UInt8), ReadableTree file source →
    Triple (Unanswered sent) (doFsWalk ignoreQuotaError false file source)
      (fun _ => Unanswered (sent ++ walkBytes file source)) E
  | .node name st data children => by
      intro sent h
      rw [ReadableTree] at h
      rw [doFsWalk, walkBytes]
      refine (lstat_sending h.1).bind fun result => ?_
      cases result with
      | none =>
          exact Triple.assume (fun _ h => h.1) fun hne => absurd rfl hne
      | some _ =>
          refine Triple.pre_mono ?_ fun _ h => h.2
          refine .ite (fun hskip => by cases hskip.2) fun _ => ?_
          refine (singleFileProcessor_sending ignoreQuotaError h.1).bind
            fun _ => ?_
          refine .ite (fun hdir => ?_) fun hdir => ?_
          · rw [if_pos hdir, ← List.append_assoc, ← List.append_assoc]
            exact opendir_sending.bind fun _ =>
              (walkEntries_sending file children _ (h.2 hdir)).bind
                fun _ => singleFileProcessor_sending ignoreQuotaError h.1
          · rw [if_neg hdir]
            exact .ret fun _ h => h

theorem walkEntries_sending (file : CString) : ∀ (sources : List Source)
    (sent : List UInt8), ReadableTrees file sources →
    Triple (Unanswered sent) (walkEntries ignoreQuotaError false file sources)
      (fun _ => Unanswered (sent ++ childrenBytes file sources)) E
  | [] => by
      intro sent h
      rw [walkEntries, childrenBytes, List.append_nil]
      exact .ret fun _ h => h
  | entry :: rest => by
      intro sent h
      rw [ReadableTrees] at h
      rw [walkEntries, childrenBytes]
      refine .ite (fun hskip => ?_) fun hskip => ?_
      · rw [if_pos hskip]
        exact walkEntries_sending file rest sent h.2
      · rw [if_neg hskip, ← List.append_assoc]
        exact asprintf_sending.bind fun _ =>
          (doFsWalk_sending _ entry sent
            (h.1 (Bool.eq_false_iff.mpr hskip))).bind
              fun _ => walkEntries_sending file rest _ h.2

end

/-! The whole transfer. -/

/-- What `qfile_pack_init`, `do_fs_walk` and the first half of
`notify_end_and_wait_for_result` send. -/
def sendTree (root : CString) (source : Source) : Pack Unit := do
  qfilePackInit
  doFsWalk ignoreQuotaError false root source
  notifyEnd

/-- All of the tree, and the end marker. -/
def treeBytes (root : CString) (source : Source) : List UInt8 :=
  walkBytes root source ++ fileHeaderCodec.put endHeader

/-- Nothing has been sent, nothing has arrived, and no call will fail. -/
structure NothingSent (w : World Packer) : Prop where
  trace : w.trace = []
  stdin : w.stdin = []
  undisturbed : Undisturbed w.outcomes

/-- All has been sent, and no call will fail. -/
structure AllSent (total : List UInt8) (w : World Packer) : Prop where
  sent : pipes.sentBy w.trace = total
  crc : w.crc32Sum = crc32ComputeBuf 0 total
  undisturbed : Undisturbed w.outcomes

theorem qfilePackInit_sending :
    Triple NothingSent qfilePackInit (fun _ => Unanswered []) E :=
  .modify fun w h => ⟨w.statics.openFile, by
    change pipes.sentBy w.trace = []
    rw [h.trace]
    rfl, (crc32ComputeBuf_nil 0).symm, rfl, h.stdin, rfl, h.undisturbed⟩

theorem notifyEnd_sending :
    Triple (Unanswered sent) notifyEnd
      (fun _ => AllSent (sent ++ fileHeaderCodec.put endHeader)) E := by
  refine Triple.exists_pre fun file => ?_
  refine (writeAllWithCrc_sending _).bind fun _ => ?_
  exact .modify fun _ h => ⟨h.2.sent, h.2.crc, h.2.undisturbed⟩

/-- The whole tree is sent, and what has been summed is what has been
sent. -/
theorem sendTree_sending {root : CString} {source : Source}
    (h : ReadableTree root source) :
    Triple NothingSent (sendTree ignoreQuotaError root source)
      (fun _ => AllSent (treeBytes root source)) E := by
  refine qfilePackInit_sending.bind fun _ => ?_
  refine (doFsWalk_sending ignoreQuotaError root source [] h).bind
    fun _ => ?_
  rw [List.nil_append]
  exact notifyEnd_sending

end

end QubesUtils
