/-
What the sender puts on the wire: whole entries, then the end marker.  It goes
on reading only after an answer that it has accepted.
-/
import QubesUtils.Pack
import QubesUtils.ProcessTrace

namespace QubesUtils

open Hoare Fifo Process ByteCodec

/-- An exit is of no interest. -/
def Anyhow (_ : Exit) (_ : World Packer) : Prop := True

theorem triple_anyhow {α : Type} {pre : World Packer → Prop}
    (program : Pack α) : Triple pre program (fun _ _ => True) Anyhow := by
  intro w _
  cases program.run w with
  | ok a w' => trivial
  | error e w' => trivial

theorem giveUp_never {α : Type} (ignoreQuotaError : Bool)
    {pre : World Packer → Prop} {post : α → World Packer → Prop} :
    Triple pre (giveUp ignoreQuotaError) post Anyhow :=
  (triple_anyhow _).bind fun _ => (triple_anyhow _).bind fun _ =>
    .throw fun _ _ => trivial

/-! Writing. -/

/-- The process has only written, and so much is in the checksum. -/
structure Sent (sent summed : List UInt8) (trace : List Event)
    (crc : UInt64) (_stdin : List UInt8) : Prop where
  deaf : pipes.receivedBy trace = []
  sent : pipes.sentBy trace = sent
  crc : crc = crc32ComputeBuf 0 summed

section

variable {sent summed : List UInt8}

theorem addCrc_sent (data : List UInt8) {E : Exit → World Packer → Prop} :
    Triple (OnStream (Sent sent summed)) (addCrc data : Pack Unit)
      (fun _ => OnStream (Sent sent (summed ++ data))) E :=
  .modify fun _ h => ⟨h.deaf, h.sent, by
    rw [crc32ComputeBuf_append, ← h.crc]⟩

/-- All the data is sent, or a part of it. -/
def DataSent (sent summed data : List UInt8) : Bool → World Packer → Prop
  | true, w => OnStream (Sent (sent ++ data) summed) w
  | false, w => ∃ part, part <+: data ∧
      OnStream (Sent (sent ++ part) summed) w

theorem sent_of_wrote {w w' : World Packer} {data : List UInt8}
    (hw : OnStream (Sent sent summed) w)
    (h : OnStream (Wrote w.trace w.crc32Sum w.stdin data) w') :
    OnStream (Sent (sent ++ data) summed) w' := by
  obtain ⟨⟨writes, htrace, honly, hsent⟩, hcrc, _⟩ := h
  refine ⟨?_, ?_, hcrc.trans hw.crc⟩
  · rw [htrace, Port.receivedBy_append, hw.deaf, honly.receivedBy]
    rfl
  · rw [htrace, Port.sentBy_append, hw.sent, hsent]

theorem writeAll_sent (data : List UInt8)
    {E : Exit → World Packer → Prop} :
    Triple (OnStream (Sent sent summed)) (writeAll writeStdout data)
      (DataSent sent summed data) E := by
  intro w hw
  have hstart : OnStream (Wrote w.trace w.crc32Sum w.stdin []) w :=
    ⟨⟨[], (List.append_nil _).symm, onlyWrites_nil, rfl⟩, rfl, rfl⟩
  refine (writeAll_writes data).post_mono (fun ok w' h => ?_) w hstart
  cases ok with
  | true => exact sent_of_wrote hw h
  | false =>
      obtain ⟨part, hpart, hwrote⟩ := h
      exact ⟨part, hpart, sent_of_wrote hw hwrote⟩

theorem writeAllWithCrc_sent (data : List UInt8)
    {E : Exit → World Packer → Prop} :
    Triple (OnStream (Sent sent summed)) (writeAllWithCrc data)
      (DataSent sent (summed ++ data) data) E :=
  (addCrc_sent data).bind fun _ => writeAll_sent data

variable (ignoreQuotaError : Bool)

/-- Data that is sent, or the sender gives up. -/
theorem writeOrGiveUp_sent (data : List UInt8) {next : Pack Unit}
    {post : Unit → World Packer → Prop}
    (hnext : Triple (OnStream (Sent (sent ++ data) (sent ++ data))) next post
      Anyhow) :
    Triple (OnStream (Sent sent sent))
      (writeAllWithCrc data >>= fun ok =>
        if ok = true then next else giveUp ignoreQuotaError)
      post Anyhow := by
  refine (writeAllWithCrc_sent data).bind fun ok => ?_
  cases ok with
  | true => exact hnext
  | false => exact giveUp_never ignoreQuotaError

theorem writeHeaders_sent (hdr : FileHeader) (filename : CString) :
    Triple (OnStream (Sent sent sent))
      (writeHeaders ignoreQuotaError hdr filename)
      (fun _ => OnStream (Sent
        (sent ++ (fileHeaderCodec.put hdr ++
          (filename.bytes ++ [0]).take hdr.namelen.toNat))
        (sent ++ (fileHeaderCodec.put hdr ++
          (filename.bytes ++ [0]).take hdr.namelen.toNat)))) Anyhow := by
  refine writeOrGiveUp_sent ignoreQuotaError _ ?_
  refine writeOrGiveUp_sent ignoreQuotaError _ ?_
  rw [List.append_assoc]
  exact .ret fun _ h => h

/-- What a read from the open file leaves. -/
def SourceRead (P : List Event → UInt64 → List UInt8 → Prop) (count : Nat) :
    ReadResult → World Packer → Prop
  | .data bytes, w => 0 < bytes.length ∧ bytes.length ≤ count ∧ OnStream P w
  | _, _ => True

theorem readSource_stream {P : List Event → UInt64 → List UInt8 → Prop}
    {count : Nat} (hcount : 0 < count) {E : Exit → World Packer → Prop} :
    Triple (OnStream P) (readSource count) (SourceRead P count) E := by
  refine nextOutcome_stream.bind fun outcome => ?_
  cases outcome.error with
  | some errno =>
      exact (setErrno_stream _).bind fun _ => .ret fun _ _ => trivial
  | none =>
      refine .get_bind fun w hw => .ite (fun _ => .ret fun _ _ => trivial)
        fun hfile => ?_
      intro w' h
      subst h
      have hlength : 0 < w'.statics.openFile.length :=
        List.length_pos_iff.mpr hfile
      refine ⟨?_, ?_, hw⟩
      · rw [List.length_take]
        omega
      · rw [List.length_take]
        omega

/-- A file that has been copied whole. -/
def FileSent (sent : List UInt8) (size : Nat) :
    CopyStatus → World Packer → Prop
  | .ok, w => ∃ payload : List UInt8, payload.length = size ∧
      OnStream (Sent (sent ++ payload) (sent ++ payload)) w
  | _, _ => True

theorem copyFileLoop_sent (fuel : Nat) :
    ∀ missing sent, missing ≤ fuel →
      Triple (OnStream (Sent sent sent))
        (copyFileLoop readSource writeStdout fuel missing)
        (FileSent sent missing) Anyhow := by
  induction fuel with
  | zero =>
      intro missing sent hfuel
      refine .ret fun w h => ⟨[], ?_, ?_⟩
      · rw [List.length_nil]
        omega
      · rw [List.append_nil]
        exact h
  | succ fuel ih =>
      intro missing sent hfuel
      refine .ite (fun hmissing => .ret fun w h => ⟨[], ?_, ?_⟩)
        fun hmissing => ?_
      · rw [hmissing, List.length_nil]
      · rw [List.append_nil]
        exact h
      refine (readSource_stream (by omega)).bind fun result => ?_
      cases result with
      | eof => exact .ret fun _ _ => trivial
      | error => exact .ret fun _ _ => trivial
      | data bytes =>
          refine Triple.assume (fun _ h => (⟨h.1, h.2.1⟩ : _ ∧ _))
            fun hbytes => ?_
          refine Triple.pre_mono ?_ fun _ h => h.2.2
          refine (addCrc_sent bytes).bind fun _ => ?_
          refine (writeAll_sent bytes).bind fun ok => ?_
          cases ok with
          | false => exact .ret fun _ _ => trivial
          | true =>
              refine (ih (missing - bytes.length) (sent ++ bytes)
                (by omega)).post_mono fun status w h => ?_
              cases status with
              | ok =>
                  obtain ⟨payload, hlength, hsent⟩ := h
                  refine ⟨bytes ++ payload, ?_, ?_⟩
                  · rw [List.length_append, hlength]
                    omega
                  · rw [← List.append_assoc]
                    exact hsent
              | readEof => trivial
              | readError => trivial
              | writeError => trivial

end

/-! Entries. -/

theorem fileHeader_namelen {filename : CString} (st : Stat) (filelen : UInt64)
    (hshort : filename.bytes.length < INT_MAX) :
    (fileHeader filename st filelen).namelen.toNat =
      filename.bytes.length + 1 := by
  rw [INT_MAX] at hshort
  rw [fileHeader, UInt32.toNat_ofNat']
  omega

theorem fileHeader_payloadLength {filename : CString} {st : Stat}
    (h : sIsReg st.mode = true ∨ sIsLnk st.mode = true) :
    (fileHeader filename st st.size).payloadLength = st.size.toNat :=
  if_pos h

theorem fileHeader_payloadLength_dir {filename : CString} {st : Stat}
    {filelen : UInt64} (h : sIsDir st.mode = true) :
    (fileHeader filename st filelen).payloadLength = 0 := by
  obtain ⟨hreg, hlink⟩ := sIsDir_exclusive h
  refine if_neg ?_
  change ¬ (sIsReg st.mode = true ∨ sIsLnk st.mode = true)
  simp [hreg, hlink]

/-- The entry for an object that is sent. -/
def sentEntry (filename : CString) (st : Stat) (filelen : UInt64)
    (payload : List UInt8) (hshort : filename.bytes.length < INT_MAX)
    (hpayload : payload.length =
      (fileHeader filename st filelen).payloadLength) : Entry where
  header := fileHeader filename st filelen
  name := filename.bytes ++ [0]
  payload
  named := by
    intro h
    have hlength := fileHeader_namelen st filelen hshort
    rw [h] at hlength
    cases hlength
  nameLength := by
    rw [fileHeader_namelen st filelen hshort, List.length_append]
    rfl
  payloadLength := hpayload

/-- What is sent for one object: a header and a name, or nothing. -/
def singleKeys (filename : CString) (st : Stat) :
    List (FileHeader × List UInt8) :=
  if sIsReg st.mode ∨ sIsLnk st.mode then
    [(fileHeader filename st st.size, filename.bytes ++ [0])]
  else if sIsDir st.mode then
    [(fileHeader filename st 0, filename.bytes ++ [0])]
  else
    []

mutual

/-- What is sent for a tree. -/
def walkKeys (ignoreSymlinks : Bool) (file : CString) :
    Source → List (FileHeader × List UInt8)
  | .node _ st _ children =>
      if sIsLnk st.mode ∧ ignoreSymlinks then []
      else if sIsDir st.mode then
        singleKeys file st ++ childrenKeys ignoreSymlinks file children ++
          singleKeys file st
      else
        singleKeys file st

def childrenKeys (ignoreSymlinks : Bool) (file : CString) :
    List Source → List (FileHeader × List UInt8)
  | [] => []
  | entry :: rest =>
      if skipped entry.name then childrenKeys ignoreSymlinks file rest
      else
        walkKeys ignoreSymlinks (pathUnder file entry.name) entry ++
          childrenKeys ignoreSymlinks file rest

end

def Call.keys : Call → List (FileHeader × List UInt8)
  | .single filename st _ _ => singleKeys filename st
  | .walk ignoreSymlinks file source => walkKeys ignoreSymlinks file source

/-- Whole entries have been sent. -/
def SentKeys (keys : List (FileHeader × List UInt8)) (w : World Packer) :
    Prop :=
  ∃ entries : List Entry, entries.map Entry.key = keys ∧
    OnStream (Sent (frames entries) (frames entries)) w

theorem sentKeys_concat {entries : List Entry} {entry : Entry}
    {keys : List (FileHeader × List UInt8)} (hkeys : entries.map Entry.key = keys)
    {w : World Packer}
    (h : OnStream (Sent (frames entries ++ entry.frame)
      (frames entries ++ entry.frame)) w) :
    SentKeys (keys ++ [entry.key]) w := by
  refine ⟨entries ++ [entry], ?_, ?_⟩
  · rw [List.map_append, hkeys]
    rfl
  · rw [frames, List.flatMap_append, List.flatMap_singleton]
    exact h

section

variable (ignoreQuotaError : Bool) {keys : List (FileHeader × List UInt8)}

theorem writeHeaders_entry {entries : List Entry} (filename : CString)
    (st : Stat) (filelen : UInt64)
    (hshort : filename.bytes.length < INT_MAX) :
    Triple (OnStream (Sent (frames entries) (frames entries)))
      (writeHeaders ignoreQuotaError (fileHeader filename st filelen) filename)
      (fun _ => OnStream (Sent
        (frames entries ++ (fileHeaderCodec.put
          (fileHeader filename st filelen) ++ (filename.bytes ++ [0])))
        (frames entries ++ (fileHeaderCodec.put
          (fileHeader filename st filelen) ++ (filename.bytes ++ [0])))))
      Anyhow := by
  have h := @writeHeaders_sent (frames entries) ignoreQuotaError
    (fileHeader filename st filelen) filename
  have hlength : (filename.bytes ++ [0]).length =
      (fileHeader filename st filelen).namelen.toNat := by
    rw [fileHeader_namelen st filelen hshort, List.length_append]
    rfl
  rw [← hlength, List.take_length] at h
  exact h

theorem sendRegular_sent (filename : CString) (st : Stat)
    (data : List UInt8) (hshort : filename.bytes.length < INT_MAX)
    (hreg : sIsReg st.mode = true) :
    Triple (SentKeys keys) (sendRegular ignoreQuotaError filename st data)
      (fun _ => SentKeys (keys ++
        [(fileHeader filename st st.size, filename.bytes ++ [0])]))
      Anyhow := by
  refine Triple.exists_pre fun entries => ?_
  refine Triple.assume (fun _ h => h.1) fun hkeys => ?_
  refine Triple.pre_mono ?_ fun _ h => h.2
  have hopen : Triple (OnStream (Sent (frames entries) (frames entries)))
      (openSource data) (fun _ => OnStream (Sent (frames entries)
        (frames entries))) Anyhow := by
    refine attempt_stream.bind fun outcome => ?_
    cases outcome with
    | none => exact .ret fun _ h => h.1
    | some _ =>
        have hset : Triple (OnStream (Sent (frames entries) (frames entries)))
            (modify fun w => { w with statics := { w.statics with
              openFile := data } } : Pack Unit)
            (fun _ => OnStream (Sent (frames entries) (frames entries)))
            Anyhow := .modify fun _ h => h
        exact (hset.pre_mono fun _ h => h.1).bind fun _ => .ret fun _ h => h
  refine hopen.bind fun result => ?_
  cases result with
  | none => exact .throw fun _ _ => trivial
  | some _ =>
      refine (writeHeaders_entry ignoreQuotaError filename st st.size
        hshort).bind fun _ => ?_
      refine (copyFileLoop_sent _ _ _ (Nat.le_refl _)).bind fun status => ?_
      cases status with
      | readEof => exact .throw fun _ _ => trivial
      | readError => exact .throw fun _ _ => trivial
      | writeError => exact giveUp_never ignoreQuotaError
      | ok =>
          refine .ret fun w h => ?_
          obtain ⟨payload, hlength, hsent⟩ := h
          rw [← fileHeader_payloadLength (Or.inl hreg)] at hlength
          rw [List.append_assoc (frames entries)] at hsent
          exact @sentKeys_concat entries (sentEntry filename st st.size
            payload hshort hlength) keys hkeys w hsent

theorem readlink_stream {P : List Event → UInt64 → List UInt8 → Prop}
    (target : List UInt8) (bufsize : Nat) {E : Exit → World Packer → Prop} :
    Triple (OnStream P) (readlink target bufsize) (fun _ => OnStream P) E := by
  refine attempt_stream.bind fun outcome => ?_
  cases outcome with
  | none => exact .ret fun _ h => h.1
  | some _ =>
      refine .ite (fun _ => ?_) fun _ => .ret fun _ h => h.1
      exact ((setErrno_stream _).pre_mono fun _ h => h.1).bind fun _ =>
        .ret fun _ h => h.1

theorem sendLink_sent (filename : CString) (st : Stat)
    (data : List UInt8) (hshort : filename.bytes.length < INT_MAX)
    (hlink : sIsLnk st.mode = true) :
    Triple (SentKeys keys) (sendLink ignoreQuotaError filename st data)
      (fun _ => SentKeys (keys ++
        [(fileHeader filename st st.size, filename.bytes ++ [0])]))
      Anyhow := by
  refine Triple.exists_pre fun entries => ?_
  refine Triple.assume (fun _ h => h.1) fun hkeys => ?_
  refine Triple.pre_mono ?_ fun _ h => h.2
  refine (readlink_stream _ _).bind fun result => ?_
  cases result with
  | none => exact .throw fun _ _ => trivial
  | some name =>
      refine .ite (fun _ => .throw fun _ _ => trivial) fun hlength => ?_
      refine (writeHeaders_entry ignoreQuotaError filename st st.size
        hshort).bind fun _ => ?_
      refine writeOrGiveUp_sent ignoreQuotaError name (.ret fun w hsent => ?_)
      have hpayload := not_not.mp hlength
      rw [← fileHeader_payloadLength (Or.inr hlink)] at hpayload
      rw [List.append_assoc (frames entries)] at hsent
      exact @sentKeys_concat entries (sentEntry filename st st.size name
        hshort hpayload) keys hkeys w hsent

theorem sendDirectory_sent (filename : CString) (st : Stat)
    (hshort : filename.bytes.length < INT_MAX) (hdir : sIsDir st.mode = true) :
    Triple (SentKeys keys)
      (writeHeaders ignoreQuotaError (fileHeader filename st 0) filename)
      (fun _ => SentKeys (keys ++
        [(fileHeader filename st 0, filename.bytes ++ [0])])) Anyhow := by
  refine Triple.exists_pre fun entries => ?_
  refine Triple.assume (fun _ h => h.1) fun hkeys => ?_
  refine Triple.pre_mono ?_ fun _ h => h.2
  refine (writeHeaders_entry ignoreQuotaError filename st 0
    hshort).post_mono fun _ w hsent => ?_
  have hpayload : ([] : List UInt8).length =
      (fileHeader filename st 0).payloadLength :=
    (fileHeader_payloadLength_dir hdir).symm
  refine @sentKeys_concat entries (sentEntry filename st 0 [] hshort
    hpayload) keys hkeys w ?_
  rw [Entry.frame, sentEntry]
  simp only [List.append_nil]
  exact hsent

theorem sendByType_sent (filename : CString) (st : Stat)
    (data : List UInt8) (hshort : filename.bytes.length < INT_MAX) :
    Triple (SentKeys keys) (sendByType ignoreQuotaError filename st data)
      (fun _ => SentKeys (keys ++ singleKeys filename st)) Anyhow := by
  rw [singleKeys]
  refine .ite (fun hreg => ?_) fun hreg => .ite (fun hdir => ?_)
    fun hdir => .ite (fun hlink => ?_) fun hlink => ?_
  · rw [if_pos (Or.inl hreg)]
    exact sendRegular_sent ignoreQuotaError filename st data hshort hreg
  · obtain ⟨hreg', hlink'⟩ := sIsDir_exclusive hdir
    rw [if_neg (by simp [hreg', hlink']), if_pos hdir]
    exact sendDirectory_sent ignoreQuotaError filename st hshort hdir
  · rw [if_pos (Or.inr hlink)]
    exact sendLink_sent ignoreQuotaError filename st data hshort hlink
  · rw [if_neg (not_or.mpr ⟨hreg, hlink⟩), if_neg hdir, List.append_nil]
    exact .ret fun _ h => h

end

/-! Answers. -/

/-- When so much had been sent, and nothing had been read, an answer without
an error came in. -/
def Accepted (sent : List UInt8) (w : World Packer) : Prop :=
  ∃ before answer, before ++ answer <+: w.trace ∧
    pipes.receivedBy before = [] ∧ pipes.sentBy before = sent ∧
    pipes.sentBy answer = [] ∧
    (pipes.receivedBy answer).length = resultHeaderCodec.width ∧
    (resultHeaderCodec.get (pipes.receivedBy answer)).errorCode = 0 ∧
    ∃ data, (resultHeaderCodec.get (pipes.receivedBy answer)).crc32 =
      crc32ComputeBuf 0 data

/-- The trace has come so far, nothing has been sent since then, and the
checksum is the same. -/
structure Later (before : List Event) (crc : UInt64) (w : World Packer) :
    Prop where
  grown : before <+: w.trace
  silent : pipes.sentBy w.trace = pipes.sentBy before
  crc : w.crc32Sum = crc

section

variable {before : List Event} {crc : UInt64}

theorem readAll_later (size : Nat) :
    Triple (Later before crc) (readAll size)
      (fun _ => Later before crc) Anyhow := by
  intro w hw
  have hlater : ∀ got w', Heard w got w' → Later before crc w' := by
    rintro got w' ⟨⟨events, htrace, hsent, _⟩, hcrc⟩
    refine ⟨hw.grown.trans ?_, ?_, hcrc.trans hw.crc⟩
    · rw [htrace]
      exact List.prefix_append _ _
    · rw [htrace, Port.sentBy_append, hsent, List.append_nil, hw.silent]
  refine (readAll_heard size).post_mono (fun result w' h => ?_) w
    (Listening.start w)
  cases result with
  | none =>
      obtain ⟨got, hgot, _⟩ := h
      exact hlater got w' hgot
  | some all => exact hlater all w' h.2

theorem readLastFilename_later :
    Triple (Later before crc) readLastFilename
      (fun _ => Later before crc) Anyhow :=
  (readAll_later _).bind fun _ => (readAll_later _).bind fun _ =>
    .ret fun _ h => h

theorem judgeResult_later (hdr : ResultHeader) (lastFilename : List UInt8) :
    Triple (Later before crc) (judgeResult false hdr lastFilename)
      (fun _ w => Later before crc w ∧ hdr.errorCode = 0 ∧ hdr.crc32 = crc)
      Anyhow := by
  have hthrow : ∀ message, Triple (Later before crc)
      (throw (.message message) : Pack Unit)
      (fun _ w => Later before crc w ∧ hdr.errorCode = 0 ∧ hdr.crc32 = crc)
      Anyhow := fun _ => .throw fun _ _ => trivial
  refine .get_bind fun w hw => Triple.from_state ?_ hw
  refine .ite (fun hzero => .ite (fun _ => hthrow _) fun hcrc => ?_) fun _ => ?_
  · refine .ret fun w' h => ⟨h, hzero, ?_⟩
    rw [not_not.mp hcrc, hw.crc]
  refine .ite (fun _ => hthrow _) fun _ => .ite (fun _ => hthrow _) fun _ => ?_
  refine .ite (fun _ => hthrow _) fun _ => .ite (fun _ => hthrow _) fun _ => ?_
  refine .ite (fun hquota => ?_) fun _ => hthrow _
  exact absurd hquota.2 (by decide)

/-- Waiting returns without an answer if the pipe does not wait, or with an
answer that is accepted. -/
theorem waitForResult_accepted {sent summed : List UInt8} {w₀ : World Packer}
    (hw₀ : OnStream (Sent sent summed) w₀) :
    Triple (· = w₀) (waitForResult false)
      (fun _ w => w₀.nonblocking = true ∧ OnStream (Sent sent summed) w ∨
        Accepted sent w ∧ pipes.sentBy w.trace = sent ∧
          w.crc32Sum = w₀.crc32Sum) Anyhow := by
  refine ((readAll_heard _).from_state (Listening.start w₀)).bind
    fun result => ?_
  cases result with
  | none =>
      refine .get_bind fun w hw => .ite (fun hagain => ?_)
        fun _ => .throw fun _ _ => trivial
      refine .ret fun w' h => Or.inl ?_
      subst h
      obtain ⟨got, ⟨⟨events, htrace, hsent, hreceived⟩, hcrc⟩, htried⟩ := hw
      obtain ⟨rfl, hnonblocking⟩ := htried hagain
      refine ⟨hnonblocking, ?_, ?_, hcrc.trans hw₀.crc⟩
      · rw [htrace, Port.receivedBy_append, hw₀.deaf, hreceived]
        rfl
      · rw [htrace, Port.sentBy_append, hw₀.sent, hsent, List.append_nil]
  | some all =>
      refine Triple.assume (fun _ h => h.1) fun hlength => ?_
      intro w hw
      obtain ⟨⟨events, htrace, hsent, hreceived⟩, hcrc⟩ := hw.2
      have hstart : Later (w₀.trace ++ events) w₀.crc32Sum w :=
        ⟨htrace ▸ List.prefix_rfl, htrace ▸ rfl, hcrc⟩
      have hset : Triple (Later (w₀.trace ++ events) w₀.crc32Sum)
          (setErrno (resultHeaderCodec.get all).errorCode : Pack Unit)
          (fun _ => Later (w₀.trace ++ events) w₀.crc32Sum) Anyhow :=
        .modify fun _ h => ⟨h.grown, h.silent, h.crc⟩
      refine (readLastFilename_later.bind fun lastFilename => hset.bind
        fun _ => (judgeResult_later _ _).post_mono fun _ w' h =>
          Or.inr ?_) w hstart
      refine ⟨⟨w₀.trace, events, h.1.grown, hw₀.deaf, hw₀.sent, hsent, ?_,
        ?_, summed, ?_⟩, ?_, h.1.crc⟩
      · rw [hreceived, hlength]
      · rw [hreceived]
        exact h.2.1
      · rw [hreceived, h.2.2]
        exact hw₀.crc
      · rw [h.1.silent, Port.sentBy_append, hw₀.sent, hsent, List.append_nil]

end

/-! The trace only grows. -/

def Grows {α : Type} (program : Pack α) : Prop :=
  ∀ before, Preserves (Extends before) program

section

variable (ignoreQuotaError : Bool)

theorem readLastFilename_grows : Grows readLastFilename :=
  fun _ => (readAll_stable _).bind fun _ => (readAll_stable _).bind
    fun _ => .ret _

theorem judgeResult_grows (hdr : ResultHeader) (lastFilename : List UInt8) :
    Grows (judgeResult ignoreQuotaError hdr lastFilename) :=
  fun _ => .get_bind fun _ => .ite (.ite (.throw _) (.ret _)) <|
    .ite (.throw _) <| .ite (.throw _) <| .ite (.throw _) <|
      .ite (.throw _) <| .ite (.ret _) (.throw _)

theorem waitForResult_grows : Grows (waitForResult ignoreQuotaError) := by
  intro before
  refine (readAll_stable _).bind fun result => ?_
  cases result with
  | none => exact .get_bind fun _ => .ite (.ret _) (.throw _)
  | some bytes =>
      have hset : Preserves (Extends before)
          (setErrno (resultHeaderCodec.get bytes).errorCode : Pack Unit) :=
        setErrno_stable _
      exact (readLastFilename_grows before).bind fun lastFilename =>
        hset.bind fun _ => judgeResult_grows ignoreQuotaError _ _ before

theorem giveUp_grows {α : Type} :
    Grows (giveUp ignoreQuotaError : Pack α) := by
  intro before
  have hblock : Preserves (Extends before) (setBlock : Pack Unit) :=
    setBlock_stable
  exact hblock.bind fun _ => (waitForResult_grows ignoreQuotaError
    before).bind fun _ => .throw _

theorem writeAllWithCrc_grows (data : List UInt8) :
    Grows (writeAllWithCrc data : Pack Bool) := by
  intro before
  have hcrc : Preserves (Extends before) (addCrc data : Pack Unit) :=
    addCrc_stable data
  exact hcrc.bind fun _ => writeAll_stable data

theorem writeHeaders_grows (hdr : FileHeader) (filename : CString) :
    Grows (writeHeaders ignoreQuotaError hdr filename) :=
  fun before => (writeAllWithCrc_grows _ before).bind fun _ =>
    .ite ((writeAllWithCrc_grows _ before).bind fun _ =>
      .ite (.ret _) (giveUp_grows ignoreQuotaError before))
      (giveUp_grows ignoreQuotaError before)

theorem attempt_grows : Grows (attempt : Pack _) :=
  fun _ => attempt_stable

theorem openSource_grows (data : List UInt8) : Grows (openSource data) := by
  intro before
  refine (attempt_grows before).bind fun outcome => ?_
  cases outcome with
  | none => exact .ret _
  | some _ => exact Preserves.bind (.modify fun _ h => h) fun _ => .ret _

theorem readSource_grows (count : Nat) : Grows (readSource count) := by
  intro before
  have hnext : Preserves (Extends before) (nextOutcome : Pack _) :=
    nextOutcome_stable
  refine hnext.bind fun outcome => ?_
  cases outcome.error with
  | some errno =>
      have hset : Preserves (Extends before)
          (setErrno errno.value : Pack Unit) := setErrno_stable _
      exact hset.bind fun _ => .ret _
  | none =>
      refine .get_bind fun w => .ite (.ret _) ?_
      exact Preserves.bind (.modify fun _ h => h) fun _ => .ret _

theorem readlink_grows (target : List UInt8) (bufsize : Nat) :
    Grows (readlink target bufsize) := by
  intro before
  refine (attempt_grows before).bind fun outcome => ?_
  cases outcome with
  | none => exact .ret _
  | some _ =>
      have hset : Preserves (Extends before)
          (setErrno (UInt32.ofNat ENAMETOOLONG) : Pack Unit) :=
        setErrno_stable _
      exact .ite (hset.bind fun _ => .ret _) (.ret _)

theorem sendRegular_grows (filename : CString) (st : Stat)
    (data : List UInt8) :
    Grows (sendRegular ignoreQuotaError filename st data) := by
  intro before
  refine (openSource_grows data before).bind fun result => ?_
  cases result with
  | none => exact .throw _
  | some _ =>
      refine (writeHeaders_grows ignoreQuotaError _ _ before).bind
        fun _ => ?_
      refine (copyFileLoop_preserves retryInterrupted_stable
        (fun count => readSource_grows count before)
        (fun data => addCrc_stable data) writeStdout_stable _ _).bind
          fun status => ?_
      cases status with
      | readEof => exact .throw _
      | readError => exact .throw _
      | writeError => exact giveUp_grows ignoreQuotaError before
      | ok => exact .ret _

theorem sendLink_grows (filename : CString) (st : Stat)
    (data : List UInt8) :
    Grows (sendLink ignoreQuotaError filename st data) := by
  intro before
  refine (readlink_grows _ _ before).bind fun result => ?_
  cases result with
  | none => exact .throw _
  | some name =>
      exact .ite (.throw _) ((writeHeaders_grows ignoreQuotaError _ _
        before).bind fun _ => (writeAllWithCrc_grows _ before).bind
          fun _ => .ite (.ret _) (giveUp_grows ignoreQuotaError before))

theorem singleFileProcessor_grows (filename : CString) (st : Stat)
    (data : List UInt8) :
    Grows (singleFileProcessor ignoreQuotaError filename st data) := by
  intro before
  have hsend : Preserves (Extends before)
      (sendByType ignoreQuotaError filename st data) :=
    .ite (sendRegular_grows ignoreQuotaError _ _ _ before)
      (.ite (writeHeaders_grows ignoreQuotaError _ _ before)
        (.ite (sendLink_grows ignoreQuotaError _ _ _ before) (.ret _)))
  exact hsend.bind fun _ => waitForResult_grows ignoreQuotaError before

end

end QubesUtils
