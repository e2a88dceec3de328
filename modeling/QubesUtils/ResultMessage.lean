/-
The result message: what the unpacker writes is what the sender obtains, and
whatever else arrives, the sender reports printable text only.
-/
import QubesUtils.LastFilename
import QubesUtils.ShortCounts
import QubesUtils.UnpackReport

namespace QubesUtils

open ByteCodec Process Fifo Hoare

/-- The bytes of a result. -/
def resultMessage (code : UInt32) (crc32 : UInt64) (last : Option CString) :
    List UInt8 :=
  resultHeaderCodec.put ⟨code, 0, crc32⟩ ++ last.elim [] fun name =>
    resultHeaderExtCodec.put (UInt32.ofNat name.bytes.length) ++ name.bytes

/-- The name that the sender shows. -/
def shownName (last : Option CString) : List UInt8 :=
  last.elim [] fun name => name.bytes.map shownByte

/-- `send_status_and_crc` writes the message, over any short or interrupted
writes. -/
theorem sendStatusAndCrc_writes (code : UInt32) (last : Option CString)
    {w : World Unpacker} (h : Benign w.outcomes) :
    ∃ w', (sendStatusAndCrc code last).run w = .ok () w' ∧
      pipes.sentBy w'.trace =
        pipes.sentBy w.trace ++ resultMessage code w.crc32Sum last := by
  rw [sendStatusAndCrc_run, EStateM.run_bind]
  obtain ⟨w₁, hheader, hmoved₁, houtcomes₁, _⟩ :=
    writeAll_run (resultHeaderCodec.put ⟨code, 0, w.crc32Sum⟩) h
  rw [hheader]
  cases last with
  | none =>
      refine ⟨_, rfl, ?_⟩
      change pipes.sentBy w₁.trace = _
      rw [hmoved₁.sent, resultMessage, Option.elim_none, List.append_nil]
  | some name =>
      have hbenign₁ : Benign w₁.outcomes := houtcomes₁ ▸ h.afterWrites _
      obtain ⟨w₂, hext, hmoved₂, houtcomes₂, _⟩ := writeAll_run
        (resultHeaderExtCodec.put (UInt32.ofNat name.bytes.length)) hbenign₁
      have hbenign₂ : Benign w₂.outcomes :=
        houtcomes₂ ▸ hbenign₁.afterWrites _
      obtain ⟨w₃, hname, hmoved₃, _, _⟩ :=
        writeAll_run name.bytes hbenign₂
      simp only
      rw [sendName, EStateM.run_bind, hext]
      simp only
      rw [EStateM.run_bind, hname]
      refine ⟨_, rfl, ?_⟩
      change pipes.sentBy w₃.trace = _
      rw [hmoved₃.sent, hmoved₂.sent, hmoved₁.sent, resultMessage,
        Option.elim_some, List.append_assoc, List.append_assoc]

/-- What `wait_for_result` gets out of the stream. -/
def receiveResult : Pack (Option (ResultHeader × List UInt8)) := do
  let result ← readAll resultHeaderCodec.width
  result.elim (pure none) fun bytes => do
    let lastFilename ← readLastFilename
    return some (resultHeaderCodec.get bytes, lastFilename)

theorem readLastFilename_returns (w : World Packer) :
    ∃ (name : List UInt8) (w' : World Packer),
      readLastFilename.run w = .ok (name.map shownByte) w' := by
  obtain ⟨ext, w₁, hext⟩ := readAll_returns w resultHeaderExtCodec.width
  obtain ⟨last, w₂, hlast⟩ := readAll_returns w₁
    (min (announcedNamelen ext) MAX_PATH_LENGTH)
  exact ⟨_, w₂, readLastFilename_run hext hlast⟩

/-- What is done with the result. -/
theorem waitForResult_received (ignoreQuotaError : Bool)
    {w w' : World Packer} {hdr : ResultHeader} {lastFilename : List UInt8}
    (h : receiveResult.run w = .ok (some (hdr, lastFilename)) w') :
    (waitForResult ignoreQuotaError).run w =
      (judgeResult ignoreQuotaError hdr lastFilename).run
        { w' with errno := hdr.errorCode } := by
  obtain ⟨result, w₁, hresult⟩ := readAll_returns w resultHeaderCodec.width
  rw [receiveResult, EStateM.run_bind, hresult] at h
  rw [waitForResult, EStateM.run_bind, hresult]
  cases result with
  | none =>
      have hnone : (none : Option (ResultHeader × List UInt8)) =
          some (hdr, lastFilename) := (EStateM.Result.ok.inj h).1
      cases hnone
  | some bytes =>
      obtain ⟨name, w₂, hname⟩ := readLastFilename_returns w₁
      simp only [Option.elim_some] at h
      rw [EStateM.run_bind, hname] at h
      obtain ⟨hpair, rfl⟩ := EStateM.Result.ok.inj h
      obtain ⟨rfl, rfl⟩ := Prod.mk.inj (Option.some.inj hpair)
      simp only
      rw [EStateM.run_bind, hname]
      rfl

theorem readAll_end {σ : Type} {w : World σ} {size : Nat}
    (h : Benign w.outcomes) (hstdin : w.stdin = [])
    (hwaits : w.nonblocking = false) (hsize : size ≠ 0) :
    ∃ w', (readAll size).run w = .ok none w' ∧
      w'.crc32Sum = w.crc32Sum := by
  obtain ⟨size, rfl⟩ := Nat.exists_eq_succ_of_ne_zero hsize
  obtain ⟨w₁, hretry, hmoved₁, _, hpipe₁, hready⟩ :=
    retryInterrupted_run w h
  obtain ⟨w₂, hread, hmoved₂⟩ := read_end (size + 1) hready
    (hmoved₁.stdin.symm.trans hstdin) (hpipe₁.trans hwaits)
  have hcrc : w₂.crc32Sum = w.crc32Sum := by
    rw [hmoved₂.crc, hmoved₁.crc, crc32ComputeBuf_nil, crc32ComputeBuf_nil]
  refine ⟨{ w₂ with errno := 0 }, ?_, hcrc⟩
  rw [readAll, readAllLoop, if_neg hsize, EStateM.run_bind, hretry]
  simp only
  rw [EStateM.run_bind, hread]
  rfl

/-- The read of a part that is there. -/
theorem readAll_front {σ : Type} {w : World σ} (front rest : List UInt8)
    (h : Benign w.outcomes) (hstdin : w.stdin = front ++ rest) :
    ∃ w', (readAll front.length).run w = .ok (some front) w' ∧
      w'.stdin = rest ∧ w'.crc32Sum = w.crc32Sum ∧ Benign w'.outcomes ∧
      (front ≠ [] → w'.nonblocking = false) := by
  obtain ⟨w', hrun, hmoved, hbenign, hwaits⟩ := @readAll_run σ w front.length
    h (by rw [hstdin, List.length_append]; exact Nat.le_add_right _ _)
  have hfront : w.stdin.take front.length = front := by
    rw [hstdin, List.take_left]
  rw [hfront] at hrun hmoved
  refine ⟨w', hrun, ?_, ?_, hbenign, fun hne => hwaits (Or.inr ?_)⟩
  · exact (List.append_cancel_left (hstdin.symm.trans hmoved.stdin)).symm
  · rw [hmoved.crc, crc32ComputeBuf_nil]
  · exact fun hlength => hne (List.length_eq_zero_iff.mp hlength)

/-- The sender gets the code, the checksum and the name out of the message. -/
theorem receiveResult_message {code : UInt32} {crc32 : UInt64}
    {last : Option CString}
    (hlast : ∀ name ∈ last, name.bytes.length < MAX_PATH_LENGTH)
    {w : World Packer} (h : Benign w.outcomes)
    (hstdin : w.stdin = resultMessage code crc32 last) :
    ∃ w', receiveResult.run w =
        .ok (some (⟨code, 0, crc32⟩, shownName last)) w' ∧
      w'.crc32Sum = w.crc32Sum := by
  have hheader : (resultHeaderCodec.put ⟨code, 0, crc32⟩).length =
      resultHeaderCodec.width := resultHeaderCodec.length_put _
  obtain ⟨w₁, hrun₁, hstdin₁, hcrc₁, hbenign₁, hwaits₁⟩ :=
    readAll_front _ _ h hstdin
  rw [hheader] at hrun₁
  have hblocking : w₁.nonblocking = false := by
    refine hwaits₁ fun hnil => ?_
    rw [hnil] at hheader
    exact absurd hheader (by decide)
  rw [receiveResult, EStateM.run_bind, hrun₁]
  simp only [Option.elim_some, Codec.get_put]
  rw [EStateM.run_bind]
  cases last with
  | none =>
      obtain ⟨w₂, hrun₂, hcrc₂⟩ := @readAll_end _ w₁
        resultHeaderExtCodec.width hbenign₁ hstdin₁ hblocking (by decide)
      have hrun₃ : (readAll (min (announcedNamelen none)
          MAX_PATH_LENGTH)).run w₂ = .ok (some []) w₂ := rfl
      rw [readLastFilename_run hrun₂ hrun₃]
      exact ⟨w₂, rfl, hcrc₂.trans hcrc₁⟩
  | some name =>
      have hshort := hlast name rfl
      have hext : (resultHeaderExtCodec.put
          (UInt32.ofNat name.bytes.length)).length =
            resultHeaderExtCodec.width := resultHeaderExtCodec.length_put _
      obtain ⟨w₂, hrun₂, hstdin₂, hcrc₂, hbenign₂, _⟩ :=
        readAll_front _ _ hbenign₁ hstdin₁
      rw [hext] at hrun₂
      have hannounced : min (announcedNamelen (some (resultHeaderExtCodec.put
          (UInt32.ofNat name.bytes.length)))) MAX_PATH_LENGTH =
            name.bytes.length := by
        rw [announcedNamelen, resultHeaderExtCodec.get_put,
          UInt32.toNat_ofNat']
        rw [MAX_PATH_LENGTH] at hshort ⊢
        omega
      obtain ⟨w₃, hrun₃, _, hcrc₃, _, _⟩ := @readAll_front _ w₂ name.bytes []
        hbenign₂ (by rw [hstdin₂, List.append_nil])
      rw [← hannounced] at hrun₃
      have htext : (CString.ofBuffer name.bytes).bytes = name.bytes := by
        have hall : ∀ byte ∈ name.bytes, (byte != 0) = true := by
          intro byte hbyte
          simpa using name.ne_zero_of_mem hbyte
        exact List.takeWhile_eq_self_iff.mpr hall
      rw [readLastFilename_run hrun₂ hrun₃]
      refine ⟨w₃, ?_, hcrc₃.trans (hcrc₂.trans hcrc₁)⟩
      rw [Option.getD_some, htext, sanitizeRemoteFilename_eq]
      rfl

/-! Whatever arrives. -/

/-- A byte of a text that may be shown in quotes. -/
def Harmless (byte : UInt8) : Prop :=
  0x20 ≤ byte ∧ byte ≤ 0x7E ∧ byte ≠ 0x22

theorem harmless_shownByte (byte : UInt8) : Harmless (shownByte byte) := by
  rw [shownByte]
  split
  · exact ⟨by decide, by decide, by decide⟩
  · rename_i h
    obtain ⟨hlow, h⟩ := not_or.mp h
    obtain ⟨hhigh, hquote⟩ := not_or.mp h
    exact ⟨UInt8.not_lt.mp hlow, UInt8.not_lt.mp hhigh, hquote⟩

/-- The text of a message that comes from the remote side. -/
def Message.remoteText : Message → List UInt8
  | .alreadyExists lastFilename => lastFilename
  | .corruptedData lastFilename => lastFilename
  | .forbiddenCharacter lastFilename => lastFilename
  | .brokenLink lastFilename => lastFilename
  | .fileCopy _ lastFilename => lastFilename
  | _ => []

/-- An exit that is not a fault, with no text from the remote side but
harmless text. -/
def HarmlessExit : Exit → Prop
  | .fault _ => False
  | .message message => ∀ byte ∈ message.remoteText, Harmless byte
  | _ => True

theorem judgeResult_harmless (ignoreQuotaError : Bool) (hdr : ResultHeader)
    {lastFilename : List UInt8}
    (htext : ∀ byte ∈ lastFilename, Harmless byte) :
    Triple (fun _ => True) (judgeResult ignoreQuotaError hdr lastFilename)
      (fun _ _ => True) (fun e _ => HarmlessExit e) := by
  have hnone : ∀ byte ∈ ([] : List UInt8), Harmless byte := by simp
  refine .get_bind fun w _ => .ite (fun _ => .ite (fun _ => ?_) fun _ => ?_)
    fun _ => .ite (fun _ => ?_) fun _ => .ite (fun _ => ?_) fun _ =>
      .ite (fun _ => ?_) fun _ => .ite (fun _ => ?_) fun _ =>
        .ite (fun _ => ?_) fun _ => ?_
  · exact .throw fun _ _ => hnone
  · exact .ret fun _ _ => trivial
  · exact .throw fun _ _ => htext
  · exact .throw fun _ _ => htext
  · exact .throw fun _ _ => htext
  · exact .throw fun _ _ => htext
  · exact .ret fun _ _ => trivial
  · exact .throw fun _ _ => htext

theorem waitForResult_harmless (ignoreQuotaError : Bool) {w w' : World Packer}
    {e : Exit}
    (h : (waitForResult ignoreQuotaError).run w = .error e w') :
    HarmlessExit e := by
  obtain ⟨result, w₁, hresult⟩ := readAll_returns w resultHeaderCodec.width
  rw [waitForResult, EStateM.run_bind, hresult] at h
  cases result with
  | none =>
      have hexit : Triple (fun _ => True) (do
          let w ← get
          if w.errno = UInt32.ofNat EAGAIN then pure () else throw (.exit 1) :
            Pack Unit) (fun _ _ => True) (fun e _ => HarmlessExit e) :=
        .get_bind fun _ _ => .ite (fun _ => .ret fun _ _ => trivial)
          fun _ => .throw fun _ _ => trivial
      exact hexit.run_error trivial h
  | some bytes =>
      obtain ⟨name, w₂, hname⟩ := readLastFilename_returns w₁
      simp only at h
      rw [EStateM.run_bind, hname] at h
      simp only at h
      rw [EStateM.run_bind] at h
      refine (judgeResult_harmless ignoreQuotaError
        (resultHeaderCodec.get bytes) ?_).run_error trivial h
      intro byte hbyte
      obtain ⟨original, _, rfl⟩ := List.mem_map.mp hbyte
      exact harmless_shownByte original

/-- What the unpacker writes is what the sender obtains, in any chunks; and
whatever arrives, the buffer is not left and only harmless text is
reported. -/
theorem resultMessage_received (ignoreQuotaError : Bool) (sign : CharSign)
    (lastFilename : List UInt8)
    (hsize : lastFilename.length = MAX_PATH_LENGTH + 1) :
    (∀ (receiver : World Unpacker) (code : UInt32) (last : Option CString),
      Benign receiver.outcomes →
      (∀ name ∈ last, name.bytes.length < MAX_PATH_LENGTH) →
        ∃ receiver',
          (sendStatusAndCrc code last).run receiver = .ok () receiver' ∧
          pipes.sentBy receiver'.trace = pipes.sentBy receiver.trace ++
            resultMessage code receiver.crc32Sum last ∧
          ∀ sender : World Packer, Benign sender.outcomes →
            sender.stdin = resultMessage code receiver.crc32Sum last →
              ∃ sender', receiveResult.run sender = .ok
                  (some (⟨code, 0, receiver.crc32Sum⟩, shownName last))
                  sender' ∧
                sender'.crc32Sum = sender.crc32Sum ∧
                (waitForResultInto ignoreQuotaError sign lastFilename).run
                    sender =
                  (judgeResult ignoreQuotaError
                    ⟨code, 0, receiver.crc32Sum⟩ (shownName last)).run
                      { sender' with errno := code }) ∧
    ∀ (sender sender' : World Packer) (e : Exit),
      (waitForResultInto ignoreQuotaError sign lastFilename).run sender =
        .error e sender' → HarmlessExit e := by
  rw [waitForResultInto_eq ignoreQuotaError sign lastFilename hsize]
  constructor
  · intro receiver code last hreceiver hlast
    obtain ⟨receiver', hrun, hsent⟩ :=
      sendStatusAndCrc_writes code last hreceiver
    refine ⟨receiver', hrun, hsent, ?_⟩
    intro sender hsender hstdin
    obtain ⟨sender', hreceived, hcrc⟩ :=
      receiveResult_message hlast hsender hstdin
    exact ⟨sender', hreceived, hcrc,
      waitForResult_received ignoreQuotaError hreceived⟩
  · exact fun _ _ _ h => waitForResult_harmless ignoreQuotaError h

/-- The name `a"`, which was not to be created. -/
def quotedName : CString := CString.ofBuffer [0x61, 0x22]

/-- The sender to which this was told. -/
def quotedSender : World Packer where
  stdin := resultMessage 84 0 (some quotedName)
  nonblocking := false
  outcomes := []
  errno := 0
  crc32Sum := 0
  trace := []
  statics := ⟨[]⟩

theorem resultMessage_received_quote :
    ∃ sender', receiveResult.run quotedSender =
        .ok (some (⟨84, 0, 0⟩, [0x61, 0x5F])) sender' := by
  have hbenign : Benign [] := fun _ houtcome => absurd houtcome (by simp)
  obtain ⟨_, _, _, hreceived⟩ := (resultMessage_received false .signed
    (List.replicate (MAX_PATH_LENGTH + 1) 0) List.length_replicate).1
    (freshWorld [] false) 84 (some quotedName) hbenign (by decide)
  obtain ⟨sender', hrun, _, _⟩ := hreceived quotedSender hbenign rfl
  exact ⟨sender', hrun⟩

end QubesUtils
