/-
A run of the receiver in which no call fails: whether it answers without an
error, what it answers, and what it leaves in the tree, is what the input says.
-/
import QubesUtils.IncomingRun
import QubesUtils.ResultMessage

namespace QubesUtils

open Hoare Fifo Process ByteCodec FileSystem

/-! Behind the loop. -/

/-- Nothing has been sent, there is no error, and no call will fail. -/
structure Settled (crc : UInt64) (w : World Unpacker) : Prop where
  silent : Silent w
  crc32Sum : w.crc32Sum = crc
  errno : w.errno = 0
  undisturbed : Undisturbed w.outcomes

section

variable {crc : UInt64} {E : Exit → World Unpacker → Prop}

theorem attempt_settled :
    Triple (Settled crc) attempt
      (fun result w => result ≠ none ∧ Settled crc w) E := by
  have hnext : Triple (Settled crc) nextOutcome
      (fun outcome w => outcome.error = none ∧ Settled crc w) E :=
    .modifyGet fun _ h => ⟨h.undisturbed.head.1, h.silent, h.crc32Sum,
      h.errno, h.undisturbed.tail⟩
  refine hnext.bind fun outcome => ?_
  apply Triple.assume (fun _ h => h.1)
  intro hok
  rw [hok]
  exact .ret fun _ h => ⟨by simp, h.2⟩

/-- A call that cannot fail. -/
theorem attempt_settled_bind {α : Type} {failed : Unpack α}
    {next : Outcome → Unpack α} {post : α → World Unpacker → Prop}
    (hnext : ∀ outcome, Triple (Settled crc) (next outcome) post E) :
    Triple (Settled crc) (attempt >>= fun result =>
      match result with
      | none => failed
      | some outcome => next outcome) post E := by
  refine attempt_settled.bind fun result => ?_
  cases result with
  | none =>
      apply Triple.assume (fun _ h => h.1)
      exact fun hne => absurd rfl hne
  | some outcome => exact (hnext outcome).pre_mono fun _ h => h.2

theorem syncCwd_settled :
    Triple (Settled crc) (syncCwd 0) (fun _ => Settled crc) E := by
  have hsynced : Triple (Settled crc) (emit .synced)
      (fun _ => Settled crc) E :=
    .modify fun _ h => ⟨silent_synced h.silent rfl, h.crc32Sum, h.errno,
      h.undisturbed⟩
  have hrestored : Triple (Settled crc) (setErrno 0)
      (fun _ => Settled crc) E :=
    .modify fun _ h => ⟨h.silent, h.crc32Sum, rfl, h.undisturbed⟩
  have hsync : Triple (Settled crc) syncfs
      (fun result w => result ≠ none ∧ Settled crc w) E :=
    attempt_settled_bind fun outcome => hsynced.bind fun _ =>
      .ret fun _ h => ⟨by simp, h⟩
  refine attempt_settled_bind fun _ => hsync.bind fun result => ?_
  cases result with
  | none =>
      apply Triple.assume (fun _ h => h.1)
      exact fun hne => absurd rfl hne
  | some _ =>
      apply Triple.pre_mono _ (fun _ h => h.2)
      exact attempt_settled_bind fun _ => hrestored

theorem Undisturbed.benign {outcomes : List Outcome}
    (h : Undisturbed outcomes) : Benign outcomes :=
  fun outcome houtcome => Or.inr (h outcome houtcome)

/-- Behind the end marker the receiver answers that there was no error. -/
theorem finishUnpack_message {w : World Unpacker} (h : Settled crc w) :
    ∃ last after, (finishUnpack true).run w = .ok 0 after ∧
      pipes.sentBy after.trace = resultMessage 0 crc (some last) := by
  have hsettled : Settled crc { w with errno := 0 } :=
    ⟨h.silent, h.crc32Sum, rfl, h.undisturbed⟩
  have hsync := @syncCwd_settled crc (fun _ _ => False) _ hsettled
  have hfinish : (finishUnpack true).run w =
      (syncCwd 0 >>= fun _ => sendLast).run { w with errno := 0 } :=
    finishUnpack_run (by rw [h.errno]; rfl)
  rw [hfinish, EStateM.run_bind]
  cases hrun : (syncCwd 0).run { w with errno := 0 } with
  | error e w₁ =>
      rw [hrun] at hsync
      exact hsync.elim
  | ok _ w₁ =>
      rw [hrun] at hsync
      obtain ⟨after, hsend, hsent⟩ := sendStatusAndCrc_writes 0
        (some w₁.statics.untrustedNamebuf) hsync.undisturbed.benign
      rw [← hsync.errno] at hsend
      refine ⟨w₁.statics.untrustedNamebuf, after, ?_, ?_⟩
      · rw [← hsync.errno]
        exact sendLast_run hsend
      · rw [hsent, hsync.crc32Sum]
        exact congrArg (· ++ _) hsync.silent

end

/-! The whole run. -/

section

variable {limits : Limits} {flags : Flags} {sizes : Nat → UInt64}
  {w : World Unpacker}

theorem front_marker {hdr : FileHeader} (h : hdr.namelen = 0)
    (totalFiles : UInt64) :
    front limits totalFiles (fileHeaderCodec.put hdr) = .ended [] := by
  have hwidth : (fileHeaderCodec.put hdr).length = fileHeaderCodec.width :=
    fileHeaderCodec.length_put _
  rw [front, if_neg (by omega), ← hwidth, List.take_length,
    List.drop_length, fileHeaderCodec.get_put, named, if_pos h]

/-- A header and a name are in front. -/
theorem front_entry {hdr : FileHeader} {name : List UInt8}
    {totalFiles : UInt64} (rest : List UInt8) (hne : name ≠ [])
    (hnamelen : hdr.namelen.toNat = name.length)
    (hshort : name.length ≤ MAX_PATH_LENGTH - 1)
    (hcount : ¬ (limits.filesLimit ≠ 0 ∧
      totalFiles + 1 > limits.filesLimit)) :
    front limits totalFiles (fileHeaderCodec.put hdr ++ name ++ rest) =
      .entry hdr name rest := by
  have hwidth : (fileHeaderCodec.put hdr).length = fileHeaderCodec.width :=
    fileHeaderCodec.length_put _
  have hnonzero : hdr.namelen ≠ 0 := by
    intro hzero
    rw [hzero] at hnamelen
    exact hne (List.length_eq_zero_iff.mp hnamelen.symm)
  rw [front, List.append_assoc, if_neg (by
    rw [List.length_append, hwidth]; omega), ← hwidth, List.take_left,
    List.drop_left, fileHeaderCodec.get_put, named, if_neg hnonzero, if_neg,
    hnamelen, List.take_left, List.drop_left]
  rintro (hover | hlong | hcut)
  · exact hcount hover
  · omega
  · rw [List.length_append] at hcut
    omega

/-- What a run leaves that has received all that is in front of the rest. -/
structure CameWhole (st : Incoming) (rest : List UInt8)
    (w after : World Unpacker) : Prop where
  holds : Holds w.statics.cwd st after.statics
  stdin : after.stdin = rest
  crc : ∃ consumed, consumed ++ rest = w.stdin ∧
    after.crc32Sum = crc32ComputeBuf 0 consumed
  message : ∃ last, pipes.sentBy after.trace =
    resultMessage 0 after.crc32Sum (some last)

theorem doUnpackExt_accepted {after : World Unpacker} (htrace : w.trace = [])
    (hcalm : Undisturbed w.outcomes)
    (hsizes : SizesFound limits flags sizes 0 w.started)
    (hrun : (doUnpackExt limits flags).run w = .ok 0 after) :
    ∃ done st rest, Receives limits flags w.statics.cwd sizes 0
        (.start w.statics.fs) w.stdin done st rest ∧
      CameWhole st rest w after := by
  obtain ⟨_, _, result, hloop, hloopRun⟩ :=
    doUnpackExt_loopRun limits flags htrace
  have hstart : At True (Holds w.statics.cwd (.start w.statics.fs)) w.stdin
      w.started :=
    ⟨(started_at w).statics, rfl, fun _ => hcalm⟩
  have hconcludes := hloop.concludes hstart hsizes
  obtain ⟨done, st, rest, hreceives, hcame⟩ :=
    doUnpackExt_finished htrace hloop hconcludes hrun
  suffices h : after.stdin = rest ∧ ∃ last, pipes.sentBy after.trace =
      resultMessage 0 after.crc32Sum (some last) from
    ⟨done, st, rest, hreceives, hcame.holds, h.1, hcame.crc, h.2⟩
  rw [hloopRun] at hrun
  cases result with
  | error e w₁ => cases hrun
  | ok seen w₁ =>
      cases seen with
      | false =>
          exact absurd ⟨done, st, rest, hreceives⟩ (hconcludes trivial)
      | true =>
          obtain ⟨herrno, _, _, _, hreceives', hat⟩ := hconcludes
          obtain ⟨_, _, rfl⟩ := hreceives.unique hreceives'
          obtain ⟨hsilent, _⟩ := hloop.2.settled
            (hloop.1.steady (started_steady htrace))
          obtain ⟨last, after', hfinish, hsent⟩ := finishUnpack_message
            ⟨hsilent, rfl, herrno, hat.undisturbed trivial⟩
          obtain ⟨hcrc, hstdin⟩ := (finishUnpack_unread true).run_ok
            (⟨rfl, rfl⟩ : Unread w₁.crc32Sum w₁.stdin w₁) hfinish
          rw [afterLoop, hfinish] at hrun
          cases hrun
          exact ⟨hstdin.trans hat.stdin, last, by rw [hsent, hcrc]⟩

/-- A run without failed calls ends without an error if and only if the input
is entries that all come in and the end marker; it answers that with the
checksum of what it has consumed, and the tree is what has come in. -/
theorem doUnpackExt_accepts (limits : Limits) (flags : Flags)
    (htrace : w.trace = []) (hcalm : Undisturbed w.outcomes)
    (hsizes : SizesFound limits flags sizes 0 w.started) :
    ((∃ after, (doUnpackExt limits flags).run w = .ok 0 after) ↔
      Comes limits flags w.statics.cwd sizes 0 (.start w.statics.fs)
        w.stdin) ∧
    ∀ done st rest, Receives limits flags w.statics.cwd sizes 0
        (.start w.statics.fs) w.stdin done st rest →
      ∃ after, (doUnpackExt limits flags).run w = .ok 0 after ∧
        CameWhole st rest w after := by
  have hcomes : Comes limits flags w.statics.cwd sizes 0
      (.start w.statics.fs) w.stdin →
      ∃ after, (doUnpackExt limits flags).run w = .ok 0 after := by
    obtain ⟨_, _, result, hloop, _⟩ := doUnpackExt_loopRun limits flags htrace
    have hstart : At True (Holds w.statics.cwd (.start w.statics.fs)) w.stdin
        w.started :=
      ⟨(started_at w).statics, rfl, fun _ => hcalm⟩
    exact doUnpackExt_finishes htrace hloop (hloop.concludes hstart hsizes)
      trivial
  refine ⟨⟨?_, hcomes⟩, ?_⟩
  · rintro ⟨after, hrun⟩
    obtain ⟨done, st, rest, hreceives, _⟩ :=
      doUnpackExt_accepted htrace hcalm hsizes hrun
    exact ⟨done, st, rest, hreceives⟩
  · intro done st rest hreceives
    obtain ⟨after, hrun⟩ := hcomes ⟨done, st, rest, hreceives⟩
    obtain ⟨done', st', rest', hreceives', haccepted⟩ :=
      doUnpackExt_accepted htrace hcalm hsizes hrun
    obtain ⟨_, rfl, rfl⟩ := hreceives.unique hreceives'
    exact ⟨after, hrun, haccepted⟩

end

/-- What of the nested stream has come in behind two entries. -/
def nestedItems : Items :=
  (emptyFileSystem.items.put [] [0x61] (.dir 0o700 none)).put [[0x61]] [0x62]
    (.file 0o644 ⟨7, 8⟩ [0x68, 0x69])

theorem nestedStream_received (sizes : Nat → UInt64) :
    ∃ done total, Receives noLimits 2#32 [] sizes 0 (.start emptyFileSystem)
      nestedStream done ⟨Function.update nestedItems [[0x61]]
        (some (.dir 0o755 (some ⟨3, 4⟩))), total, 3⟩ [] := by
  have hcount : ∀ totalFiles : UInt64, ¬ (noLimits.filesLimit ≠ 0 ∧
      totalFiles + 1 > noLimits.filesLimit) := fun _ h => h.1 rfl
  have hdir : ∀ size rest, storeEntry noLimits 2#32 [] size
      ⟨emptyFileSystem.items, 0, 1⟩ ⟨2, 0x41ED, 0, 1, 2, 3, 4⟩
      (CString.ofBuffer [0x61, 0]) rest = some (⟨emptyFileSystem.items.put []
        [0x61] (.dir 0o700 none), 0, 1⟩, rest) := by
    intro size rest
    rw [storeEntry_dir (by decide) (by decide)]
    refine storeDir_some (by decide +kernel) (by decide +kernel) ?_
    exact @Incoming.add_free ⟨emptyFileSystem.items, 0, 1⟩ []
      (CString.ofBuffer [0x61, 0]) (.dir 0o700 none) (by decide +kernel)
  have hfile : ∀ size rest, storeEntry noLimits 2#32 [] size
      ⟨emptyFileSystem.items.put [] [0x61] (.dir 0o700 none), 0, 2⟩
      ⟨4, 0x81A4, 2, 5, 6, 7, 8⟩ (CString.ofBuffer [0x61, 0x2F, 0x62, 0])
      ([0x68, 0x69] ++ rest) = some (⟨nestedItems, 2, 2⟩, rest) := by
    intro size rest
    rw [storeEntry_regular (by decide)]
    exact storeFile_some (by decide +kernel) (by decide) rfl rfl (by decide)
      (by decide +kernel)
  have hagain : ∀ size rest, storeEntry noLimits 2#32 [] size
      ⟨nestedItems, 2, 3⟩ ⟨2, 0x41ED, 0, 1, 2, 3, 4⟩
      (CString.ofBuffer [0x61, 0]) rest =
        some (⟨Function.update nestedItems [[0x61]]
          (some (.dir 0o755 (some ⟨3, 4⟩))), 2 + size, 3⟩, rest) := by
    intro size rest
    rw [storeEntry_dir (by decide) (by decide)]
    exact storeDir_some (by decide +kernel) (by decide +kernel) rfl
  exact ⟨_, _,
    .cons (front_entry _ (by decide) rfl (by decide) (hcount _)) (hdir _ _)
      (.cons (front_entry _ (by decide) rfl (by decide) (hcount _)) (hfile _ _)
        (.cons (front_entry _ (by decide) rfl (by decide) (hcount _))
          (hagain _ _) (.ended (front_marker rfl _))))⟩

theorem doUnpackExt_accepts_nested :
    ∃ after, (doUnpackExt noLimits 2#32).run (freshWorld nestedStream true) =
        .ok 0 after ∧
      ∃ total, CameWhole ⟨Function.update nestedItems [[0x61]]
        (some (.dir 0o755 (some ⟨3, 4⟩))), total, 3⟩ []
          (freshWorld nestedStream true) after := by
  obtain ⟨sizes, hsizes⟩ := exists_sizesFound noLimits 2#32
    (freshWorld nestedStream true).started
  obtain ⟨done, total, hreceives⟩ := nestedStream_received sizes
  obtain ⟨after, hrun, hcame⟩ := (doUnpackExt_accepts noLimits 2#32 rfl
    (fun _ h => by cases h) hsizes).2 done _ [] hreceives
  exact ⟨after, hrun, total, hcame⟩

end QubesUtils
