/-
What becomes of a transfer in which bits are changed on the way: the receiver
may take the wrong bytes, but the sender finds out and says so.
-/
import QubesUtils.RoundTrip
import QubesUtils.Crc32Serial

namespace QubesUtils

open Hoare Fifo Process ByteCodec FileSystem

/-- The sender stops when it is told another checksum than its own. -/
theorem waitForResult_mismatch (ignoreQuotaError : Bool) {w : World Packer}
    {crc : UInt64} {last : Option CString} (hbenign : Benign w.outcomes)
    (hstdin : w.stdin = resultMessage 0 crc last) (hne : crc ≠ w.crc32Sum) :
    ∃ w', (waitForResult ignoreQuotaError).run w =
      .error (.message .checksumMismatch) w' := by
  obtain ⟨w', hrun⟩ :=
    waitForResult_compares ignoreQuotaError hbenign hstdin
  rw [if_pos hne] at hrun
  exact ⟨w', hrun⟩

/-- If the bytes that arrive differ from those that were sent in a burst of at
most 32 bits, then the sender does not return, even if the receiver has taken
them all and found nothing wrong. -/
theorem transfer_corrupted {limits : Limits} {flags : Flags}
    (ignoreQuotaError : Bool) {total : List UInt8} {sender : World Packer}
    (hsender : AllSent total sender) {receiver after : World Unpacker}
    (htrace : receiver.trace = []) (hcalm : Undisturbed receiver.outcomes)
    (hburst : Burst 32 total receiver.stdin)
    (hrun : (doUnpackExt limits flags).run receiver = .ok 0 after)
    (hall : after.stdin = []) :
    ∃ w', (waitForResult ignoreQuotaError).run
        { sender with stdin := pipes.sentBy after.trace } =
      .error (.message .checksumMismatch) w' := by
  obtain ⟨sizes, hsizes⟩ := exists_sizesFound limits flags receiver.started
  obtain ⟨done, st, rest, _, hcame⟩ :=
    doUnpackExt_accepted htrace hcalm hsizes hrun
  obtain ⟨consumed, hconsumed, hcrc⟩ := hcame.crc
  obtain ⟨last, hmessage⟩ := hcame.message
  rw [← hcame.stdin, hall, List.append_nil] at hconsumed
  refine @waitForResult_mismatch ignoreQuotaError
    { sender with stdin := pipes.sentBy after.trace } after.crc32Sum
    (some last) hsender.undisturbed.benign hmessage ?_
  change after.crc32Sum ≠ sender.crc32Sum
  rw [hcrc, hconsumed, hsender.crc]
  exact (crc32ComputeBuf_burst (by decide) hburst).symm

/-- An end marker, and one in which a bit is wrong. -/
def flippedMarker : FileHeader := ⟨0, 1, 0, 0, 0, 0, 0⟩

theorem flippedMarker_burst : Burst 32 (fileHeaderCodec.put endHeader)
    (fileHeaderCodec.put flippedMarker) := by
  refine ⟨List.replicate 32 false, [false], [true], List.replicate 223 false,
    ?_, ?_, rfl, by decide, by decide⟩
  · decide +kernel
  · decide +kernel

/-- A sender of the end marker. -/
def markerSender : World Packer where
  stdin := []
  nonblocking := false
  outcomes := []
  errno := 0
  crc32Sum := crc32ComputeBuf 0 (fileHeaderCodec.put endHeader)
  trace := [.write (fileHeaderCodec.put endHeader)]
  statics := ⟨[]⟩

theorem transfer_corrupted_marker :
    ∃ after, (doUnpackExt noLimits 0).run
        (freshWorld (fileHeaderCodec.put flippedMarker) true) =
          .ok 0 after ∧
      ∃ w', (waitForResult false).run
          { markerSender with stdin := pipes.sentBy after.trace } =
        .error (.message .checksumMismatch) w' := by
  obtain ⟨sizes, hsizes⟩ := exists_sizesFound noLimits 0
    (freshWorld (fileHeaderCodec.put flippedMarker) true).started
  obtain ⟨after, hrun, hcame⟩ := (doUnpackExt_accepts noLimits 0 rfl
    (fun _ h => by cases h) hsizes).2 [] _ [] 
      (.ended (front_marker rfl 0))
  have hsender : AllSent (fileHeaderCodec.put endHeader) markerSender :=
    ⟨rfl, rfl, fun _ h => by cases h⟩
  exact ⟨after, hrun, transfer_corrupted false hsender rfl
    (fun _ h => by cases h) flippedMarker_burst hrun hcame.stdin⟩

end QubesUtils
