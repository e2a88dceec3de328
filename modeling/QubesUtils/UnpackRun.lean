/-
A whole run of the receiver: passes that come to their end, a last pass that
ends the loop, and the part behind the loop.  Every pass that handles an entry
takes a header from the input, so the loop never runs out of passes.
-/
import QubesUtils.UnpackAnswer

namespace QubesUtils

open Hoare Process ByteCodec

/-! The input. -/

/-- The process has only read. -/
def Steady (w : World Unpacker) : Prop :=
  ∃ input consumed done, OnStream (Reading input consumed consumed done) w

theorem Steady.silent {w : World Unpacker} (h : Steady w) : Silent w := by
  obtain ⟨_, _, _, hreading⟩ := h
  exact hreading.silent

section

variable {limits : Limits} {flags : Flags}

/-- An entry takes its header from the input. -/
theorem startPass_steady {w w' : World Unpacker} {hdr : FileHeader}
    {name : List UInt8} (hw : Steady w)
    (hrun : (startPass limits).run w = .ok (.entry hdr name) w') :
    Steady w' ∧ w'.stdin.length < w.stdin.length := by
  obtain ⟨input, consumed, done, hreading⟩ := hw
  have h := startPass_reading limits w hreading
  rw [hrun] at h
  obtain ⟨_, _, hnext⟩ := h
  refine ⟨⟨_, _, _, hnext⟩, ?_⟩
  have hbefore := congrArg List.length hreading.rest
  have hafter := congrArg List.length hnext.rest
  have hheader := fileHeaderCodec.length_put hdr
  have hwidth : fileHeaderCodec.width = 32 := by decide
  simp only [List.length_append] at hbefore hafter
  omega

/-- The handler takes at most the payload. -/
theorem handleEntry_steady {w w' : World Unpacker} {hdr : FileHeader}
    {name : List UInt8} (hw : Steady w)
    (hrun : (handleEntry limits flags hdr name).run w = .ok () w') :
    Steady w' ∧ w'.stdin.length ≤ w.stdin.length := by
  obtain ⟨input, consumed, done, hreading⟩ := hw
  have h := handleEntry_reading limits flags hdr name w hreading
  rw [hrun] at h
  obtain ⟨payload, _, hnext⟩ := h
  refine ⟨⟨_, _, _, hnext⟩, ?_⟩
  have hbefore := congrArg List.length hreading.rest
  have hafter := congrArg List.length hnext.rest
  simp only [List.length_append] at hbefore hafter
  omega

theorem Passes.steady {w w' : World Unpacker}
    {done : List (FileHeader × List UInt8)}
    (h : Passes limits flags w done w') (hw : Steady w) : Steady w' := by
  induction h with
  | nil w => exact hw
  | cons hstart hentry _ ih =>
      exact ih (handleEntry_steady (startPass_steady hw hstart).1 hentry).1

/-- So many passes lead to one state. -/
theorem Passes.unique {w w₁ w₂ : World Unpacker}
    {done₁ done₂ : List (FileHeader × List UInt8)}
    (h₁ : Passes limits flags w done₁ w₁)
    (h₂ : Passes limits flags w done₂ w₂)
    (hlength : done₁.length = done₂.length) : w₁ = w₂ := by
  induction h₁ generalizing done₂ with
  | nil w =>
      cases h₂ with
      | nil => rfl
      | cons => cases hlength
  | cons hstart hentry _ ih =>
      cases h₂ with
      | nil => cases hlength
      | cons hstart' hentry' hrest =>
          rw [hstart] at hstart'
          cases hstart'
          rw [hentry] at hentry'
          cases hentry'
          exact ih hrest (Nat.succ.inj hlength)

/-! Runs of the loop. -/

/-- A pass that ends the loop, and what the loop makes of it. -/
inductive LastPass (limits : Limits) (flags : Flags) (w : World Unpacker) :
    EStateM.Result Exit (World Unpacker) Bool → Prop
  | ended {seen : Bool} {w' : World Unpacker}
      (hstart : (startPass limits).run w = .ok (.ended seen) w') :
      LastPass limits flags w (.ok seen w')
  | refused {e : Exit} {w' : World Unpacker}
      (hstart : (startPass limits).run w = .error e w') :
      LastPass limits flags w (.error e w')
  | stopped {hdr : FileHeader} {name : List UInt8} {e : Exit}
      {w₁ w' : World Unpacker}
      (hstart : (startPass limits).run w = .ok (.entry hdr name) w₁)
      (hentry : (handleEntry limits flags hdr name).run w₁ = .error e w') :
      LastPass limits flags w (.error e w')

theorem LastPass.unique {w : World Unpacker}
    {left right : EStateM.Result Exit (World Unpacker) Bool}
    (hleft : LastPass limits flags w left)
    (hright : LastPass limits flags w right) : left = right := by
  cases hleft with
  | ended hstart =>
      cases hright with
      | ended hstart' =>
          rw [hstart] at hstart'
          cases hstart'
          rfl
      | refused hstart' =>
          rw [hstart] at hstart'
          cases hstart'
      | stopped hstart' _ =>
          rw [hstart] at hstart'
          cases hstart'
  | refused hstart =>
      cases hright with
      | ended hstart' =>
          rw [hstart] at hstart'
          cases hstart'
      | refused hstart' =>
          rw [hstart] at hstart'
          cases hstart'
          rfl
      | stopped hstart' _ =>
          rw [hstart] at hstart'
          cases hstart'
  | stopped hstart hentry =>
      cases hright with
      | ended hstart' =>
          rw [hstart] at hstart'
          cases hstart'
      | refused hstart' =>
          rw [hstart] at hstart'
          cases hstart'
      | stopped hstart' hentry' =>
          rw [hstart] at hstart'
          cases hstart'
          rw [hentry] at hentry'
          cases hentry'
          rfl

/-- Nothing has been written when the loop ends. -/
theorem LastPass.settled {w w' : World Unpacker} {seen : Bool}
    (h : LastPass limits flags w (.ok seen w')) (hw : Steady w) :
    Silent w' ∧ (seen = true → w'.errno = 0) := by
  obtain ⟨input, consumed, done, hreading⟩ := hw
  cases h with
  | ended hstart =>
      have hstarted := (startPass_reading limits).run_ok hreading hstart
      cases seen with
      | true =>
          obtain ⟨herrno, marker, _, _, hreading'⟩ := hstarted
          exact ⟨hreading'.silent, fun _ => herrno⟩
      | false => exact ⟨hstarted, fun h => by cases h⟩

/-- A last pass does not come to the end of an entry. -/
theorem LastPass.not_cons {w w₁ w₂ : World Unpacker} {hdr : FileHeader}
    {name : List UInt8}
    {result : EStateM.Result Exit (World Unpacker) Bool}
    (h : LastPass limits flags w result)
    (hstart : (startPass limits).run w = .ok (.entry hdr name) w₁)
    (hentry : (handleEntry limits flags hdr name).run w₁ = .ok () w₂) :
    False := by
  cases h with
  | ended hstart' =>
      rw [hstart] at hstart'
      cases hstart'
  | refused hstart' =>
      rw [hstart] at hstart'
      cases hstart'
  | stopped hstart' hentry' =>
      rw [hstart] at hstart'
      cases hstart'
      rw [hentry] at hentry'
      cases hentry'

/-- The passes of a run of the loop, up to the last one. -/
def LoopRun (limits : Limits) (flags : Flags) (w : World Unpacker)
    (done : List (FileHeader × List UInt8)) (last : World Unpacker)
    (result : EStateM.Result Exit (World Unpacker) Bool) : Prop :=
  Passes limits flags w done last ∧ LastPass limits flags last result

/-- Passes from one state are the beginning of the run from it. -/
theorem LoopRun.prefix {w last w' : World Unpacker}
    {done front : List (FileHeader × List UInt8)}
    {result : EStateM.Result Exit (World Unpacker) Bool}
    (h : LoopRun limits flags w done last result)
    (hfront : Passes limits flags w front w') :
    ∃ rest, done = front ++ rest ∧
      LoopRun limits flags w' rest last result := by
  induction hfront generalizing done with
  | nil w => exact ⟨done, rfl, h⟩
  | cons hstart hentry _ ih =>
      obtain ⟨hpasses, hlast⟩ := h
      cases hpasses with
      | nil => exact (hlast.not_cons hstart hentry).elim
      | cons hstart' hentry' hrest =>
          rw [hstart] at hstart'
          cases hstart'
          rw [hentry] at hentry'
          cases hentry'
          obtain ⟨rest, rfl, hrun⟩ := ih ⟨hrest, hlast⟩
          exact ⟨rest, rfl, hrun⟩

theorem LoopRun.unique {w last last' : World Unpacker}
    {done done' : List (FileHeader × List UInt8)}
    {result result' : EStateM.Result Exit (World Unpacker) Bool}
    (h : LoopRun limits flags w done last result)
    (h' : LoopRun limits flags w done' last' result') : result = result' := by
  obtain ⟨rest, _, hpasses, hlast⟩ := h.prefix h'.1
  cases hpasses with
  | nil => exact hlast.unique h'.2
  | cons hstart hentry _ => exact (h'.2.not_cons hstart hentry).elim

/-- Every run of the loop is one, when it may make a pass for each byte. -/
theorem unpackLoop_loopRun (fuel : Nat) :
    ∀ w, Steady w → w.stdin.length < fuel → ∃ done last,
      LoopRun limits flags w done last
        ((unpackLoop limits flags fuel).run w) := by
  induction fuel with
  | zero => exact fun w _ hfuel => absurd hfuel (Nat.not_lt_zero _)
  | succ fuel ih =>
      intro w hw hfuel
      rw [unpackLoop_succ, EStateM.run_bind]
      cases hstart : (startPass limits).run w with
      | error e w₁ => exact ⟨[], w, .nil w, .refused hstart⟩
      | ok start w₁ =>
          cases start with
          | ended seen => exact ⟨[], w, .nil w, .ended hstart⟩
          | entry hdr name =>
              obtain ⟨hsteady, hshorter⟩ := startPass_steady hw hstart
              simp only [finishPass, EStateM.run_bind]
              cases hentry : (handleEntry limits flags hdr name).run w₁ with
              | error e w₂ =>
                  exact ⟨[], w, .nil w, .stopped hstart hentry⟩
              | ok _ w₂ =>
                  obtain ⟨hsteady', hnotLonger⟩ :=
                    handleEntry_steady hsteady hentry
                  obtain ⟨done, last, hpasses, hlast⟩ :=
                    ih w₂ hsteady' (by omega)
                  exact ⟨_, last, .cons hstart hentry hpasses, hlast⟩

end

/-! The whole run. -/

/-- The counters and the checksum are zero. -/
def World.started (w : World Unpacker) : World Unpacker :=
  { w with
    crc32Sum := 0
    statics := { w.statics with totalBytes := 0, totalFiles := 0 } }

/-- The part of `do_unpack_ext` behind the loop. -/
def finishUnpack (endOfTransferMarkerSeen : Bool) : Unpack UInt32 := do
  let w ← get
  let savedErrno := if endOfTransferMarkerSeen = false ∧ w.errno = 0
    then UInt32.ofNat EREMOTEIO else w.errno
  setErrno savedErrno
  syncCwd savedErrno
  let w ← get
  sendStatusAndCrc w.errno (some w.statics.untrustedNamebuf)
  return w.errno

theorem started_reading {w : World Unpacker} (htrace : w.trace = []) :
    OnStream (Reading w.stdin [] [] []) w.started := by
  refine ⟨?_, ?_, ?_, rfl, (crc32ComputeBuf_nil 0).symm⟩
  · exact congrArg pipes.sentBy htrace
  · exact congrArg pipes.receivedBy htrace
  · exact congrArg finishedBy htrace

theorem started_steady {w : World Unpacker} (htrace : w.trace = []) :
    Steady w.started :=
  ⟨_, _, _, started_reading htrace⟩

/-- A run is a run of the loop with what is behind it. -/
theorem doUnpackExt_run (limits : Limits) (flags : Flags)
    (w : World Unpacker) : (doUnpackExt limits flags).run w =
      (unpackLoop limits flags (w.stdin.length + 1) >>= finishUnpack).run
        w.started :=
  rfl

/-- What the run makes of what the loop has come to. -/
def afterLoop : EStateM.Result Exit (World Unpacker) Bool →
    EStateM.Result Exit (World Unpacker) UInt32
  | .ok seen w => (finishUnpack seen).run w
  | .error e w => .error e w

/-- A run is a run of the loop, and the part behind it unless the loop has
made the process exit. -/
theorem doUnpackExt_loopRun (limits : Limits) (flags : Flags)
    {w : World Unpacker} (htrace : w.trace = []) :
    ∃ done last result, LoopRun limits flags w.started done last result ∧
      (doUnpackExt limits flags).run w = afterLoop result := by
  obtain ⟨done, last, hrun⟩ := @unpackLoop_loopRun limits flags
    (w.stdin.length + 1) w.started (started_steady htrace)
    (Nat.lt_succ_self _)
  refine ⟨done, last, _, hrun, ?_⟩
  rw [doUnpackExt_run, EStateM.run_bind]
  cases (unpackLoop limits flags (w.stdin.length + 1)).run w.started with
  | ok seen w' => rfl
  | error e w' => rfl

/-- The passes of a run are those of the loop. -/
theorem LoopRun.loop {limits : Limits} {flags : Flags}
    {w last : World Unpacker} {done : List (FileHeader × List UInt8)}
    {result : EStateM.Result Exit (World Unpacker) Bool}
    (h : LoopRun limits flags w.started done last result)
    (htrace : w.trace = []) :
    (unpackLoop limits flags (w.stdin.length + 1)).run w.started = result := by
  obtain ⟨_, _, hloop⟩ := @unpackLoop_loopRun limits flags
    (w.stdin.length + 1) w.started (started_steady htrace)
    (Nat.lt_succ_self _)
  exact hloop.unique h

theorem LoopRun.run {limits : Limits} {flags : Flags}
    {w last : World Unpacker} {done : List (FileHeader × List UInt8)}
    {result : EStateM.Result Exit (World Unpacker) Bool}
    (h : LoopRun limits flags w.started done last result)
    (htrace : w.trace = []) :
    (doUnpackExt limits flags).run w = afterLoop result := by
  obtain ⟨_, _, _, hloop, hrun⟩ := doUnpackExt_loopRun limits flags htrace
  rw [hrun, hloop.unique h]

/-- A last pass that ends the process is the end of the run. -/
theorem doUnpackExt_lastPass {limits : Limits} {flags : Flags}
    {w last w' : World Unpacker} {done : List (FileHeader × List UInt8)}
    {e : Exit} (htrace : w.trace = [])
    (hpasses : Passes limits flags w.started done last)
    (hlast : LastPass limits flags last (.error e w')) :
    (doUnpackExt limits flags).run w = .error e w' :=
  LoopRun.run ⟨hpasses, hlast⟩ htrace

end QubesUtils
