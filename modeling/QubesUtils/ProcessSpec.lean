/-
The calls on the pipes leave the static variables alone, and the loops over
them preserve what every call preserves.
-/
import QubesUtils.Process
import QubesUtils.Hoare

namespace QubesUtils

open Hoare Process

namespace Process

variable {σ : Type} {I : World σ → Prop}

/-! Loops. -/

theorem readAllLoop_preserves
    (hretry : Preserves I (retryInterrupted : Process σ Unit))
    (hread : ∀ count, Preserves I (read count : Process σ ReadResult))
    (herrno : ∀ errno, Preserves I (setErrno errno : Process σ Unit))
    (hblock : Preserves I (setBlock : Process σ Unit)) (fuel : Nat) :
    ∀ missing got,
      Preserves I (readAllLoop fuel missing got : Process σ _) := by
  induction fuel with
  | zero => exact fun _ got => .ret _
  | succ fuel ih =>
      intro missing got
      rw [readAllLoop]
      refine .ite (.ret _) (hretry.bind fun _ =>
        (hread _).bind fun result => ?_)
      cases result with
      | eof => exact (herrno 0).bind fun _ => .ret _
      | error => exact .ret _
      | data bytes =>
          have hfirst : Preserves I (blockAfterFirst got : Process σ Unit) :=
            .ite hblock (.ret _)
          exact hfirst.bind fun _ => ih _ _

theorem writeAllLoop_preserves
    {write : List UInt8 → Process σ (Option Nat)}
    (hretry : Preserves I (retryInterrupted : Process σ Unit))
    (hwrite : ∀ data, Preserves I (write data)) (fuel : Nat) :
    ∀ rest, Preserves I (writeAllLoop write fuel rest) := by
  induction fuel with
  | zero => exact fun _ => .ret _
  | succ fuel ih =>
      intro rest
      rw [writeAllLoop]
      refine .ite (.ret _) (hretry.bind fun _ => (hwrite rest).bind
        fun result => ?_)
      cases result with
      | none => exact .ret _
      | some count => exact .ite (.ret _) (ih _)

theorem copyFileLoop_preserves {read : Nat → Process σ ReadResult}
    {write : List UInt8 → Process σ (Option Nat)}
    (hretry : Preserves I (retryInterrupted : Process σ Unit))
    (hread : ∀ count, Preserves I (read count))
    (hcrc : ∀ data, Preserves I (addCrc data : Process σ Unit))
    (hwrite : ∀ data, Preserves I (write data)) (fuel : Nat) :
    ∀ missing, Preserves I (copyFileLoop read write fuel missing) := by
  induction fuel with
  | zero => exact fun _ => .ret _
  | succ fuel ih =>
      intro missing
      rw [copyFileLoop]
      refine .ite (.ret _) ((hread _).bind fun result => ?_)
      cases result with
      | eof => exact .ret _
      | error => exact .ret _
      | data bytes =>
          refine (hcrc bytes).bind fun _ =>
            (writeAllLoop_preserves hretry hwrite _ _).bind fun written => ?_
          exact .ite (ih _) (.ret _)

/-! What a copy reads, sums and writes. -/

section

variable {E : Exit → World σ → Prop}

/-- What is left by a write of a part of the data, or by one that took
nothing. -/
def PartPut (Q : List UInt8 → World σ → Prop) (F : World σ → Prop)
    (put data : List UInt8) : Option Nat → World σ → Prop
  | none, w => F w
  | some count, w => (count = 0 → F w) ∧
      (0 < count → Q (put ++ data.take count) w)

/-- What is left when all of the data has been written, or a write has
failed. -/
def AllPut (Q : List UInt8 → World σ → Prop) (F : World σ → Prop)
    (put data : List UInt8) : Bool → World σ → Prop
  | true, w => Q (put ++ data) w
  | false, w => F w

theorem writeAllLoop_rule {Q : List UInt8 → World σ → Prop}
    {F : World σ → Prop} {write : List UInt8 → Process σ (Option Nat)}
    (hretry : ∀ put, Triple (Q put) retryInterrupted (fun _ => Q put) E)
    (hwrite : ∀ put data, data ≠ [] →
      Triple (Q put) (write data) (PartPut Q F put data) E) (fuel : Nat) :
    ∀ put rest, rest.length ≤ fuel →
      Triple (Q put) (writeAllLoop write fuel rest) (AllPut Q F put rest)
        E := by
  induction fuel with
  | zero =>
      intro put rest hfuel
      rw [List.length_eq_zero_iff.mp (Nat.le_zero.mp hfuel)]
      refine .ret fun w h => ?_
      rw [AllPut, List.append_nil]
      exact h
  | succ fuel ih =>
      intro put rest hfuel
      refine .ite (fun hrest => .ret fun w h => ?_) fun hrest => ?_
      · rw [AllPut, hrest, List.append_nil]
        exact h
      refine (hretry put).bind fun _ => ?_
      refine (hwrite put rest hrest).bind fun result => ?_
      cases result with
      | none => exact .ret fun _ h => h
      | some count =>
          refine .ite (fun hnothing => .ret fun _ h => h.1 hnothing)
            fun hsome => ?_
          have hcount : 0 < count := Nat.pos_of_ne_zero hsome
          have hshort : (rest.drop count).length ≤ fuel := by
            rw [List.length_drop]
            omega
          refine ((ih _ _ hshort).pre_mono fun _ h => h.2 hcount).post_mono
            fun ok w h => ?_
          cases ok with
          | true =>
              rw [AllPut, List.append_assoc, List.take_append_drop] at h
              exact h
          | false => exact h

/-- What is left by a read into the buffer of a copy. -/
def PartGot (R : List UInt8 → List UInt8 → List UInt8 → World σ → Prop)
    (F : CopyStatus → World σ → Prop) (got : List UInt8) (count : Nat) :
    ReadResult → World σ → Prop
  | .data bytes, w => 0 < bytes.length ∧ bytes.length ≤ count ∧
      R (got ++ bytes) got got w
  | .eof, w => F .readEof w
  | .error, w => F .readError w

/-- What a copy leaves: all of the bytes, or a failure. -/
def CopyDone (R : List UInt8 → List UInt8 → List UInt8 → World σ → Prop)
    (F : CopyStatus → World σ → Prop) (got : List UInt8) (missing : Nat) :
    CopyStatus → World σ → Prop
  | .ok, w => ∃ payload : List UInt8, payload.length = missing ∧
      R (got ++ payload) (got ++ payload) (got ++ payload) w
  | .readEof, w => F .readEof w
  | .readError, w => F .readError w
  | .writeError, w => F .writeError w

/-- The rule for copies, for a condition on what has been read, what has been
summed and what has been written. -/
theorem copyFileLoop_rule
    {R : List UInt8 → List UInt8 → List UInt8 → World σ → Prop}
    {F : CopyStatus → World σ → Prop} {read : Nat → Process σ ReadResult}
    {write : List UInt8 → Process σ (Option Nat)} {total : Nat}
    (hread : ∀ got count, 0 < count → got.length + count ≤ total →
      Triple (R got got got) (read count) (PartGot R F got count) E)
    (hcrc : ∀ got bytes, Triple (R (got ++ bytes) got got) (addCrc bytes)
      (fun _ => R (got ++ bytes) (got ++ bytes) got) E)
    (hretry : ∀ got put, Triple (R got got put) retryInterrupted
      (fun _ => R got got put) E)
    (hwrite : ∀ got put data, data ≠ [] → Triple (R got got put)
      (write data) (PartPut (R got got) (F .writeError) put data) E)
    (fuel : Nat) :
    ∀ missing got, missing ≤ fuel → got.length + missing = total →
      Triple (R got got got) (copyFileLoop read write fuel missing)
        (CopyDone R F got missing) E := by
  induction fuel with
  | zero =>
      intro missing got hfuel _
      refine .ret fun w h => ⟨[], (Nat.le_zero.mp hfuel).symm, ?_⟩
      rw [List.append_nil]
      exact h
  | succ fuel ih =>
      intro missing got hfuel htotal
      refine .ite (fun hmissing => .ret fun w h => ⟨[], hmissing.symm, ?_⟩)
        fun hmissing => ?_
      · rw [List.append_nil]
        exact h
      refine (hread got _ (by omega) (by omega)).bind fun result => ?_
      cases result with
      | eof => exact .ret fun _ h => h
      | error => exact .ret fun _ h => h
      | data bytes =>
          refine Triple.assume (fun _ h => (⟨h.1, h.2.1⟩ : _ ∧ _))
            fun hbytes => ?_
          refine Triple.pre_mono ?_ fun _ h => h.2.2
          refine (hcrc got bytes).bind fun _ => ?_
          refine (writeAllLoop_rule (hretry _) (hwrite _) _ got bytes
            (Nat.le_refl _)).bind fun ok => ?_
          refine .ite (fun hok => ?_) fun hok => .ret fun w h => ?_
          · rw [hok]
            have hrest : (got ++ bytes).length + (missing - bytes.length) =
                total := by
              rw [List.length_append]
              omega
            refine (ih (missing - bytes.length) (got ++ bytes) (by omega)
              hrest).post_mono fun status w h => ?_
            cases status with
            | ok =>
                obtain ⟨payload, hlength, hdone⟩ := h
                rw [List.append_assoc] at hdone
                refine ⟨bytes ++ payload, ?_, hdone⟩
                rw [List.length_append, hlength]
                omega
            | readEof => exact h
            | readError => exact h
            | writeError => exact h
          · rw [Bool.eq_false_iff.mpr hok] at h
            exact h

end

/-! Conditions that calls on the pipes keep. -/

/-- The condition looks at the static variables, and at the trace as far as it
has come. -/
class Stable (I : World σ → Prop) : Prop where
  environment : ∀ w outcomes errno nonblocking stdin, I w →
    I { w with outcomes, errno, nonblocking, stdin }
  trace : ∀ w events, I w → I { w with trace := w.trace ++ events }
  crc : ∀ w crc32Sum, I w → I { w with crc32Sum }

/-- The condition looks at the static variables only. -/
def OnStatics (P : σ → Prop) (w : World σ) : Prop := P w.statics

instance (P : σ → Prop) : Stable (OnStatics P) :=
  ⟨fun _ _ _ _ _ h => h, fun _ _ h => h, fun _ _ h => h⟩

/-- The trace has come so far. -/
def Extends (before : List Event) (w : World σ) : Prop :=
  before <+: w.trace

instance (before : List Event) : Stable (Extends before : World σ → Prop) :=
  ⟨fun _ _ _ _ _ h => h,
    fun _ _ h => List.IsPrefix.trans h (List.prefix_append _ _),
    fun _ _ h => h⟩

theorem OnStatics.congr {P : σ → Prop} {w w' : World σ}
    (h : w'.statics = w.statics) (hw : OnStatics P w) : OnStatics P w' := by
  rw [OnStatics, h]
  exact hw

theorem liftFault_preserves {α : Type} (x : Except Fault α) :
    Preserves I (liftFault x : Process σ α) := by
  cases x with
  | ok a => exact .ret a
  | error fault => exact .throw _

variable [Stable I]

theorem nextOutcome_stable {E : Exit → World σ → Prop} :
    Triple I (nextOutcome : Process σ _) (fun _ => I) E :=
  .modifyGet fun w h => Stable.environment w _ w.errno w.nonblocking w.stdin h

theorem setErrno_stable (errno : UInt32) {E : Exit → World σ → Prop} :
    Triple I (setErrno errno : Process σ _) (fun _ => I) E :=
  .modify fun w h =>
    Stable.environment w w.outcomes errno w.nonblocking w.stdin h

theorem emit_stable (event : Event) {E : Exit → World σ → Prop} :
    Triple I (emit event : Process σ _) (fun _ => I) E :=
  .modify fun w h => Stable.trace w [event] h

theorem setBlock_stable {E : Exit → World σ → Prop} :
    Triple I (setBlock : Process σ _) (fun _ => I) E :=
  .modify fun w h => Stable.environment w w.outcomes w.errno false w.stdin h

theorem addCrc_stable (data : List UInt8) {E : Exit → World σ → Prop} :
    Triple I (addCrc data : Process σ _) (fun _ => I) E :=
  .modify fun w h => Stable.crc w _ h

theorem retryInterrupted_stable {E : Exit → World σ → Prop} :
    Triple I (retryInterrupted : Process σ _) (fun _ => I) E :=
  .modify fun w h => Stable.environment w _ _ w.nonblocking w.stdin h

theorem attempt_stable {E : Exit → World σ → Prop} :
    Triple I (attempt : Process σ _) (fun _ => I) E := by
  refine nextOutcome_stable.bind fun outcome => ?_
  cases outcome.error with
  | none => exact .ret fun _ h => h
  | some errno =>
      exact (setErrno_stable _).bind fun _ => .ret fun _ h => h

theorem arrive_stable (count : Nat) :
    Preserves I (arrive count : Process σ ReadResult) := by
  refine .get_bind fun w => .ite (.ite ?_ (.ret _)) ?_
  · exact (setErrno_stable _).bind fun _ => .ret fun _ h => h
  · have hdrop : Preserves I (modify fun w => { w with
        stdin := w.stdin.drop count } : Process σ Unit) :=
      .modify fun w h =>
        Stable.environment w w.outcomes w.errno w.nonblocking _ h
    exact hdrop.bind fun _ => (emit_stable _).bind fun _ => .ret fun _ h => h

theorem read_stable (count : Nat) :
    Preserves I (read count : Process σ ReadResult) := by
  refine nextOutcome_stable.bind fun outcome => ?_
  cases outcome.error with
  | none =>
      exact .ite (fun _ => .ret fun _ h => h) fun _ => arrive_stable _
  | some errno =>
      refine .get_bind fun w hw => .ite (fun _ => ?_) fun _ => ?_
      · exact (arrive_stable _).from_state hw
      · exact ((setErrno_stable _).from_state hw).bind fun _ =>
          .ret fun _ h => h

theorem writeStdout_stable (data : List UInt8) :
    Preserves I (writeStdout data : Process σ _) := by
  refine nextOutcome_stable.bind fun outcome => ?_
  cases outcome.error with
  | none => exact (emit_stable _).bind fun _ => .ret fun _ h => h
  | some errno => exact (setErrno_stable _).bind fun _ => .ret fun _ h => h

theorem readAll_stable (size : Nat) :
    Preserves I (readAll size : Process σ _) :=
  readAllLoop_preserves retryInterrupted_stable read_stable
    (fun errno => setErrno_stable errno) setBlock_stable size size []

theorem readAllWithCrc_stable (size : Nat) :
    Preserves I (readAllWithCrc size : Process σ _) := by
  refine (readAll_stable size).bind fun result => ?_
  cases result with
  | none => exact .ret _
  | some bytes => exact (addCrc_stable _).bind fun _ => .ret fun _ h => h

theorem writeAll_stable (data : List UInt8) :
    Preserves I (writeAll writeStdout data : Process σ Bool) :=
  writeAllLoop_preserves retryInterrupted_stable writeStdout_stable _ _

end Process

end QubesUtils
