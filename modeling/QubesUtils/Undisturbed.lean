/-
Calls of the receiver in a run of which it may be known that no call fails:
rules that say what holds after a success, and that a failure comes from
somewhere.
-/
import QubesUtils.RefusedEntry
import QubesUtils.Items

namespace QubesUtils

open Hoare Process ByteCodec FileSystem

/-- No call fails. -/
def Undisturbed (outcomes : List Outcome) : Prop :=
  ∀ outcome ∈ outcomes, outcome.error = none ∧ outcome.empty = false

theorem Undisturbed.tail {outcomes : List Outcome} (h : Undisturbed outcomes) :
    Undisturbed outcomes.tail :=
  fun outcome houtcome => h outcome (List.mem_of_mem_tail houtcome)

theorem Undisturbed.head {outcomes : List Outcome} (h : Undisturbed outcomes) :
    (outcomes.headD .plain).error = none ∧
      (outcomes.headD .plain).empty = false := by
  cases outcomes with
  | nil => exact ⟨rfl, rfl⟩
  | cons outcome rest => exact h outcome List.mem_cons_self

/-- A condition on the static variables, with so much of the input left.  If
`calm` holds then no call fails. -/
structure At {σ : Type} (calm : Prop) (P : σ → Prop) (input : List UInt8)
    (w : World σ) : Prop where
  statics : P w.statics
  stdin : w.stdin = input
  undisturbed : calm → Undisturbed w.outcomes

section

variable {σ : Type} {calm : Prop} {P Q : σ → Prop} {input : List UInt8}
  {w : World σ} {E : Exit → World σ → Prop}

theorem At.imp (h : At calm P input w) (hPQ : ∀ u, P u → Q u) :
    At calm Q input w :=
  ⟨hPQ _ h.statics, h.stdin, h.undisturbed⟩

theorem nextOutcome_at :
    Triple (At calm P input) nextOutcome
      (fun outcome w => At calm P input w ∧
        (calm → outcome.error = none ∧ outcome.empty = false)) E :=
  .modifyGet fun _ h => ⟨⟨h.statics, h.stdin, fun hcalm =>
    (h.undisturbed hcalm).tail⟩, fun hcalm => (h.undisturbed hcalm).head⟩

theorem setErrno_at (errno : UInt32) :
    Triple (At calm P input) (setErrno errno)
      (fun _ w => At calm P input w ∧ w.errno = errno) E :=
  .modify fun _ h => ⟨⟨h.statics, h.stdin, h.undisturbed⟩, rfl⟩

theorem emit_at (event : Event) :
    Triple (At calm P input) (emit event) (fun _ => At calm P input) E :=
  .modify fun _ h => ⟨h.statics, h.stdin, h.undisturbed⟩

theorem setBlock_at :
    Triple (At calm P input) setBlock (fun _ => At calm P input) E :=
  .modify fun _ h => ⟨h.statics, h.stdin, h.undisturbed⟩

theorem addCrc_at (data : List UInt8) :
    Triple (At calm P input) (addCrc data) (fun _ => At calm P input) E :=
  .modify fun _ h => ⟨h.statics, h.stdin, h.undisturbed⟩

theorem retryInterrupted_at :
    Triple (At calm P input) retryInterrupted (fun _ => At calm P input) E :=
  .modify fun _ h => ⟨h.statics, h.stdin, fun hcalm outcome houtcome =>
    h.undisturbed hcalm outcome ((List.dropWhile_sublist _).mem houtcome)⟩

/-- A call that has not failed, and is not empty unless it was disturbed. -/
def Attempted (calm : Prop) : Option Outcome → Prop
  | some outcome => calm → outcome.empty = false
  | none => ¬ calm

theorem attempt_at :
    Triple (At calm P input) attempt
      (fun result w => At calm P input w ∧ Attempted calm result) E := by
  refine nextOutcome_at.bind fun outcome => ?_
  cases herror : outcome.error with
  | none => exact .ret fun _ h => ⟨h.1, fun hcalm => (h.2 hcalm).2⟩
  | some errno =>
      refine Triple.assume (fun _ h => h.2) fun hok => ?_
      refine Triple.pre_mono ?_ fun _ h => h.1
      refine (setErrno_at errno.value).bind fun _ => .ret fun _ h => ?_
      refine ⟨h.1, fun hcalm => ?_⟩
      cases (hok hcalm).1

/-! Reading. -/

/-- What a read leaves: some of the input, or nothing was left. -/
def Fetched (calm : Prop) (P : σ → Prop) (input : List UInt8) (count : Nat) :
    ReadResult → World σ → Prop
  | .data bytes, w => 0 < bytes.length ∧ bytes.length ≤ count ∧
      ∃ rest, input = bytes ++ rest ∧ At calm P rest w
  | .eof, _ => calm → input = []
  | .error, _ => calm → input = []

theorem arrive_at {count limit : Nat} (hcount : 0 < count)
    (hlimit : count ≤ limit) :
    Triple (At calm P input) (arrive count) (Fetched calm P input limit)
      E := by
  refine .get_bind fun w hw => ?_
  by_cases hend : w.stdin = []
  · rw [if_pos hend]
    have hnil : input = [] := hw.stdin.symm.trans hend
    refine .ite (fun _ => ?_) fun _ => .ret fun _ _ _ => hnil
    have hset : Triple (· = w) (setErrno (UInt32.ofNat EAGAIN))
        (fun _ _ => True) E := .modify fun _ _ => trivial
    exact hset.bind fun _ => .ret fun _ _ _ => hnil
  · rw [if_neg hend]
    have hdrop : Triple (· = w) (modify fun w : World σ => { w with
        stdin := w.stdin.drop count }) (fun _ => (· = { w with
          stdin := w.stdin.drop count })) E := .modify fun _ h => h ▸ rfl
    refine hdrop.bind fun _ => ?_
    have hemit : Triple (· = { w with stdin := w.stdin.drop count })
        (emit (Event.read (w.stdin.take count)))
        (fun _ => At calm P (input.drop count)) E := by
      refine .modify fun _ h => h ▸ ⟨hw.statics, ?_, hw.undisturbed⟩
      change w.stdin.drop count = _
      rw [hw.stdin]
    refine hemit.bind fun _ => .ret fun _ h => ?_
    have hpos : 0 < w.stdin.length := List.length_pos_iff.mpr hend
    have hlength : (w.stdin.take count).length = min count w.stdin.length :=
      List.length_take
    refine ⟨by omega, by omega, input.drop count, ?_, h⟩
    rw [hw.stdin, List.take_append_drop]

theorem read_at {count : Nat} (hcount : 0 < count) :
    Triple (At calm P input) (read count) (Fetched calm P input count)
      E := by
  refine nextOutcome_at.bind fun outcome => ?_
  cases herror : outcome.error with
  | none =>
      refine Triple.assume (fun _ h => h.2) fun hok => ?_
      refine .ite (fun hempty => .ret fun _ _ hcalm => ?_) fun _ => ?_
      · rw [(hok hcalm).2] at hempty
        cases hempty
      · exact (arrive_at (by omega) (Nat.min_le_left _ _)).pre_mono
          fun _ h => h.1
  | some errno =>
      refine Triple.assume (fun _ h => h.2) fun hok => ?_
      have hnot : ¬ calm := fun hcalm => by cases (hok hcalm).1
      refine .get_bind fun w hw => .ite (fun _ => ?_) fun _ => ?_
      · exact (arrive_at hcount (Nat.le_refl _)).from_state hw.1
      · have hset : Triple (· = w) (setErrno errno.value)
            (fun _ _ => True) E := .modify fun _ _ => trivial
        exact hset.bind fun _ => .ret fun _ _ hcalm => absurd hcalm hnot

/-- What is left when so much is to be read: all of it is there, or the input
is too short. -/
def AllFetched (calm : Prop) (P : σ → Prop) (input : List UInt8)
    (size : Nat) : Option (List UInt8) → World σ → Prop
  | some bytes, w => bytes.length = size ∧
      ∃ rest, input = bytes ++ rest ∧ At calm P rest w
  | none, _ => calm → input.length < size

theorem readAllLoop_at {size : Nat} (fuel : Nat) :
    ∀ (missing : Nat) (got rest : List UInt8), input = got ++ rest →
      missing ≤ fuel → got.length + missing = size →
      Triple (At calm P rest) (readAllLoop fuel missing got)
        (AllFetched calm P input size) E := by
  induction fuel with
  | zero =>
      intro missing got rest hinput hfuel hsize
      exact .ret fun _ h => ⟨by omega, rest, hinput, h⟩
  | succ fuel ih =>
      intro missing got rest hinput hfuel hsize
      refine .ite (fun _ => .ret fun _ h => ⟨by omega, rest, hinput, h⟩)
        fun hmissing => ?_
      refine retryInterrupted_at.bind fun _ => ?_
      refine (read_at (Nat.pos_of_ne_zero hmissing)).bind fun result => ?_
      have hshort : (calm → rest = []) → calm → input.length < size := by
        intro hend hcalm
        rw [hinput, hend hcalm, List.append_nil]
        omega
      cases result with
      | eof =>
          refine Triple.assume (fun _ h => h) fun hend => ?_
          have hset : Triple (Fetched calm P rest missing .eof) (setErrno 0)
              (fun _ _ => True) E := .modify fun _ _ => trivial
          exact hset.bind fun _ => .ret fun _ _ => hshort hend
      | error => exact .ret fun _ h => hshort h
      | data bytes =>
          refine Triple.assume (fun _ h => (⟨h.1, h.2.1⟩ : _ ∧ _))
            fun hbytes => ?_
          refine Triple.pre_mono ?_ fun _ h => h.2.2
          refine Triple.exists_pre fun rest' => ?_
          refine Triple.assume (fun _ h => h.1) fun hrest => ?_
          refine Triple.pre_mono ?_ fun _ h => h.2
          have hblock : Triple (At calm P rest') (blockAfterFirst got)
              (fun _ => At calm P rest') E :=
            .ite (fun _ => setBlock_at) fun _ => .ret fun _ h => h
          refine hblock.bind fun _ => ?_
          refine ih _ _ rest' ?_ (by omega) ?_
          · rw [hinput, hrest, List.append_assoc]
          · rw [List.length_append]
            omega

theorem readAllWithCrc_at (size : Nat) :
    Triple (At calm P input) (readAllWithCrc size)
      (AllFetched calm P input size) E := by
  have hread : Triple (At calm P input) (readAll size)
      (AllFetched calm P input size) E :=
    readAllLoop_at size size [] input rfl (Nat.le_refl _) (Nat.zero_add _)
  refine hread.bind fun result => ?_
  cases result with
  | none => exact .ret fun _ h => h
  | some bytes =>
      refine Triple.assume (fun _ h => h.1) fun hlength => ?_
      refine Triple.pre_mono ?_ fun _ h => h.2
      refine Triple.exists_pre fun rest => ?_
      refine Triple.assume (fun _ h => h.1) fun hinput => ?_
      refine Triple.pre_mono ?_ fun _ h => h.2
      exact (addCrc_at bytes).bind fun _ =>
        .ret fun _ h => ⟨hlength, rest, hinput, h⟩

/-- The state of a copy of which so much has been read and written. -/
def InCopy (calm : Prop) (Q : List UInt8 → σ → Prop) (input got put :
    List UInt8) (w : World σ) : Prop :=
  ∃ rest, input = got ++ rest ∧ At calm (Q put) rest w

/-- A copy has failed: the input is too short, or a write has failed. -/
def CopyFailed (calm : Prop) (input : List UInt8) (size : Nat) :
    CopyStatus → World σ → Prop
  | .writeError, _ => ¬ calm
  | _, _ => calm → input.length < size

theorem copyFile_at {Q : List UInt8 → σ → Prop}
    {write : List UInt8 → Process σ (Option Nat)} (size : Nat)
    (hwrite : ∀ rest put data, data ≠ [] →
      Triple (At calm (Q put) rest) (write data)
        (PartPut (fun put => At calm (Q put) rest) (fun _ => ¬ calm) put data)
        E) :
    Triple (At calm (Q []) input) (copyFile read write size)
      (CopyDone (fun got _ put => InCopy calm Q input got put)
        (CopyFailed calm input size) [] size) E := by
  have hcopy := @copyFileLoop_rule σ E
    (fun got _ put => InCopy calm Q input got put)
    (CopyFailed calm input size) read write size ?_ ?_ ?_ ?_ size size []
    (Nat.le_refl _) (Nat.zero_add _)
  · exact hcopy.pre_mono fun w h => ⟨input, rfl, h⟩
  · intro got count hcount htotal
    refine Triple.exists_pre fun rest => ?_
    refine Triple.assume (fun _ h => h.1) fun hinput => ?_
    refine Triple.pre_mono ?_ fun _ h => h.2
    have hshort : (calm → rest = []) → calm → input.length < size := by
      intro hend hcalm
      rw [hinput, hend hcalm, List.append_nil]
      omega
    refine (read_at hcount).post_mono fun result w h => ?_
    cases result with
    | eof => exact hshort h
    | error => exact hshort h
    | data bytes =>
        obtain ⟨hpos, hle, rest', hrest, hat⟩ := h
        refine ⟨hpos, hle, rest', ?_, hat⟩
        rw [hinput, hrest, List.append_assoc]
  · intro got bytes
    refine .modify fun w h => ?_
    obtain ⟨rest, hinput, hat⟩ := h
    exact ⟨rest, hinput, hat.statics, hat.stdin, hat.undisturbed⟩
  · intro got put
    refine Triple.exists_pre fun rest => ?_
    refine Triple.assume (fun _ h => h.1) fun hinput => ?_
    refine Triple.pre_mono ?_ fun _ h => h.2
    exact retryInterrupted_at.post_mono fun _ _ h => ⟨rest, hinput, h⟩
  · intro got put data hdata
    refine Triple.exists_pre fun rest => ?_
    refine Triple.assume (fun _ h => h.1) fun hinput => ?_
    refine Triple.pre_mono ?_ fun _ h => h.2
    refine (hwrite rest put data hdata).post_mono fun result w h => ?_
    cases result with
    | none => exact h
    | some count => exact ⟨h.1, fun hcount => ⟨rest, hinput, h.2 hcount⟩⟩

end

end QubesUtils
