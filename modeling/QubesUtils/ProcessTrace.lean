/-
What a process reads and writes: the trace, the input that is left and the
checksum, through the loops of `ioall.c` and `copy-file.c`.
-/
import QubesUtils.ProcessSpec
import QubesUtils.Fifo

namespace QubesUtils

open Hoare Fifo

def Event.sent : Event → List UInt8
  | .write data => data
  | _ => []

def Event.received : Event → List UInt8
  | .read data => data
  | _ => []

def Event.finished : Event → List (FileHeader × List UInt8)
  | .processed header name => [(header, name)]
  | _ => []

/-- The two pipes of a process. -/
def pipes : Port Event UInt8 := ⟨Event.sent, Event.received⟩

/-- The entries that have been processed. -/
def finishedBy (trace : List Event) : List (FileHeader × List UInt8) :=
  trace.flatMap Event.finished

@[simp] theorem finishedBy_append (left right : List Event) :
    finishedBy (left ++ right) = finishedBy left ++ finishedBy right :=
  List.flatMap_append

@[simp] theorem sentBy_singleton (event : Event) :
    pipes.sentBy [event] = event.sent :=
  List.flatMap_singleton ..

@[simp] theorem receivedBy_singleton (event : Event) :
    pipes.receivedBy [event] = event.received :=
  List.flatMap_singleton ..

@[simp] theorem finishedBy_singleton (event : Event) :
    finishedBy [event] = event.finished :=
  List.flatMap_singleton ..

/-- Nothing but writes. -/
def OnlyWrites (trace : List Event) : Prop :=
  ∀ event ∈ trace, ∃ data, event = .write data

theorem onlyWrites_nil : OnlyWrites [] :=
  fun _ h => by cases h

theorem OnlyWrites.append {left right : List Event} (hleft : OnlyWrites left)
    (hright : OnlyWrites right) : OnlyWrites (left ++ right) := by
  intro event hevent
  rcases List.mem_append.mp hevent with h | h
  · exact hleft event h
  · exact hright event h

theorem OnlyWrites.receivedBy {trace : List Event} (h : OnlyWrites trace) :
    pipes.receivedBy trace = [] := by
  refine List.flatMap_eq_nil_iff.mpr fun event hevent => ?_
  obtain ⟨data, rfl⟩ := h event hevent
  rfl

theorem OnlyWrites.finishedBy {trace : List Event} (h : OnlyWrites trace) :
    QubesUtils.finishedBy trace = [] := by
  refine List.flatMap_eq_nil_iff.mpr fun event hevent => ?_
  obtain ⟨data, rfl⟩ := h event hevent
  rfl

namespace Process

variable {σ : Type} {E : Exit → World σ → Prop}

/-- The condition looks at the trace, the checksum and the input only. -/
def OnStream (P : List Event → UInt64 → List UInt8 → Prop) (w : World σ) :
    Prop :=
  P w.trace w.crc32Sum w.stdin

section

variable {P : List Event → UInt64 → List UInt8 → Prop}

theorem setErrno_stream (errno : UInt32) :
    Triple (OnStream P) (setErrno errno : Process σ _)
      (fun _ w => OnStream P w ∧ w.errno = errno) E :=
  .modify fun _ h => ⟨h, rfl⟩

theorem setBlock_stream :
    Triple (OnStream P) (setBlock : Process σ _) (fun _ => OnStream P) E :=
  .modify fun _ h => h

theorem nextOutcome_stream :
    Triple (OnStream P) (nextOutcome : Process σ _)
      (fun _ => OnStream P) E :=
  .modifyGet fun _ h => h

theorem retryInterrupted_stream :
    Triple (OnStream P) (retryInterrupted : Process σ _)
      (fun _ => OnStream P) E :=
  .modify fun _ h => h

/-- The condition, and an error if there is no result. -/
def OrErrno {α : Type} (P : World σ → Prop) (result : Option α)
    (w : World σ) : Prop :=
  P w ∧ (result = none → w.errno ≠ 0)

theorem attempt_stream :
    Triple (OnStream P) (attempt : Process σ _) (OrErrno (OnStream P)) E := by
  refine nextOutcome_stream.bind fun outcome => ?_
  cases outcome.error with
  | none => exact .ret fun _ h => ⟨h, fun h => by cases h⟩
  | some errno =>
      refine (setErrno_stream errno.value).bind fun _ => .ret fun w h => ?_
      exact ⟨h.1, fun _ => h.2 ▸ errno.ne_zero⟩

end

/-! Reading. -/

/-- The process has only read: so much of its input, of which so much is in
the checksum. -/
structure Reading (input consumed summed : List UInt8)
    (done : List (FileHeader × List UInt8)) (trace : List Event)
    (crc : UInt64) (stdin : List UInt8) : Prop where
  silent : pipes.sentBy trace = []
  received : pipes.receivedBy trace = consumed
  finished : finishedBy trace = done
  rest : consumed ++ stdin = input
  crc : crc = crc32ComputeBuf 0 summed

/-- The process has not written. -/
def Silent (w : World σ) : Prop := pipes.sentBy w.trace = []

variable {input consumed summed : List UInt8}
  {done : List (FileHeader × List UInt8)}

/-- What a `read` leaves. -/
def Arrived (input consumed summed : List UInt8)
    (done : List (FileHeader × List UInt8)) (count : Nat) :
    ReadResult → World σ → Prop
  | .data bytes, w => 0 < bytes.length ∧ bytes.length ≤ count ∧
      OnStream (Reading input (consumed ++ bytes) summed done) w
  | .eof, w => Silent w
  | .error, w => Silent w ∧ w.errno ≠ 0

theorem arrive_reading {count : Nat} (hcount : 0 < count) :
    Triple (OnStream (Reading input consumed summed done))
      (arrive count : Process σ _)
      (Arrived input consumed summed done count) E := by
  refine .get_bind fun w hw => .ite (fun _ => .ite (fun _ => ?_) fun _ => ?_)
    fun hstdin => ?_
  · refine ((setErrno_stream _).from_state hw).bind fun _ => .ret ?_
    exact fun w' h => ⟨h.1.silent, h.2 ▸ by decide⟩
  · exact .ret fun _ h => h ▸ hw.silent
  · intro w' h
    subst h
    have hlength : 0 < w'.stdin.length := List.length_pos_iff.mpr hstdin
    refine ⟨?_, ?_, ?_⟩
    · rw [List.length_take]
      omega
    · rw [List.length_take]
      omega
    · refine ⟨?_, ?_, ?_, ?_, hw.crc⟩
      · change pipes.sentBy (w'.trace ++ [_]) = []
        rw [Port.sentBy_append, hw.silent]
        rfl
      · change pipes.receivedBy (w'.trace ++ [_]) = _
        rw [Port.receivedBy_append, hw.received, receivedBy_singleton]
        rfl
      · change finishedBy (w'.trace ++ [_]) = _
        rw [finishedBy_append, hw.finished, finishedBy_singleton]
        exact List.append_nil _
      · change consumed ++ _ ++ w'.stdin.drop count = _
        rw [List.append_assoc, List.take_append_drop, hw.rest]

theorem Arrived.mono {count limit : Nat} (h : count ≤ limit)
    {result : ReadResult} {w : World σ}
    (hw : Arrived input consumed summed done count result w) :
    Arrived input consumed summed done limit result w := by
  cases result with
  | data bytes => exact ⟨hw.1, Nat.le_trans hw.2.1 h, hw.2.2⟩
  | eof => exact hw
  | error => exact hw

theorem read_reading {count : Nat} (hcount : 0 < count) :
    Triple (OnStream (Reading input consumed summed done))
      (read count : Process σ _)
      (Arrived input consumed summed done count) E := by
  refine nextOutcome_stream.bind fun outcome => ?_
  cases outcome.error with
  | none =>
      refine .ite (fun _ => .ret fun _ h => h.silent) fun _ => ?_
      exact (arrive_reading (by omega)).post_mono
        fun _ _ h => h.mono (Nat.min_le_left _ _)
  | some errno =>
      refine .get_bind fun w hw => .ite (fun _ => ?_) fun _ => ?_
      · exact (arrive_reading hcount).from_state hw
      · refine ((setErrno_stream _).from_state hw).bind fun _ => .ret ?_
        exact fun w' h => ⟨h.1.silent, h.2 ▸ errno.ne_zero⟩

theorem blockAfterFirst_stream
    {P : List Event → UInt64 → List UInt8 → Prop} (got : List UInt8) :
    Triple (OnStream P) (blockAfterFirst got : Process σ _)
      (fun _ => OnStream P) E :=
  .ite (fun _ => setBlock_stream) fun _ => .ret fun _ h => h

/-- What `read_all` leaves: all the bytes, or none that are of use. -/
def AllRead (input consumed summed : List UInt8)
    (done : List (FileHeader × List UInt8)) (size : Nat)
    (got : List UInt8) : Option (List UInt8) → World σ → Prop
  | some all, w => ∃ bytes, all = got ++ bytes ∧ bytes.length = size ∧
      OnStream (Reading input (consumed ++ bytes) summed done) w
  | none, w => Silent w

theorem readAllLoop_reading (fuel : Nat) :
    ∀ missing got consumed, missing ≤ fuel →
      Triple (OnStream (Reading input consumed summed done))
        (readAllLoop fuel missing got : Process σ _)
        (AllRead input consumed summed done missing got) E := by
  induction fuel with
  | zero =>
      intro missing got consumed hfuel
      refine .ret fun w h => ⟨[], ?_, ?_, ?_⟩
      · rw [List.append_nil]
      · rw [List.length_nil]
        omega
      · rw [List.append_nil]
        exact h
  | succ fuel ih =>
      intro missing got consumed hfuel
      refine .ite (fun hmissing => .ret fun w h => ⟨[], ?_, ?_, ?_⟩)
        fun hmissing => ?_
      · rw [List.append_nil]
      · rw [hmissing, List.length_nil]
      · rw [List.append_nil]
        exact h
      refine retryInterrupted_stream.bind fun _ => ?_
      refine (read_reading (by omega)).bind fun result => ?_
      cases result with
      | eof =>
          have hset : Triple Silent (setErrno 0 : Process σ _)
              (fun _ => Silent) E := .modify fun _ h => h
          exact hset.bind fun _ => .ret fun _ h => h
      | error => exact .ret fun _ h => h.1
      | data bytes =>
          refine Triple.assume (fun _ h => (⟨h.1, h.2.1⟩ : _ ∧ _))
            fun hbytes => ?_
          refine Triple.pre_mono ?_ fun _ h => h.2.2
          refine (blockAfterFirst_stream got).bind fun _ => ?_
          refine (ih (missing - bytes.length) (got ++ bytes)
            (consumed ++ bytes) (by omega)).post_mono fun all w h => ?_
          cases all with
          | none => exact h
          | some all =>
              obtain ⟨more, hall, hlength, hreading⟩ := h
              refine ⟨bytes ++ more, ?_, ?_, ?_⟩
              · rw [hall, List.append_assoc]
              · rw [List.length_append, hlength]
                omega
              · rw [← List.append_assoc]
                exact hreading

theorem readAll_reading (size : Nat) :
    Triple (OnStream (Reading input consumed summed done))
      (readAll size : Process σ _)
      (AllRead input consumed summed done size []) E :=
  readAllLoop_reading size size [] consumed (Nat.le_refl size)

theorem addCrc_reading (data : List UInt8) :
    Triple (OnStream (Reading input consumed summed done))
      (addCrc data : Process σ _)
      (fun _ => OnStream (Reading input consumed (summed ++ data) done)) E :=
  .modify fun _ h => ⟨h.silent, h.received, h.finished, h.rest, by
    rw [crc32ComputeBuf_append, ← h.crc]⟩

/-- What `read_all_with_crc` leaves. -/
def AllReadWithCrc (input consumed : List UInt8)
    (done : List (FileHeader × List UInt8)) (size : Nat) :
    Option (List UInt8) → World σ → Prop
  | some bytes, w => bytes.length = size ∧
      OnStream (Reading input (consumed ++ bytes) (consumed ++ bytes) done) w
  | none, w => Silent w

theorem readAllWithCrc_reading (size : Nat) :
    Triple (OnStream (Reading input consumed consumed done))
      (readAllWithCrc size : Process σ _)
      (AllReadWithCrc input consumed done size) E := by
  refine (readAll_reading size).bind fun result => ?_
  cases result with
  | none => exact .ret fun _ h => h
  | some all =>
      refine Triple.exists_pre fun bytes => ?_
      refine Triple.assume (fun _ h => (⟨h.1, h.2.1⟩ : _ ∧ _)) ?_
      rintro ⟨rfl, hlength⟩
      refine Triple.pre_mono ?_ fun _ h => h.2.2
      exact (addCrc_reading _).bind fun _ => .ret fun _ h => ⟨hlength, h⟩

/-! Listening, for a process that may have written. -/

/-- The process has read on. -/
structure Heard (w₀ : World σ) (got : List UInt8) (w : World σ) : Prop where
  reads : ∃ events, w.trace = w₀.trace ++ events ∧
    pipes.sentBy events = [] ∧ pipes.receivedBy events = got
  crc : w.crc32Sum = w₀.crc32Sum

/-- The process has read on, and waits for more from the first byte on. -/
structure Listening (w₀ : World σ) (got : List UInt8) (w : World σ) :
    Prop extends Heard w₀ got w where
  waits : got ≠ [] ∨ w₀.nonblocking = false → w.nonblocking = false

theorem Listening.start (w : World σ) : Listening w [] w where
  reads := ⟨[], (List.append_nil _).symm, rfl, rfl⟩
  crc := rfl
  waits h := h.resolve_left fun h => h rfl

/-- A read that fails with `EAGAIN` is the first one, on a pipe that does not
wait. -/
def TriedLater (w₀ : World σ) (got : List UInt8) (w : World σ) : Prop :=
  Heard w₀ got w ∧
    (w.errno = UInt32.ofNat EAGAIN → got = [] ∧ w₀.nonblocking = true)

/-- What a `read` leaves. -/
def MoreHeard (w₀ : World σ) (got : List UInt8) (count : Nat) :
    ReadResult → World σ → Prop
  | .data bytes, w => 0 < bytes.length ∧ bytes.length ≤ count ∧
      Heard w₀ (got ++ bytes) w ∧
        (got ≠ [] ∨ w₀.nonblocking = false → w.nonblocking = false)
  | .eof, w => Heard w₀ got w
  | .error, w => TriedLater w₀ got w

variable {w₀ : World σ} {got : List UInt8}

theorem Listening.triedLater {w w' : World σ} (h : Listening w₀ got w)
    (hnonblocking : w.nonblocking = true)
    (htrace : w'.trace = w.trace) (hcrc : w'.crc32Sum = w.crc32Sum) :
    TriedLater w₀ got w' := by
  have hnot : ¬ (got ≠ [] ∨ w₀.nonblocking = false) := by
    intro hwaits
    rw [h.waits hwaits] at hnonblocking
    cases hnonblocking
  obtain ⟨hgot, hblocking⟩ := not_or.mp hnot
  refine ⟨⟨?_, hcrc.trans h.crc⟩, fun _ => ⟨not_not.mp hgot,
    eq_true_of_ne_false hblocking⟩⟩
  rw [htrace]
  exact h.reads

theorem arrive_heard {count : Nat} (hcount : 0 < count) :
    Triple (Listening w₀ got) (arrive count)
      (MoreHeard w₀ got count) E := by
  refine .get_bind fun w hw => .ite (fun _ => .ite (fun hnonblocking => ?_)
    fun _ => ?_) fun hstdin => ?_
  · intro w' h
    subst h
    exact hw.triedLater hnonblocking rfl rfl
  · exact .ret fun _ h => h ▸ hw.toHeard
  · intro w' h
    subst h
    have hlength : 0 < w'.stdin.length := List.length_pos_iff.mpr hstdin
    obtain ⟨events, htrace, hsent, hreceived⟩ := hw.reads
    refine ⟨?_, ?_, ⟨⟨events ++ [.read (w'.stdin.take count)], ?_, ?_, ?_⟩,
      hw.crc⟩, hw.waits⟩
    · rw [List.length_take]
      omega
    · rw [List.length_take]
      omega
    · change w'.trace ++ _ = _
      rw [htrace, List.append_assoc]
    · rw [Port.sentBy_append, hsent]
      rfl
    · rw [Port.receivedBy_append, hreceived, receivedBy_singleton]
      rfl

theorem MoreHeard.mono {count limit : Nat} (h : count ≤ limit)
    {result : ReadResult} {w : World σ} (hw : MoreHeard w₀ got count result w) :
    MoreHeard w₀ got limit result w := by
  cases result with
  | data bytes => exact ⟨hw.1, Nat.le_trans hw.2.1 h, hw.2.2⟩
  | eof => exact hw
  | error => exact hw

theorem read_heard {count : Nat} (hcount : 0 < count) :
    Triple (Listening w₀ got) (read count) (MoreHeard w₀ got count) E := by
  have hnext : Triple (Listening w₀ got) nextOutcome
      (fun _ => Listening w₀ got) E :=
    .modifyGet fun w h => ⟨⟨h.reads, h.crc⟩, h.waits⟩
  refine hnext.bind fun outcome => ?_
  cases outcome.error with
  | none =>
      refine .ite (fun _ => .ret fun _ h => h.toHeard) fun _ => ?_
      exact (arrive_heard (by omega)).post_mono
        fun _ _ h => h.mono (Nat.min_le_left _ _)
  | some errno =>
      refine .get_bind fun w hw => .ite (fun _ => ?_) fun hother => ?_
      · exact (arrive_heard hcount).from_state hw
      · intro w' h
        subst h
        by_cases hnonblocking : w'.nonblocking = true
        · exact hw.triedLater hnonblocking rfl rfl
        · refine ⟨⟨hw.reads, hw.crc⟩, fun herrno => absurd ⟨?_,
            Bool.eq_false_iff.mpr hnonblocking⟩ hother⟩
          have hvalue : errno.value = UInt32.ofNat EAGAIN := herrno
          cases errno with
          | mk value ne_zero =>
              subst hvalue
              rfl

/-- What `read_all` leaves. -/
def AllHeard (w₀ : World σ) (size : Nat) :
    Option (List UInt8) → World σ → Prop
  | some all, w => all.length = size ∧ Heard w₀ all w
  | none, w => ∃ got, TriedLater w₀ got w

theorem readAllLoop_heard (fuel : Nat) :
    ∀ missing got, missing ≤ fuel →
      Triple (Listening w₀ got) (readAllLoop fuel missing got)
        (AllHeard w₀ (got.length + missing)) E := by
  induction fuel with
  | zero =>
      exact fun missing got hfuel => .ret fun w h => ⟨by omega, h.toHeard⟩
  | succ fuel ih =>
      intro missing got hfuel
      refine .ite (fun hmissing => .ret fun w h => ⟨by omega, h.toHeard⟩)
        fun hmissing => ?_
      have hretry : Triple (Listening w₀ got) retryInterrupted
          (fun _ => Listening w₀ got) E :=
        .modify fun w h => ⟨⟨h.reads, h.crc⟩, h.waits⟩
      refine hretry.bind fun _ => ?_
      refine (read_heard (by omega)).bind fun result => ?_
      cases result with
      | eof =>
          have hzero : (0 : UInt32) ≠ UInt32.ofNat EAGAIN := by decide
          have hset : Triple (Heard w₀ got) (setErrno 0)
              (fun _ => TriedLater w₀ got) E :=
            .modify fun w h => ⟨⟨h.reads, h.crc⟩,
              fun herrno => absurd herrno hzero⟩
          exact hset.bind fun _ => .ret fun _ h => ⟨got, h⟩
      | error => exact .ret fun _ h => ⟨got, h⟩
      | data bytes =>
          refine Triple.assume (fun _ h => (⟨h.1, h.2.1⟩ : _ ∧ _))
            fun hbytes => ?_
          have hblock : Triple (MoreHeard w₀ got missing (.data bytes))
              (blockAfterFirst got)
              (fun _ => Listening w₀ (got ++ bytes)) E := by
            refine .ite (fun _ => .modify fun w h => ?_)
              fun hgot => .ret fun w h => ?_
            · exact ⟨⟨h.2.2.1.reads, h.2.2.1.crc⟩, fun _ => rfl⟩
            · exact ⟨h.2.2.1, fun _ => h.2.2.2 (Or.inl hgot)⟩
          refine hblock.bind fun _ => ?_
          have hnext := @ih (missing - bytes.length) (got ++ bytes) (by omega)
          rw [List.length_append, show got.length + bytes.length +
            (missing - bytes.length) = got.length + missing by omega] at hnext
          exact hnext

theorem readAll_heard (size : Nat) :
    Triple (Listening w₀ []) (readAll size) (AllHeard w₀ size) E := by
  have h := @readAllLoop_heard σ E w₀ size size [] (Nat.le_refl size)
  rw [List.length_nil, Nat.zero_add] at h
  exact h

/-! Writing to a file. -/

theorem writeAllLoop_stream {P : List Event → UInt64 → List UInt8 → Prop}
    {write : List UInt8 → Process σ (Option Nat)}
    (hwrite : ∀ data, Triple (OnStream P) (write data)
      (OrErrno (OnStream P)) E) (fuel : Nat) :
    ∀ rest, Triple (OnStream P) (writeAllLoop write fuel rest)
      (fun _ => OnStream P) E := by
  induction fuel with
  | zero => exact fun _ => .ret fun _ h => h
  | succ fuel ih =>
      intro rest
      refine .ite (fun _ => .ret fun _ h => h) fun _ => ?_
      refine retryInterrupted_stream.bind fun _ => ?_
      refine (hwrite rest).bind fun result => ?_
      cases result with
      | none => exact .ret fun _ h => h.1
      | some count =>
          exact .ite (fun _ => .ret fun _ h => h.1)
            fun _ => (ih _).pre_mono fun _ h => h.1

/-- What `copy_file` leaves when it copies from the input to a file. -/
def Copied (input consumed : List UInt8)
    (done : List (FileHeader × List UInt8)) (size : Nat) :
    CopyStatus → World σ → Prop
  | .ok, w => ∃ payload : List UInt8, payload.length = size ∧
      OnStream (Reading input (consumed ++ payload) (consumed ++ payload)
        done) w
  | .readEof, w => Silent w
  | .readError, w => Silent w
  | .writeError, w => Silent w

theorem copyFileLoop_reading
    {write : List UInt8 → Process σ (Option Nat)}
    (hwrite : ∀ P data, Triple (OnStream P) (write data)
      (OrErrno (OnStream P)) E) (fuel : Nat) :
    ∀ missing consumed, missing ≤ fuel →
      Triple (OnStream (Reading input consumed consumed done))
        (copyFileLoop read write fuel missing)
        (Copied input consumed done missing) E := by
  induction fuel with
  | zero =>
      intro missing consumed hfuel
      refine .ret fun w h => ⟨[], ?_, ?_⟩
      · rw [List.length_nil]
        omega
      · rw [List.append_nil]
        exact h
  | succ fuel ih =>
      intro missing consumed hfuel
      refine .ite (fun hmissing => .ret fun w h => ⟨[], ?_, ?_⟩)
        fun hmissing => ?_
      · rw [hmissing, List.length_nil]
      · rw [List.append_nil]
        exact h
      refine (read_reading (by omega)).bind fun result => ?_
      cases result with
      | eof => exact .ret fun _ h => h
      | error => exact .ret fun _ h => h.1
      | data bytes =>
          refine Triple.assume (fun _ h => (⟨h.1, h.2.1⟩ : _ ∧ _))
            fun hbytes => ?_
          refine Triple.pre_mono ?_ fun _ h => h.2.2
          refine (addCrc_reading bytes).bind fun _ => ?_
          refine (writeAllLoop_stream (hwrite _) _ bytes).bind fun ok => ?_
          refine .ite (fun _ => ?_) fun _ => .ret fun _ h => h.silent
          refine (ih (missing - bytes.length) (consumed ++ bytes)
            (by omega)).post_mono fun status w h => ?_
          cases status with
          | ok =>
              obtain ⟨payload, hlength, hreading⟩ := h
              refine ⟨bytes ++ payload, ?_, ?_⟩
              · rw [List.length_append, hlength]
                omega
              · rw [← List.append_assoc]
                exact hreading
          | readEof => exact h
          | readError => exact h
          | writeError => exact h

/-! Writing to the pipe. -/

/-- The process has gone on to write a part of the data. -/
def Wrote (trace : List Event) (crc : UInt64) (stdin data : List UInt8)
    (trace' : List Event) (crc' : UInt64) (stdin' : List UInt8) : Prop :=
  (∃ writes, trace' = trace ++ writes ∧ OnlyWrites writes ∧
    pipes.sentBy writes = data) ∧ crc' = crc ∧ stdin' = stdin

/-- What `write_all` leaves: all the data is written, or a part of it. -/
def AllWritten (trace : List Event) (crc : UInt64)
    (stdin before data : List UInt8) : Bool → World σ → Prop
  | true, w => OnStream (Wrote trace crc stdin (before ++ data)) w
  | false, w => ∃ part, part <+: data ∧
      OnStream (Wrote trace crc stdin (before ++ part)) w

theorem AllWritten.part {trace : List Event} {crc : UInt64}
    {stdin before data : List UInt8} {ok : Bool} {w : World σ}
    (h : AllWritten trace crc stdin before data ok w) :
    ∃ part, part <+: data ∧
      OnStream (Wrote trace crc stdin (before ++ part)) w := by
  cases ok with
  | true => exact ⟨data, List.prefix_rfl, h⟩
  | false => exact h

/-- What a `write` to the pipe leaves. -/
def PartWritten (trace : List Event) (crc : UInt64)
    (stdin before rest : List UInt8) : Option Nat → World σ → Prop
  | some count, w =>
      OnStream (Wrote trace crc stdin (before ++ rest.take count)) w
  | none, w => OnStream (Wrote trace crc stdin before) w

theorem writeStdout_writes {trace : List Event} {crc : UInt64}
    {stdin before rest : List UInt8} : Triple (OnStream (Wrote trace crc stdin before))
      (writeStdout rest : Process σ _)
      (PartWritten trace crc stdin before rest) E := by
  refine nextOutcome_stream.bind fun outcome => ?_
  cases outcome.error with
  | some errno =>
      exact (setErrno_stream errno.value).bind fun _ => .ret fun _ h => h.1
  | none =>
      have hemit : Triple (OnStream (Wrote trace crc stdin before))
          (emit (.write (rest.take outcome.count)) : Process σ _)
          (fun _ => OnStream (Wrote trace crc stdin
            (before ++ rest.take outcome.count))) E := by
        refine .modify fun w h => ?_
        obtain ⟨⟨writes, htrace, honly, hsent⟩, hcrc, hstdin⟩ := h
        refine ⟨⟨writes ++ [.write (rest.take outcome.count)], ?_,
          honly.append ?_, ?_⟩, hcrc, hstdin⟩
        · change w.trace ++ _ = _
          rw [htrace, List.append_assoc]
        · exact fun event h => ⟨_, List.mem_singleton.mp h⟩
        · rw [Port.sentBy_append, hsent, sentBy_singleton]
          rfl
      refine hemit.bind fun _ => .ret fun w h => ?_
      rw [PartWritten, List.length_take, ← List.take_eq_take_min]
      exact h

theorem writeAllLoop_writes {trace : List Event} {crc : UInt64}
    {stdin : List UInt8} (fuel : Nat) :
    ∀ before rest : List UInt8, rest.length ≤ fuel →
      Triple (OnStream (Wrote trace crc stdin before))
        (writeAllLoop writeStdout fuel rest : Process σ _)
        (AllWritten trace crc stdin before rest) E := by
  induction fuel with
  | zero =>
      intro before rest hfuel
      have hrest : rest = [] := List.length_eq_zero_iff.mp (by omega)
      subst hrest
      refine .ret fun w h => ?_
      rw [AllWritten, List.append_nil]
      exact h
  | succ fuel ih =>
      intro before rest hfuel
      refine .ite (fun hrest => .ret fun w h => ?_) fun hrest => ?_
      · rw [AllWritten, hrest, List.append_nil]
        exact h
      refine retryInterrupted_stream.bind fun _ => ?_
      refine writeStdout_writes.bind fun result => ?_
      cases result with
      | none =>
          refine .ret fun w h => ⟨[], List.nil_prefix, ?_⟩
          rw [List.append_nil]
          exact h
      | some count =>
          refine .ite (fun _ => .ret fun w h => ?_) fun hcount => ?_
          · exact ⟨rest.take count, List.take_prefix _ _, h⟩
          have hshort : (rest.drop count).length ≤ fuel := by
            rw [List.length_drop]
            omega
          refine (ih (before ++ rest.take count) _ hshort).post_mono
            fun ok w h => ?_
          cases ok with
          | true =>
              rw [AllWritten, List.append_assoc, List.take_append_drop] at h
              exact h
          | false =>
              obtain ⟨part, hpart, hwrote⟩ := h
              rw [List.append_assoc] at hwrote
              refine ⟨rest.take count ++ part, ?_, hwrote⟩
              obtain ⟨more, hmore⟩ := hpart
              refine ⟨more, ?_⟩
              rw [List.append_assoc, hmore, List.take_append_drop]

theorem writeAll_writes {trace : List Event} {crc : UInt64}
    {stdin before : List UInt8} (data : List UInt8) :
    Triple (OnStream (Wrote trace crc stdin before))
      (writeAll writeStdout data : Process σ _)
      (AllWritten trace crc stdin before data) E :=
  writeAllLoop_writes data.length before data (Nat.le_refl _)

end Process

end QubesUtils
