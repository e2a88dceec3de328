/-
The loops of `ioall.c` and `copy-file.c` over calls that are interrupted or
transfer less than they are asked to.  What the loops transfer does not depend
on the calls, but for one retry that `copy_file` leaves out.
-/
import QubesUtils.ProcessTrace

namespace QubesUtils

open Fifo

namespace Process

variable {σ : Type}

/-- The next call is not interrupted, and transfers bytes. -/
structure Ready (outcomes : List Outcome) : Prop where
  succeeds : (outcomes.headD .plain).error = none
  stays : (outcomes.headD .plain).empty = false

/-- Every call is interrupted, or transfers bytes. -/
def Benign (outcomes : List Outcome) : Prop :=
  ∀ outcome ∈ outcomes, outcome.interrupted = true ∨
    (outcome.error = none ∧ outcome.empty = false)

theorem Benign.tail {outcomes : List Outcome} (h : Benign outcomes) :
    Benign outcomes.tail :=
  fun outcome houtcome => h outcome (List.mem_of_mem_tail houtcome)

theorem Benign.dropWhile {outcomes : List Outcome} (h : Benign outcomes) :
    Benign (outcomes.dropWhile Outcome.interrupted) :=
  fun outcome houtcome =>
    h outcome ((List.dropWhile_suffix _).subset houtcome)

theorem Benign.ready {outcomes : List Outcome} (h : Benign outcomes)
    (hnot : (outcomes.headD .plain).interrupted = false) :
    Ready outcomes := by
  cases outcomes with
  | nil => exact ⟨rfl, rfl⟩
  | cons outcome rest =>
      rcases h outcome List.mem_cons_self with hinterrupted | hplain
      · exact absurd (hnot.symm.trans hinterrupted) (by decide)
      · exact ⟨hplain.1, hplain.2⟩

theorem Benign.ready_dropWhile {outcomes : List Outcome}
    (h : Benign outcomes) :
    Ready (outcomes.dropWhile Outcome.interrupted) := by
  refine h.dropWhile.ready ?_
  induction outcomes with
  | nil => rfl
  | cons outcome rest ih =>
      cases hinterrupted : outcome.interrupted with
      | true =>
          rw [List.dropWhile_cons_of_pos hinterrupted]
          exact ih fun o ho => h o (List.mem_cons_of_mem _ ho)
      | false =>
          rw [List.dropWhile_cons_of_neg (by simp [hinterrupted])]
          exact hinterrupted

/-- From one state to another: the bytes that were read, added to the
checksum, and written. -/
structure Moved (w w' : World σ) (got summed put : List UInt8) : Prop where
  stdin : w.stdin = got ++ w'.stdin
  crc : w'.crc32Sum = crc32ComputeBuf w.crc32Sum summed
  sent : pipes.sentBy w'.trace = pipes.sentBy w.trace ++ put
  statics : w'.statics = w.statics

theorem Moved.refl (w : World σ) : Moved w w [] [] [] where
  stdin := rfl
  crc := (crc32ComputeBuf_nil _).symm
  sent := (List.append_nil _).symm
  statics := rfl

theorem Moved.trans {w w₁ w₂ : World σ}
    {got summed put got' summed' put' : List UInt8}
    (h : Moved w w₁ got summed put) (h' : Moved w₁ w₂ got' summed' put') :
    Moved w w₂ (got ++ got') (summed ++ summed') (put ++ put') where
  stdin := by rw [h.stdin, h'.stdin, List.append_assoc]
  crc := by rw [h'.crc, h.crc, crc32ComputeBuf_append]
  sent := by rw [h'.sent, h.sent, List.append_assoc]
  statics := h'.statics.trans h.statics

/-! Single calls. -/

theorem retryInterrupted_run (w : World σ) (h : Benign w.outcomes) :
    ∃ w', retryInterrupted.run w = .ok () w' ∧ Moved w w' [] [] [] ∧
      w'.outcomes = w.outcomes.dropWhile Outcome.interrupted ∧
      w'.nonblocking = w.nonblocking ∧ Ready w'.outcomes :=
  ⟨_, rfl, ⟨rfl, (crc32ComputeBuf_nil _).symm, (List.append_nil _).symm, rfl⟩,
    rfl, rfl, h.ready_dropWhile⟩

/-- The bytes that a call moves, of those that it is asked for. -/
def moves (outcomes : List Outcome) (count : Nat) : Nat :=
  min count ((outcomes.headD .plain).amount + 1)

theorem moves_pos {outcomes : List Outcome} {count : Nat}
    (hcount : 0 < count) : 0 < moves outcomes count := by
  rw [moves]
  omega

theorem moves_le (outcomes : List Outcome) (count : Nat) :
    moves outcomes count ≤ count :=
  Nat.min_le_left _ _

theorem read_run {w : World σ} (count : Nat) (hready : Ready w.outcomes)
    (hstdin : w.stdin ≠ []) :
    ∃ w', (read count).run w =
        .ok (.data (w.stdin.take (moves w.outcomes count))) w' ∧
      Moved w w' (w.stdin.take (moves w.outcomes count)) [] [] ∧
      w'.outcomes = w.outcomes.tail ∧ w'.nonblocking = w.nonblocking := by
  have hrun : (read count).run w =
      .ok (.data (w.stdin.take (moves w.outcomes count)))
        { w with
          outcomes := w.outcomes.tail
          stdin := w.stdin.drop (moves w.outcomes count)
          trace := w.trace ++
            [.read (w.stdin.take (moves w.outcomes count))] } := by
    have hnext : (nextOutcome : Process σ Outcome).run w =
        .ok (w.outcomes.headD .plain)
          { w with outcomes := w.outcomes.tail } := rfl
    rw [read, EStateM.run_bind, hnext]
    simp only [hready.succeeds, hready.stays, Bool.false_eq_true, if_false]
    rw [arrive, EStateM.run_bind]
    simp only [EStateM.run_get]
    rw [if_neg hstdin]
    rfl
  refine ⟨_, hrun, ⟨(List.take_append_drop _ _).symm,
    (crc32ComputeBuf_nil _).symm, ?_, rfl⟩, rfl, rfl⟩
  rw [Port.sentBy_append]
  rfl

theorem read_interrupted {w : World σ} (count : Nat)
    (h : (w.outcomes.headD .plain).interrupted = true) :
    ∃ w', (read count).run w = .ok .error w' := by
  have herror : (w.outcomes.headD .plain).error = some (errnoOf EINTR) :=
    eq_of_beq h
  have hnext : (nextOutcome : Process σ Outcome).run w =
      .ok (w.outcomes.headD .plain)
        { w with outcomes := w.outcomes.tail } := rfl
  have hother : errnoOf EINTR ≠ errnoOf EAGAIN := by decide
  rw [read, EStateM.run_bind, hnext]
  simp only [herror]
  rw [EStateM.run_bind]
  simp only [EStateM.run_get]
  rw [if_neg fun hagain => hother hagain.1]
  exact ⟨_, rfl⟩

theorem writeStdout_run {w : World σ} (data : List UInt8)
    (hready : Ready w.outcomes) :
    ∃ w', (writeStdout data).run w =
        .ok (some (moves w.outcomes data.length)) w' ∧
      Moved w w' [] [] (data.take (moves w.outcomes data.length)) ∧
      w'.outcomes = w.outcomes.tail ∧ w'.nonblocking = w.nonblocking := by
  have htake : data.take (w.outcomes.headD .plain).count =
      data.take (moves w.outcomes data.length) := by
    rw [Outcome.count_of_not_empty hready.stays, moves, Nat.min_comm,
      ← List.take_eq_take_min]
  have hlength : (data.take (moves w.outcomes data.length)).length =
      moves w.outcomes data.length := by
    rw [List.length_take, Nat.min_eq_left (moves_le _ _)]
  have hrun : (writeStdout data).run w =
      .ok (some (moves w.outcomes data.length))
        { w with
          outcomes := w.outcomes.tail
          trace := w.trace ++
            [.write (data.take (moves w.outcomes data.length))] } := by
    have hnext : (nextOutcome : Process σ Outcome).run w =
        .ok (w.outcomes.headD .plain)
          { w with outcomes := w.outcomes.tail } := rfl
    rw [writeStdout, EStateM.run_bind, hnext]
    simp only [hready.succeeds]
    rw [htake]
    simp only [EStateM.run_bind, hlength]
    rfl
  refine ⟨_, hrun, ⟨rfl, (crc32ComputeBuf_nil _).symm, ?_, rfl⟩, rfl, rfl⟩
  rw [Port.sentBy_append, sentBy_singleton]
  rfl

/-! `write_all` and `read_all`. -/

/-- The calls behind a `write_all` of `count` bytes. -/
def afterWrites : Nat → List Outcome → List Outcome
  | _, [] => []
  | count, outcome :: rest =>
      if count = 0 then outcome :: rest
      else if outcome.interrupted then afterWrites count rest
      else afterWrites (count - (outcome.amount + 1)) rest

@[simp] theorem afterWrites_zero (outcomes : List Outcome) :
    afterWrites 0 outcomes = outcomes := by
  cases outcomes with
  | nil => rfl
  | cons outcome rest => rw [afterWrites, if_pos rfl]

theorem afterWrites_dropWhile {count : Nat} (hcount : count ≠ 0)
    (outcomes : List Outcome) :
    afterWrites count (outcomes.dropWhile Outcome.interrupted) =
      afterWrites count outcomes := by
  induction outcomes with
  | nil => rfl
  | cons outcome rest ih =>
      cases hinterrupted : outcome.interrupted with
      | true =>
          rw [List.dropWhile_cons_of_pos hinterrupted, ih, afterWrites,
            if_neg hcount, if_pos hinterrupted]
      | false =>
          rw [List.dropWhile_cons_of_neg (by simp [hinterrupted])]

theorem afterWrites_tail {outcomes : List Outcome} {count : Nat}
    (hcount : count ≠ 0)
    (hnot : (outcomes.headD .plain).interrupted = false) :
    afterWrites (count - moves outcomes count) outcomes.tail =
      afterWrites count outcomes := by
  cases outcomes with
  | nil => rfl
  | cons outcome rest =>
      have hmoves : count - moves (outcome :: rest) count =
          count - (outcome.amount + 1) := by
        rw [moves, List.headD_cons]
        omega
      have hnot' : ¬ outcome.interrupted = true := by
        rw [List.headD_cons] at hnot
        rw [hnot]
        decide
      rw [afterWrites, if_neg hcount, if_neg hnot', hmoves, List.tail_cons]

theorem Ready.not_interrupted {outcomes : List Outcome}
    (h : Ready outcomes) : (outcomes.headD .plain).interrupted = false := by
  rw [Outcome.interrupted, h.succeeds]
  rfl

theorem Benign.afterWrites {outcomes : List Outcome} (h : Benign outcomes) :
    ∀ count, Benign (afterWrites count outcomes) := by
  induction outcomes with
  | nil => exact fun _ => h
  | cons outcome rest ih =>
      intro count
      rw [Process.afterWrites]
      split
      · exact h
      · split
        · exact ih h.tail _
        · exact ih h.tail _

theorem writeAllLoop_run (fuel : Nat) :
    ∀ (w : World σ) (rest : List UInt8), Benign w.outcomes →
      rest.length ≤ fuel →
        ∃ w', (writeAllLoop writeStdout fuel rest).run w = .ok true w' ∧
          Moved w w' [] [] rest ∧
          w'.outcomes = afterWrites rest.length w.outcomes ∧
          w'.nonblocking = w.nonblocking := by
  induction fuel with
  | zero =>
      intro w rest _ hfuel
      obtain rfl := List.length_eq_zero_iff.mp (Nat.le_zero.mp hfuel)
      exact ⟨w, rfl, .refl w, by simp, rfl⟩
  | succ fuel ih =>
      intro w rest hbenign hfuel
      rw [writeAllLoop]
      by_cases hrest : rest = []
      · subst hrest
        exact ⟨w, rfl, .refl w, by simp, rfl⟩
      have hlength : rest.length ≠ 0 :=
        fun h => hrest (List.length_eq_zero_iff.mp h)
      obtain ⟨w₁, hretry, hmoved₁, houtcomes₁, hpipe₁, hready⟩ :=
        retryInterrupted_run w hbenign
      obtain ⟨w₂, hwrite, hmoved₂, houtcomes₂, hpipe₂⟩ :=
        writeStdout_run rest hready
      have hpos : 0 < moves w₁.outcomes rest.length :=
        moves_pos (Nat.pos_of_ne_zero hlength)
      obtain ⟨w₃, hrun, hmoved₃, houtcomes₃, hpipe₃⟩ := ih w₂
        (rest.drop (moves w₁.outcomes rest.length))
        (by rw [houtcomes₂, houtcomes₁]; exact hbenign.dropWhile.tail)
        (by rw [List.length_drop]; omega)
      refine ⟨w₃, ?_, ?_, ?_, hpipe₃.trans (hpipe₂.trans hpipe₁)⟩
      · rw [if_neg hrest, EStateM.run_bind, hretry]
        simp only
        rw [EStateM.run_bind, hwrite]
        simp only
        rw [if_neg (Nat.ne_of_gt hpos)]
        exact hrun
      · have hall := hmoved₁.trans (hmoved₂.trans hmoved₃)
        simpa using hall
      · rw [houtcomes₃, List.length_drop, houtcomes₂,
          afterWrites_tail hlength hready.not_interrupted, houtcomes₁,
          afterWrites_dropWhile hlength]

theorem writeAll_run {w : World σ} (data : List UInt8)
    (h : Benign w.outcomes) :
    ∃ w', (writeAll writeStdout data).run w = .ok true w' ∧
      Moved w w' [] [] data ∧
      w'.outcomes = afterWrites data.length w.outcomes ∧
      w'.nonblocking = w.nonblocking :=
  writeAllLoop_run data.length w data h (Nat.le_refl _)

theorem take_split {n m : Nat} (h : n ≤ m) (l : List UInt8) :
    l.take m = l.take n ++ (l.drop n).take (m - n) := by
  rw [← List.take_add, Nat.add_sub_cancel' h]

theorem blockAfterFirst_run (w : World σ) (got : List UInt8) :
    ∃ w', (blockAfterFirst got).run w = .ok () w' ∧ Moved w w' [] [] [] ∧
      w'.outcomes = w.outcomes ∧ w'.stdin = w.stdin ∧
      (got = [] ∨ w.nonblocking = false → w'.nonblocking = false) := by
  rw [blockAfterFirst]
  split
  · exact ⟨_, rfl, ⟨rfl, (crc32ComputeBuf_nil _).symm,
      (List.append_nil _).symm, rfl⟩, rfl, rfl, fun _ => rfl⟩
  · rename_i hgot
    exact ⟨w, rfl, .refl w, rfl, rfl, fun h => h.resolve_left hgot⟩

theorem readAllLoop_run (fuel : Nat) :
    ∀ (w : World σ) (missing : Nat) (got : List UInt8), Benign w.outcomes →
      missing ≤ fuel → missing ≤ w.stdin.length →
        ∃ w', (readAllLoop fuel missing got).run w =
            .ok (some (got ++ w.stdin.take missing)) w' ∧
          Moved w w' (w.stdin.take missing) [] [] ∧ Benign w'.outcomes ∧
          (w.nonblocking = false ∨ (got = [] ∧ missing ≠ 0) →
            w'.nonblocking = false) := by
  induction fuel with
  | zero =>
      intro w missing got hbenign hfuel _
      obtain rfl := Nat.le_zero.mp hfuel
      refine ⟨w, ?_, .refl w, hbenign, fun h => h.resolve_right (by simp)⟩
      rw [readAllLoop, List.take_zero, List.append_nil]
      rfl
  | succ fuel ih =>
      intro w missing got hbenign hfuel hlength
      rw [readAllLoop]
      by_cases hmissing : missing = 0
      · subst hmissing
        refine ⟨w, ?_, .refl w, hbenign, fun h => h.resolve_right (by simp)⟩
        rw [if_pos rfl, List.take_zero, List.append_nil]
        rfl
      obtain ⟨w₁, hretry, hmoved₁, houtcomes₁, hpipe₁, hready⟩ :=
        retryInterrupted_run w hbenign
      have hstdin₁ : w₁.stdin = w.stdin := hmoved₁.stdin.symm
      have hne : w₁.stdin ≠ [] := by
        intro hnil
        rw [← hstdin₁, hnil, List.length_nil] at hlength
        omega
      obtain ⟨w₂, hread, hmoved₂, houtcomes₂, hpipe₂⟩ :=
        read_run missing hready hne
      have hpos := @moves_pos w₁.outcomes missing (by omega)
      have hle := moves_le w₁.outcomes missing
      generalize moves w₁.outcomes missing = n at *
      rw [hstdin₁] at hread hmoved₂
      obtain ⟨w₃, hblock, hmoved₃, houtcomes₃, hstdin₃, hpipe₃⟩ :=
        blockAfterFirst_run w₂ got
      have hcount : (w.stdin.take n).length = n := by
        rw [List.length_take]
        omega
      have hstdin₂ : w₂.stdin = w.stdin.drop n := by
        have hcut := hmoved₂.stdin
        rw [hstdin₁] at hcut
        exact List.append_cancel_left
          (hcut.symm.trans (List.take_append_drop n w.stdin).symm)
      have hbenign₃ : Benign w₃.outcomes := by
        rw [houtcomes₃, houtcomes₂, houtcomes₁]
        exact hbenign.dropWhile.tail
      obtain ⟨w₄, hrun, hmoved₄, hbenign₄, hpipe₄⟩ := ih w₃ (missing - n)
        (got ++ w.stdin.take n) hbenign₃ (by omega)
        (by rw [hstdin₃, hstdin₂, List.length_drop]; omega)
      rw [hstdin₃, hstdin₂] at hrun hmoved₄
      have hwaits : w.nonblocking = false ∨ (got = [] ∧ missing ≠ 0) →
          w₄.nonblocking = false := by
        intro h
        refine hpipe₄ (Or.inl (hpipe₃ ?_))
        rw [hpipe₂, hpipe₁]
        exact h.symm.imp And.left id
      refine ⟨w₄, ?_, ?_, hbenign₄, hwaits⟩
      · rw [if_neg hmissing, EStateM.run_bind, hretry]
        simp only
        rw [EStateM.run_bind, hread]
        simp only
        rw [EStateM.run_bind, hblock]
        simp only
        rw [hcount, hrun, take_split hle, List.append_assoc]
      · have hall := hmoved₁.trans (hmoved₂.trans (hmoved₃.trans hmoved₄))
        rw [take_split hle]
        exact hall

theorem readAll_run {w : World σ} {size : Nat} (h : Benign w.outcomes)
    (hsize : size ≤ w.stdin.length) :
    ∃ w', (readAll size).run w = .ok (some (w.stdin.take size)) w' ∧
      Moved w w' (w.stdin.take size) [] [] ∧ Benign w'.outcomes ∧
      (w.nonblocking = false ∨ size ≠ 0 → w'.nonblocking = false) := by
  obtain ⟨w', hrun, hmoved, hbenign, hwaits⟩ :=
    readAllLoop_run size w size [] h (Nat.le_refl _) hsize
  exact ⟨w', hrun, hmoved, hbenign,
    fun h => hwaits (h.imp id fun hne => ⟨rfl, hne⟩)⟩

/-! `copy_file` -/

/-- One of the reads that a `copy_file` of `missing` bytes makes is
interrupted: the next one, or one behind a part that is read and written. -/
inductive ReadInterrupted : Nat → List Outcome → Prop
  | now {missing : Nat} {outcome : Outcome} {rest : List Outcome} :
      0 < missing → outcome.interrupted = true →
        ReadInterrupted missing (outcome :: rest)
  | later {missing part : Nat} {outcome : Outcome} {rest : List Outcome} :
      0 < missing → outcome.interrupted = false →
        part = min (min missing 4096) (outcome.amount + 1) →
          ReadInterrupted (missing - part) (afterWrites part rest) →
            ReadInterrupted missing (outcome :: rest)

theorem not_readInterrupted_zero (outcomes : List Outcome) :
    ¬ ReadInterrupted 0 outcomes := by
  intro h
  cases h with
  | now hpos _ => exact absurd hpos (by decide)
  | later hpos _ _ _ => exact absurd hpos (by decide)

theorem not_readInterrupted_nil (missing : Nat) :
    ¬ ReadInterrupted missing [] := by
  intro h
  cases h

/-- Behind a part the question is about what follows. -/
theorem readInterrupted_iff {missing : Nat} {outcomes : List Outcome}
    (hmissing : 0 < missing)
    (hnot : (outcomes.headD .plain).interrupted = false) :
    ReadInterrupted missing outcomes ↔
      ReadInterrupted (missing - moves outcomes (min missing 4096))
        (afterWrites (moves outcomes (min missing 4096)) outcomes.tail) := by
  cases outcomes with
  | nil =>
      have hnil : ∀ count, afterWrites count [] = [] := fun _ => rfl
      simp only [List.tail_nil, hnil, not_readInterrupted_nil]
  | cons outcome rest =>
      rw [List.headD_cons] at hnot
      constructor
      · intro h
        cases h with
        | now _ hinterrupted =>
            exact absurd (hnot.symm.trans hinterrupted) (by decide)
        | later _ _ hpart hrest =>
            subst hpart
            exact hrest
      · exact .later hmissing hnot rfl

theorem addCrc_run (w : World σ) (data : List UInt8) :
    ∃ w', (addCrc data).run w = .ok () w' ∧ Moved w w' [] data [] ∧
      w'.outcomes = w.outcomes :=
  ⟨_, rfl, ⟨rfl, rfl, (List.append_nil _).symm, rfl⟩, rfl⟩

/-- One pass that reads and writes a part. -/
theorem copyFileLoop_pass {fuel missing : Nat} {bytes : List UInt8}
    {w w₁ w₂ w₃ : World σ} (hmissing : missing ≠ 0)
    (hread : (read (min missing 4096)).run w = .ok (.data bytes) w₁)
    (hcrc : (addCrc bytes).run w₁ = .ok () w₂)
    (hwrite : (writeAll writeStdout bytes).run w₂ = .ok true w₃) :
    (copyFileLoop read writeStdout (fuel + 1) missing).run w =
      (copyFileLoop read writeStdout fuel (missing - bytes.length)).run
        w₃ := by
  rw [copyFileLoop, if_neg hmissing, EStateM.run_bind, hread]
  simp only
  rw [EStateM.run_bind, hcrc]
  simp only
  rw [EStateM.run_bind, hwrite]
  simp only [if_true]

/-- A copy is complete, or a read is interrupted and it fails. -/
theorem copyFileLoop_run (fuel : Nat) :
    ∀ (w : World σ) (missing : Nat), Benign w.outcomes → missing ≤ fuel →
      missing ≤ w.stdin.length →
        (¬ ReadInterrupted missing w.outcomes ∧
          ∃ w', (copyFileLoop read writeStdout fuel missing).run w =
              .ok .ok w' ∧
            Moved w w' (w.stdin.take missing) (w.stdin.take missing)
              (w.stdin.take missing)) ∨
        (ReadInterrupted missing w.outcomes ∧
          ∃ w', (copyFileLoop read writeStdout fuel missing).run w =
            .ok .readError w') := by
  induction fuel with
  | zero =>
      intro w missing _ hfuel _
      obtain rfl := Nat.le_zero.mp hfuel
      exact Or.inl ⟨not_readInterrupted_zero _, w, rfl, .refl w⟩
  | succ fuel ih =>
      intro w missing hbenign hfuel hlength
      by_cases hmissing : missing = 0
      · subst hmissing
        exact Or.inl ⟨not_readInterrupted_zero _, w, rfl, .refl w⟩
      have hpositive : 0 < missing := Nat.pos_of_ne_zero hmissing
      cases hhead : (w.outcomes.headD .plain).interrupted with
      | true =>
          refine Or.inr ⟨?_, ?_⟩
          · cases houtcomes : w.outcomes with
            | nil =>
                rw [houtcomes] at hhead
                exact absurd hhead (by decide)
            | cons outcome rest =>
                rw [houtcomes] at hhead
                exact .now hpositive hhead
          · obtain ⟨w', hread⟩ := read_interrupted (min missing 4096) hhead
            refine ⟨w', ?_⟩
            rw [copyFileLoop, if_neg hmissing, EStateM.run_bind, hread]
            rfl
      | false =>
          have hne : w.stdin ≠ [] := by
            intro hnil
            rw [hnil, List.length_nil] at hlength
            omega
          obtain ⟨w₁, hread, hmoved₁, houtcomes₁, _⟩ :=
            read_run (min missing 4096) (hbenign.ready hhead) hne
          have hpos := @moves_pos w.outcomes (min missing 4096) (by omega)
          have hle := moves_le w.outcomes (min missing 4096)
          rw [readInterrupted_iff hpositive hhead]
          generalize moves w.outcomes (min missing 4096) = n at *
          have hcount : (w.stdin.take n).length = n := by
            rw [List.length_take]
            omega
          have hstdin₁ : w₁.stdin = w.stdin.drop n :=
            List.append_cancel_left (hmoved₁.stdin.symm.trans
              (List.take_append_drop n w.stdin).symm)
          obtain ⟨w₂, hcrc, hmoved₂, houtcomes₂⟩ :=
            addCrc_run w₁ (w.stdin.take n)
          obtain ⟨w₃, hwrite, hmoved₃, houtcomes₃, _⟩ :=
            @writeAll_run σ w₂ (w.stdin.take n)
              (by rw [houtcomes₂, houtcomes₁]; exact hbenign.tail)
          rw [hcount, houtcomes₂, houtcomes₁] at houtcomes₃
          have hstdin₃ : w₃.stdin = w.stdin.drop n := by
            rw [← hstdin₁, hmoved₂.stdin, hmoved₃.stdin]
            rfl
          have hbenign₃ : Benign w₃.outcomes := by
            rw [houtcomes₃]
            exact hbenign.tail.afterWrites n
          have hnext := ih w₃ (missing - n) hbenign₃ (by omega)
            (by rw [hstdin₃, List.length_drop]; omega)
          rw [houtcomes₃, hstdin₃] at hnext
          have hpass := @copyFileLoop_pass σ fuel missing _ _ _ _ _ hmissing
            hread hcrc hwrite
          rw [hcount] at hpass
          rcases hnext with ⟨hnever, w₄, hrun, hmoved₄⟩ | ⟨hmeets, w₄, hrun⟩
          · refine Or.inl ⟨hnever, w₄, hpass.trans hrun, ?_⟩
            have hall := hmoved₁.trans
              (hmoved₂.trans (hmoved₃.trans hmoved₄))
            rw [take_split (by omega : n ≤ missing)]
            exact hall
          · exact Or.inr ⟨hmeets, w₄, hpass.trans hrun⟩

theorem copyFile_run {w : World σ} {size : Nat} (h : Benign w.outcomes)
    (hsize : size ≤ w.stdin.length) :
    (¬ ReadInterrupted size w.outcomes ∧
      ∃ w', (copyFile read writeStdout size).run w = .ok .ok w' ∧
        Moved w w' (w.stdin.take size) (w.stdin.take size)
          (w.stdin.take size)) ∨
    (ReadInterrupted size w.outcomes ∧
      ∃ w', (copyFile read writeStdout size).run w = .ok .readError w') :=
  copyFileLoop_run size w size h (Nat.le_refl _) hsize

/-! `copy_fd_all` -/

theorem read_end {w : World σ} (count : Nat) (hready : Ready w.outcomes)
    (hstdin : w.stdin = []) (hwaits : w.nonblocking = false) :
    ∃ w', (read count).run w = .ok .eof w' ∧ Moved w w' [] [] [] := by
  have hnext : (nextOutcome : Process σ Outcome).run w =
      .ok (w.outcomes.headD .plain)
        { w with outcomes := w.outcomes.tail } := rfl
  rw [read, EStateM.run_bind, hnext]
  simp only [hready.succeeds, hready.stays, Bool.false_eq_true, if_false]
  rw [arrive, EStateM.run_bind]
  simp only [EStateM.run_get]
  rw [if_pos hstdin, if_neg (by simp [hwaits])]
  exact ⟨_, rfl, ⟨rfl, (crc32ComputeBuf_nil _).symm,
    (List.append_nil _).symm, rfl⟩⟩

theorem copyFdAllLoop_run (fuel : Nat) :
    ∀ w : World σ, Benign w.outcomes → w.nonblocking = false →
      w.stdin.length < fuel →
        ∃ w', (copyFdAllLoop fuel).run w = .ok true w' ∧
          Moved w w' w.stdin [] w.stdin := by
  induction fuel with
  | zero => exact fun _ _ _ hfuel => absurd hfuel (Nat.not_lt_zero _)
  | succ fuel ih =>
      intro w hbenign hwaits hfuel
      obtain ⟨w₁, hretry, hmoved₁, houtcomes₁, hpipe₁, hready⟩ :=
        retryInterrupted_run w hbenign
      have hstdin₁ : w₁.stdin = w.stdin := hmoved₁.stdin.symm
      by_cases hempty : w.stdin = []
      · obtain ⟨w₂, hread, hmoved₂⟩ := read_end 4096 hready
          (hstdin₁.trans hempty) (hpipe₁.trans hwaits)
        refine ⟨w₂, ?_, ?_⟩
        · rw [copyFdAllLoop, EStateM.run_bind, hretry]
          simp only
          rw [EStateM.run_bind, hread]
          rfl
        · rw [hempty]
          exact hmoved₁.trans hmoved₂
      · obtain ⟨w₂, hread, hmoved₂, houtcomes₂, hpipe₂⟩ :=
          read_run 4096 hready (by rw [hstdin₁]; exact hempty)
        have hpos := @moves_pos w₁.outcomes 4096 (by decide)
        generalize moves w₁.outcomes 4096 = n at *
        rw [hstdin₁] at hread hmoved₂
        have hlength := List.length_pos_of_ne_nil hempty
        have hstdin₂ : w₂.stdin = w.stdin.drop n := by
          have hcut := hmoved₂.stdin
          rw [hstdin₁] at hcut
          exact List.append_cancel_left
            (hcut.symm.trans (List.take_append_drop n w.stdin).symm)
        obtain ⟨w₃, hwrite, hmoved₃, houtcomes₃, hpipe₃⟩ :=
          @writeAll_run σ w₂ (w.stdin.take n)
            (by rw [houtcomes₂, houtcomes₁]; exact hbenign.dropWhile.tail)
        have hstdin₃ : w₃.stdin = w.stdin.drop n := by
          rw [← hstdin₂, hmoved₃.stdin]
          rfl
        have hbenign₃ : Benign w₃.outcomes := by
          rw [houtcomes₃, houtcomes₂, houtcomes₁]
          exact hbenign.dropWhile.tail.afterWrites _
        obtain ⟨w₄, hrun, hmoved₄⟩ := ih w₃ hbenign₃
          (hpipe₃.trans (hpipe₂.trans (hpipe₁.trans hwaits)))
          (by rw [hstdin₃, List.length_drop]; omega)
        refine ⟨w₄, ?_, ?_⟩
        · rw [copyFdAllLoop, EStateM.run_bind, hretry]
          simp only
          rw [EStateM.run_bind, hread]
          simp only
          rw [EStateM.run_bind, hwrite]
          exact hrun
        · have hall := hmoved₁.trans
            (hmoved₂.trans (hmoved₃.trans hmoved₄))
          rw [hstdin₃] at hall
          simp only [List.nil_append, List.append_nil,
            List.take_append_drop] at hall
          exact hall

/-! The contracts of the loops. -/

/-- `read_all` gets the next bytes of the input. -/
def ReadsNext (w : World σ) (size : Nat) : Prop :=
  ∃ w', (readAll size).run w = .ok (some (w.stdin.take size)) w' ∧
    Moved w w' (w.stdin.take size) [] []

/-- `write_all` writes the data. -/
def WritesData (w : World σ) (data : List UInt8) : Prop :=
  ∃ w', (writeAll writeStdout data).run w = .ok true w' ∧
    Moved w w' [] [] data

/-- `copy_fd_all` copies the input to its end. -/
def CopiesToEnd (w : World σ) : Prop :=
  ∃ w', copyFdAll.run w = .ok true w' ∧ Moved w w' w.stdin [] w.stdin

/-- `copy_file` reads, sums and writes the next bytes of the input. -/
def CopiesNext (w : World σ) (size : Nat) : Prop :=
  ∃ w', (copyFile read writeStdout size).run w = .ok .ok w' ∧
    Moved w w' (w.stdin.take size) (w.stdin.take size) (w.stdin.take size)

/-- Interrupted and short calls are not noticed, but for an interrupted read
of `copy_file`. -/
theorem interrupted_calls_unnoticed (w : World σ) (h : Benign w.outcomes)
    (size : Nat) (hsize : size ≤ w.stdin.length) :
    ReadsNext w size ∧ (∀ data, WritesData w data) ∧
      (w.nonblocking = false → CopiesToEnd w) ∧
      (CopiesNext w size ↔ ¬ ReadInterrupted size w.outcomes) := by
  refine ⟨?_, ?_, ?_, ?_⟩
  · obtain ⟨w', hrun, hmoved, _⟩ := readAll_run h hsize
    exact ⟨w', hrun, hmoved⟩
  · intro data
    obtain ⟨w', hrun, hmoved, _⟩ := writeAll_run data h
    exact ⟨w', hrun, hmoved⟩
  · intro hwaits
    exact copyFdAllLoop_run (w.stdin.length + 1) w h hwaits
      (Nat.lt_succ_self _)
  · rcases copyFile_run h hsize with ⟨hnever, hrun⟩ | ⟨hmeets, w', hrun⟩
    · exact ⟨fun _ => hnever, fun _ => hrun⟩
    · constructor
      · rintro ⟨w'', hcopied, _⟩
        rw [hrun] at hcopied
        cases hcopied
      · exact fun hnever => absurd hmeets hnever

/-- One byte to copy, and a signal in front of the first read. -/
def interruptedWorld : World Unit where
  stdin := [0x61]
  nonblocking := false
  outcomes := [⟨some ⟨4, by decide⟩, false, 0, ⟨0, 0⟩⟩]
  errno := 0
  crc32Sum := 0
  trace := []
  statics := ()

theorem interruptedWorld_fails : ¬ CopiesNext interruptedWorld 1 := by
  rintro ⟨w', hrun, _⟩
  have hfails : ∃ w'', (copyFile read writeStdout 1).run interruptedWorld =
      .ok .readError w'' := ⟨_, rfl⟩
  obtain ⟨w'', hfails⟩ := hfails
  rw [hfails] at hrun
  cases hrun

theorem interrupted_calls_unnoticed_signal :
    Benign interruptedWorld.outcomes ∧ ReadsNext interruptedWorld 1 ∧
      (CopiesNext interruptedWorld 1 ↔
        ¬ ReadInterrupted 1 interruptedWorld.outcomes) := by
  have hbenign : Benign interruptedWorld.outcomes := by
    intro outcome houtcome
    rw [List.mem_singleton.mp houtcome]
    exact Or.inl rfl
  obtain ⟨hreads, _, _, hcopies⟩ :=
    interrupted_calls_unnoticed interruptedWorld hbenign 1 (by decide)
  exact ⟨hbenign, hreads, hcopies⟩

end Process

end QubesUtils
