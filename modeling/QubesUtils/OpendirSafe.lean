/-
`opendir_safe` on the bytes of its buffer: `strchr` from segment to segment, a
terminator in place of each slash, and a descriptor for each directory.  For
the names that a validator has accepted it comes to the pieces that `Unpack`
cuts the name into.
-/
import Mathlib.Data.List.Basic
import Mathlib.Data.Set.Finite.Basic
import QubesUtils.UnpackAnswer

namespace QubesUtils.OpendirSafe

open Hoare Separated

/-! The process. -/

/-- `AT_FDCWD`, or a descriptor. -/
inductive Fd
  | cwd
  | fd (n : Nat)
deriving DecidableEq

inductive Call
  | openat (dirfd : Fd) (segment : List UInt8) (newFd : Option Nat)
  | close (fd : Fd)
deriving DecidableEq

/-- The memory of the path, the descriptors that are open, the calls that have
been made, and what the kernel will make of each `openat`. -/
structure Memory where
  buffer : List UInt8
  fds : List Nat
  calls : List Call
  outcomes : List (Option Errno)

inductive Stop
  | assertion
  | abort (segment : List UInt8)
  | doExit (errno : Errno) (segment : List UInt8)
  | fault (fault : Fault)
deriving DecidableEq

abbrev Opener := EStateM Stop Memory

theorem exists_free (fds : List Nat) : ∃ n, n ∉ fds := by
  obtain ⟨n, hn⟩ := Infinite.exists_notMem_finset fds.toFinset
  exact ⟨n, fun h => hn (List.mem_toFinset.mpr h)⟩

/-- The descriptor that is given out next. -/
def lowestFree (fds : List Nat) : Nat :=
  Nat.find (exists_free fds)

theorem lowestFree_not_mem (fds : List Nat) : lowestFree fds ∉ fds :=
  Nat.find_spec (exists_free fds)

/-- The string at an address. -/
def stringAt (buffer : List UInt8) (i : Nat) : List UInt8 :=
  (CString.ofBuffer (buffer.drop i)).bytes

/-- `strchr`: how far the byte is, or nothing in front of the terminator. -/
def strchr (byte : UInt8) : List UInt8 → Except Fault (Option Nat)
  | [] => .error .outOfBounds
  | head :: rest =>
      if head = byte then .ok (some 0)
      else if head = 0 then .ok none
      else (strchr byte rest).map (Option.map (· + 1))

def Memory.setByte (m : Memory) (i : Nat) (byte : UInt8) : Memory :=
  { m with buffer := m.buffer.set i byte }

/-- The memory after a call. -/
def Memory.called (m : Memory) (call : Call) (fds : List Nat) : Memory :=
  { m with
    fds := fds
    calls := m.calls ++ [call] }

/-- `openat`, which fails or gives the lowest descriptor that is free. -/
def openat (dirfd : Fd) (segment : List UInt8) :
    Opener (Except Errno Nat) := do
  let m ← get
  modify fun m => { m with outcomes := m.outcomes.tail }
  match m.outcomes.headD none with
  | some errno => do
      modify fun m => m.called (.openat dirfd segment none) m.fds
      pure (.error errno)
  | none => do
      let newFd := lowestFree m.fds
      modify fun m =>
        m.called (.openat dirfd segment (some newFd)) (newFd :: m.fds)
      pure (.ok newFd)

def close : Fd → Opener Unit
  | .cwd => modify fun m => m.called (.close .cwd) m.fds
  | .fd n => modify fun m => m.called (.close (.fd n)) (m.fds.erase n)

/-! The function. -/

/-- What an iteration comes to: the last segment, or the next one. -/
inductive Pass
  | done (curFd : Fd) (lastSegment : Nat)
  | next (nextSegment : Option Nat) (curFd : Fd)

section

variable (dirfd : Fd)

/-- The directory before is not needed any more. -/
def closeOther (curFd : Fd) : Opener Unit :=
  if curFd ≠ dirfd then close curFd else pure ()

/-- The part of an iteration behind the checks. -/
def descend (thisSegment nextSegment : Nat) (curFd : Fd) : Opener Pass := do
  let m ← get
  match ← openat curFd (stringAt m.buffer thisSegment) with
  | .error errno =>
      throw (.doExit errno (stringAt m.buffer thisSegment))
  | .ok newFd => do
      closeOther dirfd curFd
      pure (.next (some nextSegment) (.fd newFd))

/-- The slash behind the segment becomes a terminator. -/
def cut (thisSegment length : Nat) (curFd : Fd) : Opener Pass := do
  modify fun m => m.setByte (thisSegment + length) 0
  let m ← get
  if length ≤ 2 ∧
      (m.buffer.drop thisSegment).take length = dotdotComponent.take length then
    throw (.abort (stringAt m.buffer thisSegment))
  else
    descend dirfd thisSegment (thisSegment + length + 1) curFd

/-- An iteration of the loop. -/
def opendirPass (curFd : Fd) : Option Nat → Opener Pass
  | none => throw .assertion
  | some thisSegment => do
      let m ← get
      match strchr slash (m.buffer.drop thisSegment) with
      | .error fault => throw (.fault fault)
      | .ok none => pure (.done curFd thisSegment)
      | .ok (some length) => cut dirfd thisSegment length curFd

def opendirLoop : Nat → Fd → Option Nat → Opener (Fd × Nat)
  | 0, _, _ => throw (.fault .outOfFuel)
  | fuel + 1, curFd, thisSegment => do
      match ← opendirPass dirfd curFd thisSegment with
      | .done curFd lastSegment => pure (curFd, lastSegment)
      | .next nextSegment curFd => opendirLoop fuel curFd nextSegment

/-- `opendir_safe`: the directory of the last segment, and where that is. -/
def opendirSafe : Option Nat → Opener (Fd × Nat)
  | none => throw .assertion
  | some path => do
      let m ← get
      if m.buffer.getD path 0 = 0 then
        throw .assertion
      else
        opendirLoop dirfd (m.buffer.length + 1) dirfd (some path)

/-- The iterations that a call begins. -/
inductive Iterates (start : Memory) (path : Nat) :
    Fd → Option Nat → Memory → Prop
  | first : Iterates start path dirfd (some path) start
  | next {curFd curFd' : Fd} {thisSegment nextSegment : Option Nat}
      {m m' : Memory} : Iterates start path curFd thisSegment m →
      (opendirPass dirfd curFd thisSegment).run m =
        .ok (.next nextSegment curFd') m' →
      Iterates start path curFd' nextSegment m'

end

/-! One segment. -/

section

variable {byte : UInt8} {segment rest : List UInt8}

theorem strchr_found (hbyte : byte ∉ segment) (hnul : (0 : UInt8) ∉ segment) :
    strchr byte (segment ++ byte :: rest) = .ok (some segment.length) := by
  induction segment with
  | nil => simp [strchr]
  | cons head tail ih =>
      rw [List.mem_cons, not_or] at hbyte hnul
      rw [List.cons_append, strchr, if_neg (Ne.symm hbyte.1),
        if_neg (Ne.symm hnul.1), ih hbyte.2 hnul.2]
      rfl

theorem strchr_end (hzero : byte ≠ 0) (hbyte : byte ∉ segment)
    (hnul : (0 : UInt8) ∉ segment) :
    strchr byte (segment ++ 0 :: rest) = .ok none := by
  induction segment with
  | nil => simp [strchr, Ne.symm hzero]
  | cons head tail ih =>
      rw [List.mem_cons, not_or] at hbyte hnul
      rw [List.cons_append, strchr, if_neg (Ne.symm hbyte.1),
        if_neg (Ne.symm hnul.1), ih hbyte.2 hnul.2]
      rfl

theorem stringAt_append (front : List UInt8) (hnul : (0 : UInt8) ∉ segment) :
    stringAt (front ++ (segment ++ 0 :: rest)) front.length = segment := by
  rw [stringAt, List.drop_left]
  exact CString.ofBuffer_bytes hnul rest

theorem set_append (front segment rest : List UInt8) (old byte : UInt8) :
    (front ++ (segment ++ old :: rest)).set (front.length + segment.length)
      byte = front ++ (segment ++ byte :: rest) := by
  rw [List.set_append_right _ _ (Nat.le_add_right _ _),
    Nat.add_sub_cancel_left, List.set_append_right _ _ (Nat.le_refl _),
    Nat.sub_self, List.set_cons_zero]

end

/-- What is closed when another directory has been opened. -/
def closing (dirfd curFd : Fd) : List Call :=
  if curFd ≠ dirfd then [.close curFd] else []

/-- The calls that open some directories, each in the one before, and close
each but the last. -/
inductive Descended (dirfd : Fd) : List Name → List Call → Fd → Prop
  | start : Descended dirfd [] [] dirfd
  | next {segments : List Name} {calls : List Call} {curFd : Fd}
      (segment : Name) (newFd : Nat) : Descended dirfd segments calls curFd →
      Descended dirfd (segments ++ [segment])
        (calls ++ .openat curFd segment (some newFd) :: closing dirfd curFd)
        (.fd newFd)

/-- The descriptors between two iterations: those of the caller, and no more
than one. -/
inductive OneMore (dirfd : Fd) (fds : List Nat) : Fd → List Nat → Prop
  | none : OneMore dirfd fds dirfd fds
  | one {n : Nat} : n ∉ fds → .fd n ≠ dirfd → OneMore dirfd fds (.fd n) (n :: fds)

/-- The directory of the caller is open. -/
def Valid (dirfd : Fd) (fds : List Nat) : Prop :=
  ∀ n, dirfd = .fd n → n ∈ fds

section

variable {dirfd curFd : Fd} {fds fds' : List Nat}
  {segment front rest : List UInt8} {m : Memory}

theorem OneMore.lowestFree_ne (h : OneMore dirfd fds curFd fds')
    (hdirfd : Valid dirfd fds) :
    lowestFree fds' ∉ fds ∧ .fd (lowestFree fds') ≠ dirfd := by
  have hnot := lowestFree_not_mem fds'
  have hfree : lowestFree fds' ∉ fds := by
    intro hmem
    cases h with
    | none => exact hnot hmem
    | one _ _ => exact hnot (List.mem_cons_of_mem _ hmem)
  exact ⟨hfree, fun heq => hfree (hdirfd _ heq.symm)⟩

theorem openat_rule (dirfd : Fd) (segment : List UInt8)
    (exit : Stop → Memory → Prop) :
    Triple (· = m) (openat dirfd segment)
      (fun result m' => m'.buffer = m.buffer ∧
        ((∃ errno, result = .error errno ∧
            m'.calls = m.calls ++ [.openat dirfd segment none]) ∨
          result = .ok (lowestFree m.fds) ∧
            m'.fds = lowestFree m.fds :: m.fds ∧
            m'.calls = m.calls ++
              [.openat dirfd segment (some (lowestFree m.fds))])) exit := by
  refine .get_bind fun m₀ hm₀ => ?_
  subst hm₀
  have htail : Triple (· = m₀)
      (modify fun m => { m with outcomes := m.outcomes.tail } : Opener Unit)
      (fun _ m => m = { m₀ with outcomes := m₀.outcomes.tail }) exit :=
    .modify fun _ h => h ▸ rfl
  refine htail.bind fun _ => ?_
  cases m₀.outcomes.headD none with
  | some errno =>
      rintro _ rfl
      exact ⟨rfl, Or.inl ⟨errno, rfl, rfl⟩⟩
  | none =>
      rintro _ rfl
      exact ⟨rfl, Or.inr ⟨rfl, rfl, rfl⟩⟩

/-- The directory before the last one is closed, unless it is the
caller's. -/
theorem closing_rule (hone : OneMore dirfd fds curFd fds')
    (hdirfd : Valid dirfd fds) (hfds : m.fds = lowestFree fds' :: fds')
    (exit : Stop → Memory → Prop) :
    Triple (· = m) (closeOther dirfd curFd)
      (fun _ m' => m'.buffer = m.buffer ∧
        OneMore dirfd fds (.fd (lowestFree fds')) m'.fds ∧
        m'.calls = m.calls ++ closing dirfd curFd) exit := by
  obtain ⟨hfree, hne⟩ := hone.lowestFree_ne hdirfd
  have hnot := lowestFree_not_mem fds'
  rw [closeOther, closing]
  cases hone with
  | none =>
      rw [if_neg (not_not.mpr rfl), if_neg (not_not.mpr rfl)]
      rintro _ rfl
      refine ⟨rfl, ?_, (List.append_nil _).symm⟩
      exact hfds ▸ .one hfree hne
  | @one n hn hcur =>
      rw [if_pos hcur, if_pos hcur]
      have hother : lowestFree (n :: fds) ≠ n :=
        fun heq => hnot (List.mem_cons.mpr (Or.inl heq))
      have herase : m.fds.erase n = lowestFree (n :: fds) :: fds := by
        rw [hfds, List.erase_cons_tail (by simpa using hother),
          List.erase_cons_head]
      intro m₀ hm₀
      subst hm₀
      refine ⟨rfl, ?_, rfl⟩
      change OneMore dirfd fds _ (m₀.fds.erase n)
      rw [herase]
      exact .one hfree hne

theorem descend_rule (hone : OneMore dirfd fds curFd m.fds)
    (hdirfd : Valid dirfd fds) {thisSegment nextSegment : Nat}
    (hsegment : stringAt m.buffer thisSegment = segment) :
    Triple (· = m) (descend dirfd thisSegment nextSegment curFd)
      (fun pass m' => ∃ newFd,
        pass = .next (some nextSegment) (.fd newFd) ∧
        m'.buffer = m.buffer ∧ OneMore dirfd fds (.fd newFd) m'.fds ∧
        m'.calls = m.calls ++ .openat curFd segment (some newFd) ::
          closing dirfd curFd)
      (fun stop m' => ∃ errno, stop = .doExit errno segment ∧
        m'.calls = m.calls ++ [.openat curFd segment none]) := by
  refine .get_bind fun m₀ hm₀ => ?_
  subst hm₀
  rw [hsegment]
  refine (openat_rule curFd segment _).bind fun result => ?_
  intro m₁ hm₁
  obtain ⟨hbuffer, ⟨errno, rfl, hcalls⟩ | ⟨rfl, hfds, hcalls⟩⟩ := hm₁
  · exact ⟨errno, rfl, hcalls⟩
  · refine (closing_rule hone hdirfd hfds _).bind (fun _ => Triple.ret ?_) m₁
      rfl
    rintro m₂ ⟨hbuffer', hone', hcalls'⟩
    refine ⟨_, rfl, hbuffer'.trans hbuffer, hone', ?_⟩
    rw [hcalls', hcalls, List.append_assoc]
    rfl

/-- An iteration over a segment with a slash behind it. -/
theorem opendirPass_next (hone : OneMore dirfd fds curFd m.fds)
    (hdirfd : Valid dirfd fds)
    (hbuffer : m.buffer = front ++ (segment ++ slash :: rest))
    (hslash : slash ∉ segment) (hnul : (0 : UInt8) ∉ segment)
    (hnormal : Normal segment) :
    Triple (· = m) (opendirPass dirfd curFd (some front.length))
      (fun pass m' => ∃ newFd,
        pass = .next (some (front.length + segment.length + 1)) (.fd newFd) ∧
        m'.buffer = front ++ (segment ++ 0 :: rest) ∧
        OneMore dirfd fds (.fd newFd) m'.fds ∧
        m'.calls = m.calls ++ .openat curFd segment (some newFd) ::
          closing dirfd curFd)
      (fun stop m' => ∃ errno, stop = .doExit errno segment ∧
        m'.calls = m.calls ++ [.openat curFd segment none]) := by
  have hcut : (m.setByte (front.length + segment.length) 0).buffer =
      front ++ (segment ++ 0 :: rest) := by
    rw [Memory.setByte, hbuffer, set_append]
  refine .get_bind fun m₀ hm₀ => ?_
  subst hm₀
  rw [hbuffer, List.drop_left, strchr_found hslash hnul]
  have hset : Triple (· = m₀)
      (modify fun m => m.setByte (front.length + segment.length) 0)
      (fun _ m => m = m₀.setByte (front.length + segment.length) 0)
      (fun stop m' => ∃ errno, stop = Stop.doExit errno segment ∧
        m'.calls = m₀.calls ++ [.openat curFd segment none]) :=
    .modify fun _ h => h ▸ rfl
  refine hset.bind fun _ => .get_bind fun m₁ hm₁ => ?_
  subst hm₁
  refine .ite (fun hdots => ?_) fun _ => ?_
  · rw [hcut, List.drop_left, List.take_left] at hdots
    exact absurd hdots (short_of_normal hnormal)
  · have hstring : stringAt
        (m₀.setByte (front.length + segment.length) 0).buffer front.length =
          segment := by
      rw [hcut]
      exact stringAt_append front hnul
    have hdescend := @descend_rule _ _ _ _
      (m₀.setByte (front.length + segment.length) 0) hone hdirfd _
      (front.length + segment.length + 1) hstring
    rw [hcut] at hdescend
    exact hdescend

/-- An iteration over a segment with the terminator behind it. -/
theorem opendirPass_done (hbuffer : m.buffer = front ++ (segment ++ 0 :: rest))
    (hslash : slash ∉ segment) (hnul : (0 : UInt8) ∉ segment)
    (exit : Stop → Memory → Prop) :
    Triple (· = m) (opendirPass dirfd curFd (some front.length))
      (fun pass m' => pass = .done curFd front.length ∧ m' = m) exit := by
  refine .get_bind fun m₀ hm₀ => ?_
  subst hm₀
  rw [hbuffer, List.drop_left, strchr_end (by decide) hslash hnul]
  exact .ret fun _ h => ⟨rfl, h⟩

end

end QubesUtils.OpendirSafe
