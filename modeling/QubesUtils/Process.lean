/-
A process and its system calls on the two pipes: descriptor 0, descriptor 1,
`errno` and the checksum.  What the kernel decides is read off a list of
outcomes, one for each call; the loops of `ioall.c` and `copy-file.c` work
over them.
-/
import QubesUtils.Wire
import QubesUtils.FileSystem
import QubesUtils.Crc32

namespace QubesUtils

open ByteCodec

def EINTR : Nat := 4
def EAGAIN : Nat := 11
def EDQUOT : Nat := 122

/-- What the kernel makes of one call: an error, a transfer that is empty, or
a time and a bound on the bytes that are transferred. -/
structure Outcome where
  error : Option Errno
  empty : Bool
  amount : Nat
  now : Timespec

/-- A call that does all it is asked to do. -/
def Outcome.plain : Outcome := ⟨none, false, 65535, ⟨0, 0⟩⟩

def Outcome.interrupted (outcome : Outcome) : Bool :=
  outcome.error == some (errnoOf EINTR)

/-- The bytes that a `write` takes at most. -/
def Outcome.count (outcome : Outcome) : Nat :=
  if outcome.empty then 0 else outcome.amount + 1

@[simp] theorem Outcome.count_of_not_empty {outcome : Outcome}
    (h : outcome.empty = false) : outcome.count = outcome.amount + 1 := by
  rw [count, h]
  rfl

/-- What a process does that the other side or the environment can notice. -/
inductive Event
  | read (data : List UInt8)
  | write (data : List UInt8)
  | processed (header : FileHeader) (name : List UInt8)
  | synced
deriving DecidableEq

/-- What is reported in front of `exit(1)`. -/
inductive Message
  | alreadyExists (lastFilename : List UInt8)
  | corruptedData (lastFilename : List UInt8)
  | forbiddenCharacter (lastFilename : List UInt8)
  | brokenLink (lastFilename : List UInt8)
  | fileCopy (errorCode : UInt32) (lastFilename : List UInt8)
  | checksumMismatch
  | copying (filename : List UInt8) (readError : Bool)
  | stat (filename : List UInt8)
  | open (filename : List UInt8)
  | readlink (filename : List UInt8)
  | opendir (filename : List UInt8)
  | invalidNanoseconds (value : UInt32)
deriving DecidableEq

/-- The ways in which a process ends early. -/
inductive Exit
  | exit (code : UInt32)
  | message (message : Message)
  | abort
  | fault (fault : Fault)
  | outOfFuel
deriving DecidableEq

/-- A process with static variables of type `σ`. -/
structure World (σ : Type) where
  stdin : List UInt8
  nonblocking : Bool
  outcomes : List Outcome
  errno : UInt32
  crc32Sum : UInt64
  trace : List Event
  statics : σ

abbrev Process (σ : Type) := EStateM Exit (World σ)

namespace Process

variable {σ : Type}

def nextOutcome : Process σ Outcome :=
  modifyGet fun w =>
    (w.outcomes.headD .plain, { w with outcomes := w.outcomes.tail })

def setErrno (errno : UInt32) : Process σ Unit :=
  modify fun w => { w with errno }

def emit (event : Event) : Process σ Unit :=
  modify fun w => { w with trace := w.trace ++ [event] }

/-- A call that fails, or succeeds and leaves everything alone. -/
def attempt : Process σ (Option Outcome) := do
  let outcome ← nextOutcome
  match outcome.error with
  | some errno => do
      setErrno errno.value
      pure none
  | none => pure (some outcome)

def liftFault {α : Type} : Except Fault α → Process σ α
  | .ok a => pure a
  | .error fault => throw (.fault fault)

/-- `set_block(0)` -/
def setBlock : Process σ Unit :=
  modify fun w => { w with nonblocking := false }

inductive ReadResult
  | data (bytes : List UInt8)
  | eof
  | error

/-- The bytes that a `read` finds, or the end of the stream. -/
def arrive (count : Nat) : Process σ ReadResult := do
  let w ← get
  if w.stdin = [] then
    if w.nonblocking then do
      setErrno (UInt32.ofNat EAGAIN)
      pure .error
    else
      pure .eof
  else do
    modify fun w => { w with stdin := w.stdin.drop count }
    emit (Event.read (w.stdin.take count))
    pure (.data (w.stdin.take count))

/-- `read(0, buf, count)` for a positive count.  A blocking descriptor waits
where a non-blocking one fails with `EAGAIN`. -/
def read (count : Nat) : Process σ ReadResult := do
  let outcome ← nextOutcome
  match outcome.error with
  | some errno => do
      let w ← get
      if errno = errnoOf EAGAIN ∧ w.nonblocking = false then
        arrive count
      else do
        setErrno errno.value
        pure .error
  | none =>
      if outcome.empty then pure .eof
      else arrive (min count (outcome.amount + 1))

/-- `write(1, buf, count)` for a positive count: the number of bytes that
were taken, which may be 0. -/
def writeStdout (data : List UInt8) : Process σ (Option Nat) := do
  let outcome ← nextOutcome
  match outcome.error with
  | some errno => do
      setErrno errno.value
      pure none
  | none => do
      let part := data.take outcome.count
      emit (.write part)
      pure (some part.length)

/-- `if (ret == -1 && errno == EINTR) continue;`: the calls in front of the
one that is not interrupted. -/
def retryInterrupted : Process σ Unit :=
  modify fun w => { w with
    errno := if (w.outcomes.headD .plain).interrupted
      then UInt32.ofNat EINTR else w.errno
    outcomes := w.outcomes.dropWhile Outcome.interrupted }

/-- `if (got_read == 0) set_block(fd);` -/
def blockAfterFirst (got : List UInt8) : Process σ Unit :=
  if got = [] then setBlock else pure ()

/-- The loop of `read_all`; every pass reads a byte or is the last. -/
def readAllLoop : Nat → Nat → List UInt8 → Process σ (Option (List UInt8))
  | 0, _, got => pure (some got)
  | fuel + 1, missing, got =>
      if missing = 0 then
        pure (some got)
      else do
        retryInterrupted
        match ← read missing with
        | .eof => do
            setErrno 0
            pure none
        | .error => pure none
        | .data bytes => do
            blockAfterFirst got
            readAllLoop fuel (missing - bytes.length) (got ++ bytes)

/-- `read_all`, with the bytes of a read that is complete. -/
def readAll (size : Nat) : Process σ (Option (List UInt8)) :=
  readAllLoop size size []

/-- The loop of `write_all`.  A write that takes nothing ends it like one that
fails, but leaves `errno` as it was. -/
def writeAllLoop (write : List UInt8 → Process σ (Option Nat)) :
    Nat → List UInt8 → Process σ Bool
  | 0, _ => pure true
  | fuel + 1, rest =>
      if rest = [] then
        pure true
      else do
        retryInterrupted
        match ← write rest with
        | none => pure false
        | some count =>
            if count = 0 then pure false
            else writeAllLoop write fuel (rest.drop count)

def writeAll (write : List UInt8 → Process σ (Option Nat))
    (data : List UInt8) : Process σ Bool :=
  writeAllLoop write data.length data

def addCrc (data : List UInt8) : Process σ Unit :=
  modify fun w => { w with crc32Sum := crc32ComputeBuf w.crc32Sum data }

/-- `read_all_with_crc` -/
def readAllWithCrc (size : Nat) : Process σ (Option (List UInt8)) := do
  match ← readAll size with
  | none => pure none
  | some bytes => do
      addCrc bytes
      pure (some bytes)

/-- `write_all_with_crc` -/
def writeAllWithCrc (data : List UInt8) : Process σ Bool := do
  addCrc data
  writeAll writeStdout data

inductive CopyStatus
  | ok
  | readEof
  | readError
  | writeError
deriving DecidableEq

/-- The loop of `copy_file`, between two descriptors. -/
def copyFileLoop (read : Nat → Process σ ReadResult)
    (write : List UInt8 → Process σ (Option Nat)) :
    Nat → Nat → Process σ CopyStatus
  | 0, _ => pure .ok
  | fuel + 1, missing =>
      if missing = 0 then
        pure .ok
      else do
        match ← read (min missing 4096) with
        | .eof => pure .readEof
        | .error => pure .readError
        | .data bytes => do
            addCrc bytes
            if ← writeAll write bytes then
              copyFileLoop read write fuel (missing - bytes.length)
            else
              pure .writeError

def copyFile (read : Nat → Process σ ReadResult)
    (write : List UInt8 → Process σ (Option Nat)) (size : Nat) :
    Process σ CopyStatus :=
  copyFileLoop read write size size

/-- The loop of `copy_fd_all`; every pass reads a byte or is the last. -/
def copyFdAllLoop : Nat → Process σ Bool
  | 0 => throw .outOfFuel
  | fuel + 1 => do
      retryInterrupted
      match ← read 4096 with
      | .eof => pure true
      | .error => pure false
      | .data bytes =>
          if ← writeAll writeStdout bytes then
            copyFdAllLoop fuel
          else
            pure false

/-- `copy_fd_all(1, 0)` -/
def copyFdAll : Process σ Bool := do
  let w ← get
  copyFdAllLoop (w.stdin.length + 1)

end Process

end QubesUtils
