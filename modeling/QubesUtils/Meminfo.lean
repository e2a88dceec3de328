/-
`parse` of `meminfo-writer.c`: the loop over the lines of a buffer, and what
of the readings is given to the memory manager.
-/
import QubesUtils.CNumber

namespace QubesUtils.Meminfo

open CNumber

/-! The lines. -/

/-- What `sscanf` with the format `%*s %lld kB\n%n` makes of a text: the
number, if it returns 1, and the length, if it comes to `%n`. -/
structure Scan where
  value : Option Int
  consumed : Option Nat
deriving DecidableEq

/-- `kB` and the blanks behind it. -/
def takeUnit : List UInt8 → Option (List UInt8)
  | k :: b :: rest =>
      if k = 0x6B ∧ b = 0x42 then some (rest.dropWhile isSpace) else none
  | _ => none

def sscanf (text : List UInt8) : Scan :=
  let word := text.dropWhile isSpace
  if word = [] then ⟨none, none⟩
  else
    match strtoll (word.dropWhile fun byte => !isSpace byte) with
    | none => ⟨none, none⟩
    | some (value, rest) =>
        ⟨some value, (takeUnit (rest.dropWhile isSpace)).map
          fun rest => text.length - rest.length⟩

inductive Key
  | memTotal
  | memFree
  | buffers
  | cached
  | swapTotal
  | swapFree
deriving DecidableEq

namespace Key

/-- The first eight bytes of `MemTotal:`, `MemFree:`, `Buffers:`, `Cached:  `,
`SwapTotal:` and `SwapFree:`. -/
def text : Key → List UInt8
  | memTotal => [0x4D, 0x65, 0x6D, 0x54, 0x6F, 0x74, 0x61, 0x6C]
  | memFree => [0x4D, 0x65, 0x6D, 0x46, 0x72, 0x65, 0x65, 0x3A]
  | buffers => [0x42, 0x75, 0x66, 0x66, 0x65, 0x72, 0x73, 0x3A]
  | cached => [0x43, 0x61, 0x63, 0x68, 0x65, 0x64, 0x3A, 0x20]
  | swapTotal => [0x53, 0x77, 0x61, 0x70, 0x54, 0x6F, 0x74, 0x61]
  | swapFree => [0x53, 0x77, 0x61, 0x70, 0x46, 0x72, 0x65, 0x65]

/-- The number of the bit in `nitems`. -/
def index : Key → Nat
  | memTotal => 0
  | memFree => 1
  | buffers => 2
  | cached => 3
  | swapTotal => 4
  | swapFree => 5

def all : List Key := [memTotal, memFree, buffers, cached, swapTotal, swapFree]

end Key

/-- The key that is compared equal to eight bytes of a text. -/
def keyAt (text : List UInt8) : Option Key :=
  Key.all.find? fun key => key.text.isPrefixOf text

structure Reading where
  memTotal : Int
  memFree : Int
  buffers : Int
  cached : Int
  swapTotal : Int
  swapFree : Int
deriving DecidableEq

def Reading.set (reading : Reading) (value : Int) : Key → Reading
  | .memTotal => { reading with memTotal := value }
  | .memFree => { reading with memFree := value }
  | .buffers => { reading with buffers := value }
  | .cached => { reading with cached := value }
  | .swapTotal => { reading with swapTotal := value }
  | .swapFree => { reading with swapFree := value }

/-- The variables of the loop. -/
structure Parser where
  ptr : Int
  len : Int
  nitems : Nat
  reading : Reading
deriving DecidableEq

/-- The loop begins with whatever `len` holds. -/
def Parser.start (len : Int) : Parser := ⟨0, len, 0, ⟨0, 0, 0, 0, 0, 0⟩⟩

def Parser.store (p : Parser) (value : Int) : Option Key → Parser
  | none => p
  | some key =>
      { p with
        nitems := p.nitems ||| 2 ^ key.index
        reading := p.reading.set value key }

def Parser.advance (p : Parser) (len : Int) : Parser :=
  { p with ptr := p.ptr + len, len := len }

/-- The body of the loop, for the text from `ptr` on. -/
def readLine (text : List UInt8) (p : Parser) : Parser :=
  let scan := sscanf text
  let len := scan.consumed.elim p.len Int.ofNat
  match scan.value with
  | none => p.advance len
  | some value =>
      if len < 8 then p.advance len
      else (p.store value (keyAt text)).advance len

/-- The loop; where `ptr` is used outside the buffer it has left it. -/
def parseLoop (buffer : CString) : Nat → Parser → Except Fault Parser
  | 0, _ => .error .outOfFuel
  | fuel + 1, p =>
      if p.ptr < 0 ∨ p.ptr > buffer.bytes.length then .error .outOfBounds
      else
        let text := buffer.bytes.drop p.ptr.toNat
        if p.nitems ≠ 63 ∨ text = [] then
          parseLoop buffer fuel (readLine text p)
        else .ok p

/-! The readings. -/

/-- A `long long`. -/
def wrap (n : Int) : Int := (n + 2 ^ 63) % 2 ^ 64 - 2 ^ 63

/-- What another domain has been given stands for all memory. -/
def Reading.setTotal (reading : Reading) (domCurrentBuf : Option CString) :
    Reading :=
  match domCurrentBuf.bind fun buf => strtoll buf.bytes with
  | none => reading
  | some (domTotal, _) =>
      if domTotal ≠ 0 then { reading with memTotal := domTotal } else reading

def Reading.usedMem (reading : Reading) : Int :=
  wrap (reading.memTotal - reading.buffers - reading.cached - reading.memFree
    + reading.swapTotal - reading.swapFree)

def Reading.usedSwap (reading : Reading) : Int :=
  wrap (reading.swapTotal - reading.swapFree)

/-- The static variables. -/
structure Writer where
  prevUsedMem : Int
  prevUsedSwap : Int
deriving DecidableEq

/-- `UsedMem`; a number stands for its text. -/
structure UsedMem where
  mem : Option Int
  swap : Option Int
deriving DecidableEq

def absDiff (used prev : Int) : Int :=
  let diff := wrap (used - prev)
  if diff < 0 then wrap (-diff) else diff

section

variable (threshold : Int)

def publishMem (reading : Reading) (w : Writer) : Writer × Option Int :=
  let usedMem := reading.usedMem
  let diff := absDiff usedMem w.prevUsedMem
  if usedMem ≥ 0 ∧ (diff > threshold ∨ w.prevUsedMem = 0 ∨
      (usedMem > w.prevUsedMem ∧
        usedMem.tdiv 10 > (wrap (reading.memTotal + 12)).tdiv 13 ∧
        diff > threshold.tdiv 2)) then
    ({ w with prevUsedMem := usedMem }, some usedMem)
  else
    (w, none)

def publishSwap (reading : Reading) (w : Writer) : Option Int :=
  let usedSwap := reading.usedSwap
  if usedSwap ≥ 0 ∧ (absDiff usedSwap w.prevUsedSwap > threshold ∨
      w.prevUsedSwap = 0) then
    some usedSwap
  else
    none

/-- What `parse` does behind the loop. -/
def publish (reading : Reading) (w : Writer) : Writer × UsedMem :=
  let written := publishMem threshold reading w
  (written.1, ⟨written.2, publishSwap threshold reading written.1⟩)

/-- `parse` -/
def parse (meminfoBuf : CString) (domCurrentBuf : Option CString) (len : Int)
    (fuel : Nat) (w : Writer) : Except Fault (Writer × UsedMem) := do
  let p ← parseLoop meminfoBuf fuel (.start len)
  pure (publish threshold (p.reading.setTotal domCurrentBuf) w)

end

end QubesUtils.Meminfo
