/-
The path validators of `qrexec-lib/unicode.c`.  Each loop is translated with
its index arithmetic; the terminator, out-of-bounds reads and unreachable
statements are kept, so that their absence is a theorem.
-/
import QubesUtils.AllowTable
import QubesUtils.CString

namespace QubesUtils

def ENOENT : Nat := 2
def EEXIST : Nat := 17
def EINVAL : Nat := 22
def ENOLINK : Nat := 67
def EILSEQ : Nat := 84

def slash : UInt8 := 0x2F
def dot : UInt8 := 0x2E

/-- The `enum QubesFilenameValidationFlags`. -/
abbrev Flags := BitVec 32

def qubesPureAllowUnsafeCharacters : Flags := 1#32 <<< 0
def qubesPureAllowNonCanonicalSymlinks : Flags := 1#32 <<< 1
def qubesPureAllowUnsafeSymlinks : Flags := 1#32 <<< 2
def qubesPureAllowNonCanonicalPaths : Flags := 1#32 <<< 3
def qubesPureAllowTrailingSlash : Flags := 1#32 <<< 4

/-- `(flags & bit) != 0` -/
def hasFlag (flags bit : Flags) : Bool := flags &&& bit != 0#32

/-- The `while (tails_count-- > 0)` loop; `i` is the byte consumed last. -/
def utf8Tails (table : AllowTable) (s : CString) (totalSize : Nat) :
    Nat → Nat → Nat → Except Fault Int
  | 0, _, codePoint =>
      .ok (if qubesPureCodePointSafeForDisplay table codePoint
        then (totalSize : Int) else -(totalSize : Int))
  | tailsCount + 1, i, codePoint => do
      let c ← s.byteAt (i + 1)
      if 0x80 ≤ c ∧ c ≤ 0xBF then
        utf8Tails table s totalSize tailsCount (i + 1)
          (codePoint <<< 6 ||| (c &&& 0x3F).toNat)
      else
        .ok (-1)

/-- Bytes of the character at `i`, or minus that number if it is invalid or
not safe to display. -/
def validateUtf8CharAndReturnLen (table : AllowTable) (s : CString)
    (i : Nat) : Except Fault Int := do
  let c ← s.byteAt i
  if 0xC2 ≤ c ∧ c ≤ 0xDF then
    utf8Tails table s 2 1 i (c &&& 0x1F).toNat
  else if c = 0xE0 then do
    let d ← s.byteAt (i + 1)
    if 0xA0 ≤ d ∧ d ≤ 0xBF then
      utf8Tails table s 3 1 (i + 1) (d &&& 0x3F).toNat
    else
      .ok (-1)
  else if 0xE1 ≤ c ∧ c ≤ 0xEF then
    utf8Tails table s 3 2 i (c &&& 0xF).toNat
  else if c = 0xF0 then do
    let d ← s.byteAt (i + 1)
    if 0x90 ≤ d ∧ d ≤ 0xBF then
      utf8Tails table s 4 2 (i + 1) (d &&& 0x3F).toNat
    else
      .ok (-1)
  else if 0xF1 ≤ c ∧ c ≤ 0xF4 then
    utf8Tails table s 4 3 i (c &&& 0x7).toNat
  else
    .ok (-1)

def validateUtf8CharSafeForDisplay (table : AllowTable) (s : CString)
    (i : Nat) : Except Fault Nat := do
  let result ← validateUtf8CharAndReturnLen table s i
  return if 0 < result then result.toNat else 0

/-- What one pass through the body of the `for` loop of `validate_path` does:
go on with the next index, or return. -/
inductive PathStep
  | next (i allowedLeadingDotdot nonDotdotComponents : Nat)
  | ret (value : Int)
deriving DecidableEq, Repr

/-- The second half of the loop body: a character inside a component. -/
def validatePathCharacter (table : AllowTable) (s : CString) (flags : Flags)
    (i allowedLeadingDotdot nonDotdotComponents : Nat) :
    Except Fault PathStep := do
  let c ← s.byteAt i
  if c = 0 then
    .error .assertion
  else if (0x20 ≤ c ∧ c ≤ 0x7E) ∨
      hasFlag flags qubesPureAllowUnsafeCharacters = true then
    .ok (.next (i + 1) allowedLeadingDotdot nonDotdotComponents)
  else do
    let utf8Ret ← validateUtf8CharSafeForDisplay table s i
    if 0 < utf8Ret then
      .ok (.next (i + (utf8Ret - 1) + 1) allowedLeadingDotdot
        nonDotdotComponents)
    else
      .ok (.ret (-EILSEQ))

/-- The loop body at the start of a path component. -/
def validatePathComponent (table : AllowTable) (s : CString) (flags : Flags)
    (i allowedLeadingDotdot nonDotdotComponents : Nat) :
    Except Fault PathStep := do
  let allowNonCanonical := hasFlag flags qubesPureAllowNonCanonicalPaths
  let c ← s.byteAt i
  if c = 0 then
    .error .assertion
  else if c = slash then
    if allowNonCanonical then
      .ok (.next (i + 1) allowedLeadingDotdot nonDotdotComponents)
    else
      .ok (.ret (-EILSEQ))
  else if c = dot then do
    let c₁ ← s.byteAt (i + 1)
    if c₁ = 0 ∨ c₁ = slash then
      if allowNonCanonical then
        .ok (.next (i + 1) allowedLeadingDotdot nonDotdotComponents)
      else
        .ok (.ret (-EILSEQ))
    else if c₁ = dot then do
      let c₂ ← s.byteAt (i + 2)
      if c₂ = 0 ∨ c₂ = slash then
        if allowedLeadingDotdot < 1 then
          .ok (.ret (-ENOLINK))
        else
          .ok (.next (i + 1 + 1) (allowedLeadingDotdot - 1)
            nonDotdotComponents)
      else
        validatePathCharacter table s flags i 0 (nonDotdotComponents + 1)
    else
      validatePathCharacter table s flags i 0 (nonDotdotComponents + 1)
  else
    validatePathCharacter table s flags i 0 (nonDotdotComponents + 1)

def validatePathBody (table : AllowTable) (s : CString) (flags : Flags)
    (i allowedLeadingDotdot nonDotdotComponents : Nat) :
    Except Fault PathStep := do
  let atStart ← if i = 0 then pure true else do
    let previous ← s.byteAt (i - 1)
    pure (previous == slash)
  if atStart then
    validatePathComponent table s flags i allowedLeadingDotdot
      nonDotdotComponents
  else
    validatePathCharacter table s flags i allowedLeadingDotdot
      nonDotdotComponents

/-- What follows the loop. -/
def validatePathEnd (s : CString) (flags : Flags)
    (i nonDotdotComponents : Nat) : Except Fault Int := do
  let c ← s.byteAt i
  if i < 1 ∨ c ≠ 0 then
    .error .assertion
  else do
    let last ← s.byteAt (i - 1)
    if hasFlag flags qubesPureAllowTrailingSlash = false ∧ last = slash then
      .ok (-EILSEQ)
    else
      .ok nonDotdotComponents

/-- `for (i = 0; untrusted_name[i]; i++)`.  Every pass advances `i`, so that
the length of the string is fuel enough. -/
def validatePathLoop (table : AllowTable) (s : CString) (flags : Flags) :
    Nat → Nat → Nat → Nat → Except Fault Int
  | 0, _, _, _ => .error .outOfFuel
  | fuel + 1, i, allowedLeadingDotdot, nonDotdotComponents => do
      let c ← s.byteAt i
      if c = 0 then
        validatePathEnd s flags i nonDotdotComponents
      else do
        let step ← validatePathBody table s flags i allowedLeadingDotdot
          nonDotdotComponents
        match step with
        | .ret value => .ok value
        | .next i allowedLeadingDotdot nonDotdotComponents =>
            validatePathLoop table s flags fuel i allowedLeadingDotdot
              nonDotdotComponents

/-- The number of components that are not `..`, or a negative errno. -/
def validatePath (table : AllowTable) (s : CString)
    (allowedLeadingDotdot : Nat) (flags : Flags) : Except Fault Int := do
  let c ← s.byteAt 0
  if c = 0 then
    .ok (if hasFlag flags qubesPureAllowNonCanonicalPaths
      then 0 else -ENOLINK)
  else if c = slash then
    .ok (-ENOLINK)
  else
    validatePathLoop table s flags (s.bytes.length + 1) 0
      allowedLeadingDotdot 0

def flagCheck (flags : Flags) : Bool :=
  let allowed := qubesPureAllowUnsafeCharacters |||
    qubesPureAllowNonCanonicalSymlinks ||| qubesPureAllowNonCanonicalPaths |||
    qubesPureAllowTrailingSlash ||| qubesPureAllowUnsafeSymlinks
  flags &&& ~~~allowed == 0#32

def qubesPureValidateFileNameV2 (table : AllowTable) (filename : CString)
    (flags : Flags) : Except Fault Int := do
  if flagCheck flags = false then
    .ok (-EINVAL)
  else do
    let res ← validatePath table filename 0 flags
    .ok (if 0 < res then 0 else -EILSEQ)

def qubesPureValidateFileName (table : AllowTable) (filename : CString) :
    Except Fault Bool := do
  let res ← qubesPureValidateFileNameV2 table filename
    qubesPureAllowTrailingSlash
  .ok (res == 0)

def qubesPureValidateSymbolicLinkV2 (table : AllowTable)
    (name target : CString) (flags : Flags) : Except Fault Int := do
  if flagCheck flags = false then
    .ok (-EINVAL)
  else do
    let depth ← validatePath table name 0 flags
    if depth < 0 then
      .ok (-EILSEQ)
    else if hasFlag flags qubesPureAllowUnsafeSymlinks then
      .ok (if 0 < depth then 0 else -ENOLINK)
    else do
      let flags := if hasFlag flags qubesPureAllowNonCanonicalSymlinks
        then flags ||| qubesPureAllowNonCanonicalPaths else flags
      if depth < 2 then
        .ok (-ENOLINK)
      else do
        let res ← validatePath table target (depth - 2).toNat
          (flags ||| qubesPureAllowTrailingSlash)
        .ok (if res < 0 then res else 0)

def qubesPureValidateSymbolicLink (table : AllowTable)
    (name target : CString) : Except Fault Bool := do
  let res ← qubesPureValidateSymbolicLinkV2 table name target
    qubesPureAllowTrailingSlash
  .ok (res == 0)

end QubesUtils
