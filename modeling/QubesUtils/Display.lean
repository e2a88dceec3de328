/-
The two display functions of `qrexec-lib/unicode.c`: the check of a string
and the sanitizer.  The bytes of the result buffer are written one by one,
and a write outside the buffer is a fault.
-/
import QubesUtils.Pure

namespace QubesUtils

/-- The body of the `do` loop of `qubes_pure_string_safe_for_display`: the
next index, or `return false`. -/
def stringSafeStep (table : AllowTable) (s : CString) (i : Nat) :
    Except Fault (Option Nat) := do
  let c ← s.byteAt i
  if 0x20 ≤ c ∧ c ≤ 0x7E then
    .ok (some (i + 1))
  else do
    let utf8Ret ← validateUtf8CharSafeForDisplay table s i
    .ok (if 0 < utf8Ret then some (i + utf8Ret) else none)

/-- `do ... while (untrusted_str[i])` -/
def stringSafeLoop (table : AllowTable) (s : CString) :
    Nat → Nat → Except Fault Bool
  | 0, _ => .error .outOfFuel
  | fuel + 1, i => do
      let step ← stringSafeStep table s i
      match step with
      | none => .ok false
      | some i => do
          let c ← s.byteAt i
          if c ≠ 0 then stringSafeLoop table s fuel i else .ok true

def qubesPureStringSafeForDisplay (table : AllowTable) (s : CString)
    (lineLength : Nat) : Except Fault Bool :=
  if lineLength = 0 then
    stringSafeLoop table s (s.bytes.length + 1) 0
  else
    .error .assertion

def underscore : UInt8 := 0x5F

/-- `result[j] = byte` -/
def storeByte (result : List UInt8) (j : Nat) (byte : UInt8) :
    Except Fault (List UInt8) :=
  if j < result.length then .ok (result.set j byte)
  else .error .outOfBounds

theorem storeByte_append (written blank : List UInt8) (old byte : UInt8) :
    storeByte (written ++ old :: blank) written.length byte =
      .ok ((written ++ [byte]) ++ blank) := by
  rw [storeByte, if_pos (by simp)]
  simp

/-- The locals of `qubes_pure_sanitize_string_safe_for_display`. -/
structure SanitizeState where
  i : Nat
  j : Nat
  result : List UInt8
deriving DecidableEq, Repr

/-- `for (k = 0; k < utf8_ret; k++) result[j++] = untrusted_str[i++];` -/
def sanitizeKeep (s : CString) :
    Nat → SanitizeState → Except Fault SanitizeState
  | 0, state => .ok state
  | k + 1, state => do
      let c ← s.byteAt state.i
      let result ← storeByte state.result state.j c
      sanitizeKeep s k ⟨state.i + 1, state.j + 1, result⟩

/-- The loop body; `none` is the `break`. -/
def sanitizeStep (table : AllowTable) (s : CString)
    (maxTextLineLength : Nat) (state : SanitizeState) :
    Except Fault (Option SanitizeState) := do
  let c ← s.byteAt state.i
  if 0x20 ≤ c ∧ c ≤ 0x7E then do
    let result ← storeByte state.result state.j c
    .ok (some ⟨state.i + 1, state.j + 1, result⟩)
  else do
    let utf8Ret ← validateUtf8CharAndReturnLen table s state.i
    if utf8Ret < 0 then do
      let result ← storeByte state.result state.j underscore
      .ok (some ⟨state.i + (-utf8Ret).toNat, state.j + 1, result⟩)
    else if maxTextLineLength - state.j ≤ utf8Ret.toNat then
      .ok none
    else do
      let state ← sanitizeKeep s utf8Ret.toNat state
      .ok (some state)

/-- `while (untrusted_str[i] && j < max_text_line_length)` -/
def sanitizeLoop (table : AllowTable) (s : CString)
    (maxTextLineLength : Nat) :
    Nat → SanitizeState → Except Fault SanitizeState
  | 0, _ => .error .outOfFuel
  | fuel + 1, state => do
      let c ← s.byteAt state.i
      if c ≠ 0 ∧ state.j < maxTextLineLength then do
        let step ← sanitizeStep table s maxTextLineLength state
        match step with
        | none => .ok state
        | some state => sanitizeLoop table s maxTextLineLength fuel state
      else
        .ok state

/-- The bytes of the buffer afterwards, and the returned length. -/
def qubesPureSanitizeStringSafeForDisplay (table : AllowTable) (s : CString)
    (result : List UInt8) (maxLineLength : Nat) :
    Except Fault (List UInt8 × Nat) := do
  if maxLineLength = 0 then
    .ok (result, 0)
  else do
    let maxTextLineLength := maxLineLength - 1
    let state ← sanitizeLoop table s maxTextLineLength (s.bytes.length + 1)
      ⟨0, 0, result⟩
    let result ← storeByte state.result state.j 0
    .ok (result, state.j + 1)

end QubesUtils
