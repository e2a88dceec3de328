/-
Numbers in C strings: what the conversions of the C library do with a text.
A pointer is the memory from where it points up to the end of its object.
-/
import QubesUtils.Numeral
import QubesUtils.CString

namespace CNumber

open Numeral

/-- `isspace` in the C locale -/
def isSpace (byte : UInt8) : Bool :=
  byte == 0x20 || (0x09 ≤ byte && byte ≤ 0x0D)

def minus : UInt8 := 0x2D
def plus : UInt8 := 0x2B

/-- A sign that may be there: whether it is a minus, and what is behind. -/
def takeSign : List UInt8 → Bool × List UInt8
  | [] => (false, [])
  | byte :: rest =>
      if byte = minus then (true, rest)
      else if byte = plus then (false, rest)
      else (false, byte :: rest)

/-- A prefix `0x` that may be there, in front of a digit. -/
def dropHexPrefix : List UInt8 → List UInt8
  | first :: x :: byte :: rest =>
      if first = zero ∧ (x = 0x78 ∨ x = 0x58) ∧ isDigit 16 byte = true then
        byte :: rest
      else
        first :: x :: byte :: rest
  | text => text

/-- What a conversion gives: the number, where it stopped, and whether it has
set `errno` to `ERANGE`. -/
structure Converted where
  value : UInt64
  endp : List UInt8
  range : Bool
deriving DecidableEq

/-- `strtoull` in the bases that are used here. -/
def strtoull (p : List UInt8) (base : Nat) : Converted :=
  let signed := takeSign (p.dropWhile isSpace)
  let text := if base = 16 then dropHexPrefix signed.2 else signed.2
  let digits := text.takeWhile (isDigit base)
  let number := Numeral.value base digits
  if digits = [] then
    ⟨0, p, false⟩
  else if 2 ^ 64 ≤ number then
    ⟨0xFFFFFFFFFFFFFFFF, text.dropWhile (isDigit base), true⟩
  else
    ⟨if signed.1 then -UInt64.ofNat number else UInt64.ofNat number,
      text.dropWhile (isDigit base), false⟩

/-- A number as a `long long`, with the nearest one for what is too large. -/
def clamp (number : Int) : Int :=
  max (-2 ^ 63) (min number (2 ^ 63 - 1))

/-- `strtoll` in base 10: the number and what is behind it, or nothing where
there is no digit. -/
def strtoll (p : List UInt8) : Option (Int × List UInt8) :=
  let signed := takeSign (p.dropWhile isSpace)
  let digits := signed.2.takeWhile (isDigit 10)
  let number : Int := Numeral.value 10 digits
  if digits = [] then none
  else some (clamp (if signed.1 then -number else number),
    signed.2.dropWhile (isDigit 10))

section

variable {base : Nat} {text rest : List UInt8}

/-- A digit is neither a blank nor a sign. -/
theorem not_space_of_digit {byte : UInt8} (h : isDigit 16 byte = true) :
    isSpace byte = false ∧ byte ≠ minus ∧ byte ≠ plus := by
  revert byte
  apply forall_byte
  decide +kernel

theorem isDigit_mono {base' : Nat} {byte : UInt8} (hle : base ≤ base')
    (h : isDigit base byte = true) : isDigit base' byte = true := by
  rw [isDigit] at h ⊢
  cases hvalue : digitValue byte with
  | none =>
      rw [hvalue] at h
      cases h
  | some n =>
      rw [hvalue] at h
      exact decide_eq_true (Nat.lt_of_lt_of_le (of_decide_eq_true h) hle)

/-- A text that begins with a digit, but with no zero. -/
theorem strtoull_digit {byte : UInt8} (hbase : base ≤ 16)
    (hbyte : isDigit base byte = true) (hzero : byte ≠ zero) :
    strtoull (byte :: rest) base =
      if 2 ^ 64 ≤ Numeral.value base
          ((byte :: rest).takeWhile (isDigit base)) then
        ⟨0xFFFFFFFFFFFFFFFF, (byte :: rest).dropWhile (isDigit base), true⟩
      else
        ⟨UInt64.ofNat (Numeral.value base
            ((byte :: rest).takeWhile (isDigit base))),
          (byte :: rest).dropWhile (isDigit base), false⟩ := by
  obtain ⟨hspace, hminus, hplus⟩ :=
    not_space_of_digit (isDigit_mono hbase hbyte)
  have hsign : takeSign ((byte :: rest).dropWhile isSpace) =
      (false, byte :: rest) := by
    rw [List.dropWhile_cons_of_neg (by simp [hspace]), takeSign,
      if_neg hminus, if_neg hplus]
  have hbegins : dropHexPrefix (byte :: rest) = byte :: rest := by
    cases rest with
    | nil => rfl
    | cons x rest =>
        cases rest with
        | nil => rfl
        | cons next rest =>
            rw [dropHexPrefix, if_neg fun h => hzero h.1]
  have hdigits : (byte :: rest).takeWhile (isDigit base) ≠ [] := by
    rw [List.takeWhile_cons_of_pos hbyte]
    exact List.cons_ne_nil _ _
  rw [strtoull, hsign]
  simp only [hbegins, ite_self, if_neg hdigits, Bool.false_eq_true, if_false]

end

end CNumber
