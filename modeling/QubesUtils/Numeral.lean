/-
Numerals: the digits of a number in a base of at most sixteen, as text, and
the number that a text of digits stands for.
-/
import Mathlib.Data.Nat.Digits.Lemmas

namespace Numeral

/-! Digits. -/

def zero : UInt8 := 0x30

/-- The digit that stands for a number below sixteen. -/
def digit (n : Nat) : UInt8 :=
  if n < 10 then UInt8.ofNat (0x30 + n) else UInt8.ofNat (0x61 + (n - 10))

/-- What a digit stands for, in lower or in upper case. -/
def digitValue (byte : UInt8) : Option Nat :=
  if 0x30 ≤ byte ∧ byte ≤ 0x39 then some (byte.toNat - 0x30)
  else if 0x61 ≤ byte ∧ byte ≤ 0x66 then some (byte.toNat - 0x61 + 10)
  else if 0x41 ≤ byte ∧ byte ≤ 0x46 then some (byte.toNat - 0x41 + 10)
  else none

def isDigit (base : Nat) (byte : UInt8) : Bool :=
  (digitValue byte).any (· < base)

theorem digitValue_digit {n : Nat} (h : n < 16) :
    digitValue (digit n) = some n := by
  have hall : ∀ n : Fin 16, digitValue (digit n) = some n.val := by decide
  exact hall ⟨n, h⟩

theorem isDigit_digit {base n : Nat} (hbase : base ≤ 16) (h : n < base) :
    isDigit base (digit n) = true := by
  rw [isDigit, digitValue_digit (Nat.lt_of_lt_of_le h hbase)]
  exact decide_eq_true h

/-! Texts of digits. -/

/-- The number that a text of digits stands for. -/
def value (base : Nat) (text : List UInt8) : Nat :=
  text.foldl (fun sum byte => sum * base + (digitValue byte).getD 0) 0

/-- The digits of a number, with no zero in front. -/
def write (base n : Nat) : List UInt8 :=
  if n = 0 then [zero] else ((Nat.digits base n).map digit).reverse

/-- Zeros in front, up to a width. -/
def pad (width : Nat) (text : List UInt8) : List UInt8 :=
  List.replicate (width - text.length) zero ++ text

def AllDigits (base : Nat) (text : List UInt8) : Prop :=
  ∀ byte ∈ text, isDigit base byte = true

instance (base : Nat) (text : List UInt8) : Decidable (AllDigits base text) :=
  List.decidableBAll _ text

/-- A numeral without a zero in front. -/
structure Plain (base : Nat) (text : List UInt8) : Prop where
  digits : AllDigits base text
  nonempty : text ≠ []
  leading : text.head? = some zero → text = [zero]

section

variable {base n : Nat} {text left right : List UInt8}

theorem value_append_singleton (text : List UInt8) (byte : UInt8) :
    value base (text ++ [byte]) =
      value base text * base + (digitValue byte).getD 0 := by
  simp [value]

theorem value_append (base : Nat) (left right : List UInt8) :
    value base (left ++ right) =
      value base left * base ^ right.length + value base right := by
  induction right using List.reverseRecOn with
  | nil => simp [value]
  | append_singleton right byte ih =>
      rw [← List.append_assoc, value_append_singleton, ih,
        value_append_singleton, List.length_append, List.length_singleton,
        Nat.pow_succ]
      ring

theorem value_zeros (base count : Nat) (text : List UInt8) :
    value base (List.replicate count zero ++ text) = value base text := by
  have hzeros : value base (List.replicate count zero) = 0 := by
    induction count with
    | zero => rfl
    | succ count ih =>
        rw [List.replicate_succ', value_append_singleton, ih]
        have hzero : digitValue zero = some 0 := by decide
        rw [hzero]
        simp
  rw [value_append, hzeros, Nat.zero_mul, Nat.zero_add]

theorem value_pad (base width : Nat) (text : List UInt8) :
    value base (pad width text) = value base text :=
  value_zeros base _ text

theorem length_pad (width : Nat) (h : text.length ≤ width) :
    (pad width text).length = width := by
  rw [pad, List.length_append, List.length_replicate]
  exact Nat.sub_add_cancel h

theorem digitValue_lt {byte : UInt8} (h : isDigit base byte = true) :
    (digitValue byte).getD 0 < base := by
  rw [isDigit] at h
  cases hvalue : digitValue byte with
  | none =>
      rw [hvalue] at h
      cases h
  | some n =>
      rw [hvalue] at h
      exact of_decide_eq_true h

/-- So many digits say no more than so much. -/
theorem value_lt (h : AllDigits base text) :
    value base text < base ^ text.length := by
  induction text using List.reverseRecOn with
  | nil => simp [value]
  | append_singleton text byte ih =>
      have hfront := ih fun b hb => h b (List.mem_append_left _ hb)
      have hlast := digitValue_lt (h byte (by simp))
      rw [value_append_singleton, List.length_append, List.length_singleton,
        Nat.pow_succ]
      calc value base text * base + (digitValue byte).getD 0
          < value base text * base + base := Nat.add_lt_add_left hlast _
        _ = (value base text + 1) * base := by ring
        _ ≤ base ^ text.length * base := Nat.mul_le_mul_right _ hfront

theorem digitValue_eq_zero {byte : UInt8}
    (h : (digitValue byte).getD 0 = 0) (hdigit : isDigit base byte = true) :
    byte = zero := by
  have hall : ∀ n : Fin 256, digitValue (UInt8.ofNat n) = some 0 →
      UInt8.ofNat n = zero := by decide +kernel
  have hbyte := hall ⟨byte.toNat, byte.toNat_lt⟩
  rw [UInt8.ofNat_toNat] at hbyte
  rw [isDigit] at hdigit
  cases hvalue : digitValue byte with
  | none =>
      rw [hvalue] at hdigit
      cases hdigit
  | some n =>
      rw [hvalue, Option.getD_some] at h
      rw [h] at hvalue
      exact hbyte hvalue

/-- A number that begins with another digit than zero is positive. -/
theorem value_pos {byte : UInt8} (hdigit : isDigit base byte = true)
    (hzero : byte ≠ zero) : 0 < value base (byte :: text) := by
  have hpositive : 0 < (digitValue byte).getD 0 :=
    Nat.pos_of_ne_zero fun h => hzero (digitValue_eq_zero h hdigit)
  have hbase : 0 < base := Nat.lt_of_lt_of_le hpositive
    (Nat.le_of_lt (digitValue_lt hdigit))
  have happend := value_append base [byte] text
  have hone : value base [byte] = (digitValue byte).getD 0 := by
    simp [value]
  rw [List.singleton_append, hone] at happend
  rw [happend]
  exact Nat.add_pos_left (Nat.mul_pos hpositive (Nat.pow_pos hbase)) _

/-! What is written. -/

theorem write_step (hbase : 1 < base) (hn : n ≠ 0) :
    write base n =
      (if n / base = 0 then [] else write base (n / base)) ++
        [digit (n % base)] := by
  rw [write, if_neg hn, Nat.digits_def' hbase (Nat.pos_of_ne_zero hn)]
  by_cases h : n / base = 0
  · rw [if_pos h, h, Nat.digits_zero]
    rfl
  · rw [if_neg h, write, if_neg h, List.map_cons, List.reverse_cons]

theorem write_ne_nil (base n : Nat) : write base n ≠ [] := by
  rw [write]
  split
  · exact List.cons_ne_nil _ _
  · rename_i hn
    simp [Nat.digits_ne_nil_iff_ne_zero.mpr hn]

theorem write_digits (hbase : 1 < base) (hsmall : base ≤ 16) (n : Nat) :
    AllDigits base (write base n) := by
  intro byte hbyte
  rw [write] at hbyte
  split at hbyte
  · rw [List.mem_singleton.mp hbyte]
    exact isDigit_digit hsmall (Nat.lt_trans Nat.zero_lt_one hbase)
  · obtain ⟨d, hd, rfl⟩ := List.mem_map.mp (List.mem_reverse.mp hbyte)
    exact isDigit_digit hsmall (Nat.digits_lt_base hbase hd)

/-- What is written is read back. -/
theorem value_write (hbase : 1 < base) (hsmall : base ≤ 16) (n : Nat) :
    value base (write base n) = n := by
  induction n using Nat.strong_induction_on with
  | h n ih =>
      by_cases hn : n = 0
      · subst hn
        have hzero := value_zeros base 1 []
        simpa [write, value] using hzero
      · have hlast : digitValue (digit (n % base)) = some (n % base) :=
          digitValue_digit (Nat.lt_of_lt_of_le
            (Nat.mod_lt _ (Nat.lt_trans Nat.zero_lt_one hbase)) hsmall)
        rw [write_step hbase hn, value_append_singleton, hlast,
          Option.getD_some]
        by_cases h : n / base = 0
        · rw [if_pos h]
          have hdiv := Nat.div_add_mod n base
          rw [h] at hdiv
          simpa [value] using hdiv
        · rw [if_neg h, ih _ (Nat.div_lt_self (Nat.pos_of_ne_zero hn) hbase),
            Nat.mul_comm]
          exact Nat.div_add_mod n base

/-- Nothing but zero is written with a zero in front. -/
theorem write_head (hbase : 1 < base) (hsmall : base ≤ 16) (hn : n ≠ 0) :
    (write base n).head? ≠ some zero := by
  induction n using Nat.strong_induction_on with
  | h n ih =>
      rw [write_step hbase hn]
      by_cases h : n / base = 0
      · rw [if_pos h, List.nil_append, List.head?_cons]
        intro hzero
        have hlt : n < base :=
          (Nat.div_eq_zero_iff_lt (Nat.lt_trans Nat.zero_lt_one hbase)).mp h
        have hvalue := @digitValue_digit (n % base)
          (Nat.lt_of_lt_of_le (Nat.mod_lt _ (Nat.lt_of_succ_lt hbase)) hsmall)
        rw [Option.some.inj hzero] at hvalue
        have hdigit : digitValue zero = some 0 := by decide
        rw [hdigit, Nat.mod_eq_of_lt hlt] at hvalue
        exact hn (Option.some.inj hvalue).symm
      · rw [if_neg h, List.head?_append_of_ne_nil _ (write_ne_nil _ _)]
        exact ih _ (Nat.div_lt_self (Nat.pos_of_ne_zero hn) hbase) h

theorem write_plain (hbase : 1 < base) (hsmall : base ≤ 16) (n : Nat) :
    Plain base (write base n) where
  digits := write_digits hbase hsmall n
  nonempty := write_ne_nil base n
  leading := by
    intro hhead
    by_cases hn : n = 0
    · subst hn
      rfl
    · exact absurd hhead (write_head hbase hsmall hn)

/-- A number below a power of the base has so many digits at most. -/
theorem length_write_le {count : Nat} (hbase : 1 < base) (hcount : 0 < count)
    (h : n < base ^ count) : (write base n).length ≤ count := by
  rw [write]
  split
  · exact hcount
  · rw [List.length_reverse, List.length_map]
    exact (Nat.digits_length_le_iff hbase n).mpr h

theorem length_write_mono {m : Nat} (h : m ≤ n) :
    (write base m).length ≤ (write base n).length := by
  by_cases hm : m = 0
  · subst hm
    exact List.length_pos_of_ne_nil (write_ne_nil base n)
  · have hn : n ≠ 0 := fun hzero => hm (Nat.le_zero.mp (hzero ▸ h))
    rw [write, if_neg hm, write, if_neg hn, List.length_reverse,
      List.length_map, List.length_reverse, List.length_map]
    exact Nat.le_length_digits_le base m n h

/-! Reading. -/

/-- The digits in front are read, and nothing behind them. -/
theorem takeWhile_digits (h : AllDigits base text)
    (hright : ∀ byte ∈ right.head?, isDigit base byte = false) :
    (text ++ right).takeWhile (isDigit base) = text ∧
      (text ++ right).dropWhile (isDigit base) = right := by
  rw [List.takeWhile_append_of_pos h, List.dropWhile_append_of_pos h]
  cases right with
  | nil => simp
  | cons byte right =>
      have hbyte := hright byte rfl
      rw [List.takeWhile_cons_of_neg (by simp [hbyte]),
        List.dropWhile_cons_of_neg (by simp [hbyte])]
      exact ⟨List.append_nil _, rfl⟩

end

end Numeral
