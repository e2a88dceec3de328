/-
Shift registers with feedback, of any width and with any polynomial: bits go in
at the end at which bits fall out.  A register is linear, several places can be
shifted at once with a table, and two streams that differ in a part no longer
than the register leave different registers.
-/
import Mathlib.Data.List.Basic
import Mathlib.Logic.Function.Iterate

namespace ShiftRegister

variable {w : Nat} (poly : BitVec w)

/-- One place down; for a bit that falls out the polynomial is added. -/
def shift (r : BitVec w) : BitVec w :=
  if r.getLsbD 0 then r >>> 1 ^^^ poly else r >>> 1

/-- A bit at the lower end. -/
def lowBit (bit : Bool) : BitVec w := (BitVec.ofBool bit).setWidth w

def feedBit (r : BitVec w) (bit : Bool) : BitVec w :=
  shift poly (r ^^^ lowBit bit)

def feed (r : BitVec w) (bits : List Bool) : BitVec w :=
  bits.foldl (feedBit poly) r

/-- The first bit at the lower end. -/
def ofBits : List Bool → BitVec w
  | [] => 0
  | bit :: rest => ofBits rest <<< 1 ^^^ lowBit bit

/-- The lower places. -/
def low (k : Nat) (r : BitVec w) : BitVec w := (r.setWidth k).setWidth w

variable {poly} {r s : BitVec w} {bits left middle right : List Bool}

@[simp] theorem feed_nil : feed poly r [] = r :=
  rfl

@[simp] theorem feed_cons (bit : Bool) :
    feed poly r (bit :: bits) = feed poly (feedBit poly r bit) bits :=
  rfl

theorem feed_append :
    feed poly r (left ++ right) = feed poly (feed poly r left) right :=
  List.foldl_append

/-! Linearity. -/

theorem shift_xor : shift poly (r ^^^ s) = shift poly r ^^^ shift poly s := by
  simp only [shift, BitVec.getLsbD_xor, BitVec.ushiftRight_xor_distrib]
  cases r.getLsbD 0 <;> cases s.getLsbD 0
  · simp
  · simp [BitVec.xor_assoc]
  · simp [BitVec.xor_assoc, BitVec.xor_comm poly]
  · have hcancel : poly ^^^ (s >>> 1 ^^^ poly) = s >>> 1 := by
      rw [BitVec.xor_comm, BitVec.xor_assoc, BitVec.xor_self, BitVec.xor_zero]
    simp [BitVec.xor_assoc, hcancel]

theorem shift_iterate_xor (k : Nat) :
    (shift poly)^[k] (r ^^^ s) =
      (shift poly)^[k] r ^^^ (shift poly)^[k] s := by
  induction k generalizing r s with
  | zero => rfl
  | succ k ih => rw [Function.iterate_succ_apply, shift_xor, ih]; rfl

/-! What has been shifted can be told from what is left. -/

theorem eq_zero_of_shift_eq_zero (hpoly : poly.msb = true)
    (h : shift poly r = 0) : r = 0 := by
  have hpos : 0 < w := by
    cases w with
    | zero =>
        rw [BitVec.msb_eq_getLsbD_last, BitVec.getLsbD_of_ge _ _ (by omega)]
          at hpoly
        cases hpoly
    | succ n => exact Nat.succ_pos n
  have hup : ∀ s : BitVec w, (s >>> 1).msb = false := by
    intro s
    rw [BitVec.msb_eq_getLsbD_last, BitVec.getLsbD_ushiftRight]
    exact BitVec.getLsbD_of_ge _ _ (by omega)
  rw [shift] at h
  split at h
  · -- the polynomial would be a register that has been shifted
    have hshifted := hup r
    rw [BitVec.xor_eq_zero_iff.mp h, hpoly] at hshifted
    cases hshifted
  · rename_i hbit
    apply BitVec.eq_of_getLsbD_eq
    intro i hi
    cases i with
    | zero => simpa using hbit
    | succ i =>
        have hplace := congrArg (fun s : BitVec w => s.getLsbD i) h
        simpa [BitVec.getLsbD_ushiftRight, Nat.add_comm] using hplace

theorem shift_injective (hpoly : poly.msb = true) :
    Function.Injective (shift poly) := by
  intro r s h
  apply BitVec.xor_eq_zero_iff.mp
  apply eq_zero_of_shift_eq_zero hpoly
  rw [shift_xor, h, BitVec.xor_self]
  rfl

theorem feed_injective (hpoly : poly.msb = true) (bits : List Bool) :
    Function.Injective fun r => feed poly r bits := by
  induction bits with
  | nil => exact Function.injective_id
  | cons bit rest ih =>
      intro r s h
      have hbit := shift_injective hpoly (ih h)
      exact (BitVec.xor_left_inj _).mp hbit

/-! A word that is fed is a word that has been added. -/

theorem getLsbD_lowBit (bit : Bool) (i : Nat) :
    (lowBit bit : BitVec w).getLsbD i =
      (decide (i < w) && decide (i = 0) && bit) := by
  rw [lowBit, BitVec.getLsbD_setWidth, BitVec.getLsbD_ofBool]
  cases bit <;> simp

theorem getLsbD_ofBits (bits : List Bool) (i : Nat) :
    (ofBits bits : BitVec w).getLsbD i =
      (decide (i < w) && bits.getD i false) := by
  induction bits generalizing i with
  | nil => simp [ofBits]
  | cons bit rest ih =>
      rw [ofBits, BitVec.getLsbD_xor, BitVec.getLsbD_shiftLeft,
        getLsbD_lowBit]
      cases i with
      | zero => cases bit <;> simp
      | succ i =>
          rw [Nat.add_sub_cancel, ih]
          by_cases hi : i + 1 < w
          · simp [hi, Nat.lt_of_succ_lt hi]
          · simp [hi]

/-- A word that does not reach the upper end comes back down. -/
theorem shift_up {r : BitVec w} (h : r.getLsbD (w - 1) = false) :
    shift poly (r <<< 1) = r := by
  have hbit : (r <<< 1).getLsbD 0 = false := by simp
  rw [shift, hbit, if_neg (by simp)]
  apply BitVec.eq_of_getLsbD_eq
  intro i hi
  rw [BitVec.getLsbD_ushiftRight, BitVec.getLsbD_shiftLeft]
  by_cases hnext : 1 + i < w
  · simp [hnext]
  · have hlast : i = w - 1 := by omega
    rw [hlast, h]
    simp
    omega

theorem feed_eq_iterate {bits : List Bool} (h : bits.length ≤ w) :
    feed poly r bits = (shift poly)^[bits.length] (r ^^^ ofBits bits) := by
  induction bits generalizing r with
  | nil => simp [ofBits]
  | cons bit rest ih =>
      rw [List.length_cons] at h
      have hup : (ofBits rest : BitVec w).getLsbD (w - 1) = false := by
        rw [getLsbD_ofBits, List.getD_eq_getElem?_getD,
          List.getElem?_eq_none (by omega), Option.getD_none, Bool.and_false]
      rw [feed_cons, ih (by omega), List.length_cons,
        Function.iterate_succ_apply, ofBits, feedBit,
        BitVec.xor_comm (ofBits rest <<< 1), ← BitVec.xor_assoc,
        shift_xor (s := ofBits rest <<< 1), shift_up hup]

theorem ofBits_injective (hlength : left.length = right.length)
    (hle : left.length ≤ w)
    (h : (ofBits left : BitVec w) = ofBits right) : left = right := by
  apply List.ext_getElem hlength
  intro i hleft hright
  have hbit := congrArg (fun s : BitVec w => s.getLsbD i) h
  simp only [getLsbD_ofBits] at hbit
  simpa [hleft, hright, Nat.lt_of_lt_of_le hleft hle] using hbit

theorem shift_iterate_injective (hpoly : poly.msb = true) (k : Nat) :
    Function.Injective (shift poly)^[k] :=
  (shift_injective hpoly).iterate k

/-- Streams that differ in a part no longer than the register can be told
apart by what they leave. -/
theorem feed_burst {other : List Bool} (hpoly : poly.msb = true)
    (hlength : middle.length = other.length) (hle : middle.length ≤ w)
    (hne : middle ≠ other) :
    feed poly r (left ++ (middle ++ right)) ≠
      feed poly r (left ++ (other ++ right)) := by
  intro h
  rw [feed_append, feed_append, feed_append, feed_append] at h
  have hmiddle : feed poly (feed poly r left) middle =
      feed poly (feed poly r left) other := feed_injective hpoly right h
  have hother : other.length ≤ w := by omega
  rw [feed_eq_iterate hle, feed_eq_iterate hother, ← hlength] at hmiddle
  have hword := shift_iterate_injective hpoly _ hmiddle
  exact hne (ofBits_injective hlength hle ((BitVec.xor_right_inj _).mp hword))

/-! Tables. -/

/-- What is above the lower places only moves down. -/
theorem shift_iterate_high {k : Nat} (h : ∀ i < k, r.getLsbD i = false) :
    (shift poly)^[k] r = r >>> k := by
  induction k generalizing r with
  | zero => simp
  | succ k ih =>
      have hbit : r.getLsbD 0 = false := h 0 (Nat.succ_pos k)
      have hshift : shift poly r = r >>> 1 := by
        rw [shift, hbit, if_neg (by simp)]
      rw [Function.iterate_succ_apply, hshift, ih, ← BitVec.shiftRight_add,
        Nat.add_comm]
      intro i hi
      rw [BitVec.getLsbD_ushiftRight, Nat.add_comm]
      exact h (i + 1) (by omega)

theorem getLsbD_low (k : Nat) (r : BitVec w) (i : Nat) :
    (low k r).getLsbD i = (decide (i < k) && r.getLsbD i) := by
  rw [low, BitVec.getLsbD_setWidth, BitVec.getLsbD_setWidth]
  by_cases hi : i < w
  · simp [hi]
  · simp [hi, BitVec.getLsbD_of_ge r i (by omega)]

/-- Several places at once: the lower places say what is added. -/
theorem shift_iterate_low (k : Nat) (r : BitVec w) :
    (shift poly)^[k] r = r >>> k ^^^ (shift poly)^[k] (low k r) := by
  have hhigh : ∀ i < k, (r ^^^ low k r).getLsbD i = false := by
    intro i hi
    rw [BitVec.getLsbD_xor, getLsbD_low]
    simp [hi]
  have hdown : (r ^^^ low k r) >>> k = r >>> k := by
    apply BitVec.eq_of_getLsbD_eq
    intro i hi
    rw [BitVec.getLsbD_ushiftRight, BitVec.getLsbD_ushiftRight,
      BitVec.getLsbD_xor, getLsbD_low,
      decide_eq_false (Nat.not_lt.mpr (Nat.le_add_right k i)),
      Bool.false_and, Bool.xor_false]
  calc (shift poly)^[k] r
      = (shift poly)^[k] ((r ^^^ low k r) ^^^ low k r) := by
        rw [BitVec.xor_assoc, BitVec.xor_self, BitVec.xor_zero]
    _ = (shift poly)^[k] (r ^^^ low k r) ^^^ (shift poly)^[k] (low k r) :=
        shift_iterate_xor k
    _ = r >>> k ^^^ (shift poly)^[k] (low k r) := by
        rw [shift_iterate_high hhigh, hdown]

end ShiftRegister
