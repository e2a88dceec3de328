/-
Words of 32 bits that stand for numbers: as long as the bounds fit, the
operations on the words are those on the numbers.
-/
import Mathlib.Algebra.Order.Ring.Int

namespace Words

/-- A word stands for a number, which has a bound. -/
structure Denotes (word : UInt32) (n bound : Int) : Prop where
  value : (word.toNat : Int) = n
  le : n ≤ bound

variable {u v : UInt32} {m n a b c : Int}

theorem Denotes.nonneg (h : Denotes u n a) : 0 ≤ n :=
  h.value ▸ Int.natCast_nonneg _

theorem Denotes.of_int (hnonneg : 0 ≤ n) (hle : n ≤ b) (hbound : b < 2 ^ 32) :
    Denotes (UInt32.ofInt n) n b := by
  refine ⟨?_, hle⟩
  rw [UInt32.ofInt, UInt32.toNat_ofNat']
  omega

theorem Denotes.add (hu : Denotes u m a) (hv : Denotes v n b)
    (hbound : a + b < 2 ^ 32) : Denotes (u + v) (m + n) (a + b) := by
  have hu' := hu.value
  have hv' := hv.value
  have hule := hu.le
  have hvle := hv.le
  refine ⟨?_, Int.add_le_add hu.le hv.le⟩
  rw [UInt32.toNat_add]
  omega

theorem Denotes.sub (hu : Denotes u m a) (hv : Denotes v n b) (hle : n ≤ m) :
    Denotes (u - v) (m - n) a := by
  have hu' := hu.value
  have hv' := hv.value
  have hule := hu.le
  have hpos := hv.nonneg
  have hword := u.toNat_lt
  refine ⟨?_, by omega⟩
  rw [UInt32.toNat_sub]
  omega

theorem Denotes.mul (hu : Denotes u m a) (hv : Denotes v n b)
    (hbound : a * b < 2 ^ 32) : Denotes (u * v) (m * n) (a * b) := by
  have hle : m * n ≤ a * b :=
    mul_le_mul hu.le hv.le hv.nonneg (hu.nonneg.trans hu.le)
  refine ⟨?_, hle⟩
  have hproduct : ((u.toNat * v.toNat : Nat) : Int) = m * n := by
    rw [Int.natCast_mul, hu.value, hv.value]
  rw [UInt32.toNat_mul, Nat.mod_eq_of_lt (by omega), hproduct]

theorem max_eq_ite (u v : UInt32) : max u v = if u ≤ v then v else u :=
  rfl

theorem Denotes.max (hu : Denotes u m a) (hv : Denotes v n b) :
    Denotes (max u v) (max m n) (max a b) := by
  refine ⟨?_, max_le_max hu.le hv.le⟩
  have hu' := hu.value
  have hv' := hv.value
  have hiff : u ≤ v ↔ m ≤ n := by
    rw [UInt32.le_iff_toNat_le]
    omega
  rw [max_eq_ite]
  by_cases hle : m ≤ n
  · rw [if_pos (hiff.mpr hle), max_eq_right hle, hv']
  · rw [if_neg (mt hiff.mp hle), max_eq_left (Int.le_of_not_le hle), hu']

theorem Denotes.div (hu : Denotes u m a) (hv : Denotes v n b) (hle : m / n ≤ c) :
    Denotes (u / v) (m / n) c := by
  refine ⟨?_, hle⟩
  rw [UInt32.toNat_div, Int.natCast_ediv, hu.value, hv.value]

end Words
