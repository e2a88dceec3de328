/-
NUL-terminated byte strings and the ways in which a C function can fail to
return.  A read past the terminator is a fault of the caller, never a value.
-/
import Mathlib.Data.List.Infix
import Mathlib.Data.List.TakeWhile

/-- What holds of the bytes in turn holds of every byte. -/
theorem forall_byte {p : UInt8 → Prop}
    (h : ∀ n : Fin 256, p (UInt8.ofNat n.val)) (byte : UInt8) : p byte := by
  have hbyte := h ⟨byte.toNat, byte.toNat_lt⟩
  rw [UInt8.ofNat_toNat] at hbyte
  exact hbyte

/-- What a C function does when it does not return. -/
inductive Fault
  | outOfBounds
  | assertion
  | outOfFuel
deriving DecidableEq, Repr

/-- The bytes in front of the terminator; none of them is the terminator. -/
structure CString where
  bytes : List UInt8
  noNul : (0 : UInt8) ∉ bytes
deriving DecidableEq

namespace CString

/-- The string a buffer holds: its bytes up to the first NUL. -/
def ofBuffer (buffer : List UInt8) : CString where
  bytes := buffer.takeWhile (· != 0)
  noNul := fun hmem => by simpa using List.mem_takeWhile_imp hmem

/-- A buffer holds what is in front of its first NUL. -/
theorem ofBuffer_bytes {text : List UInt8} (htext : (0 : UInt8) ∉ text)
    (rest : List UInt8) : (ofBuffer (text ++ 0 :: rest)).bytes = text := by
  have hall : ∀ byte ∈ text, (byte != 0) = true := by
    intro byte hbyte
    have hne : byte ≠ 0 := fun hzero => htext (hzero ▸ hbyte)
    simpa using hne
  have htake : (text ++ 0 :: rest).takeWhile (· != 0) = text := by
    rw [List.takeWhile_append_of_pos hall]
    simp
  exact htake

theorem ext_bytes {left right : CString} (h : left.bytes = right.bytes) :
    left = right := by
  cases left
  cases right
  cases h
  rfl

theorem ofBuffer_terminated (s : CString) :
    ofBuffer (s.bytes ++ [0]) = s :=
  ext_bytes (ofBuffer_bytes s.noNul [])

theorem ofBuffer_self (s : CString) : ofBuffer s.bytes = s := by
  refine ext_bytes (List.takeWhile_eq_self_iff.mpr fun byte hbyte => ?_)
  rw [bne_iff_ne]
  exact fun hzero => s.noNul (hzero ▸ hbyte)

/-- The text of a buffer, and what is behind it when a terminator is put at
its end. -/
theorem ofBuffer_split (buffer rest : List UInt8) :
    ∃ rest', buffer ++ 0 :: rest = (ofBuffer buffer).bytes ++ 0 :: rest' := by
  induction buffer with
  | nil => exact ⟨rest, rfl⟩
  | cons byte buffer ih =>
      by_cases hzero : byte = 0
      · subst hzero
        exact ⟨buffer ++ 0 :: rest, by simp [ofBuffer]⟩
      · obtain ⟨rest', hrest⟩ := ih
        refine ⟨rest', ?_⟩
        have hbytes : (ofBuffer (byte :: buffer)).bytes =
            byte :: (ofBuffer buffer).bytes := by
          simp [ofBuffer, hzero]
        rw [hbytes, List.cons_append, List.cons_append, hrest]

/-- `s[i]`: a byte, the terminator, or a read out of bounds. -/
def byteAt (s : CString) (i : Nat) : Except Fault UInt8 :=
  match s.bytes[i]? with
  | some byte => .ok byte
  | none => if i = s.bytes.length then .ok 0 else .error .outOfBounds

theorem ne_zero_of_mem (s : CString) {byte : UInt8} (hbyte : byte ∈ s.bytes) :
    byte ≠ 0 :=
  fun hzero => s.noNul (hzero ▸ hbyte)

/-- Reading inside a string whose first part is known. -/
theorem byteAt_of_eq_append (s : CString) {done : List UInt8} {byte : UInt8}
    {rest : List UInt8} (hbytes : s.bytes = done ++ byte :: rest) :
    s.byteAt done.length = .ok byte := by
  simp [byteAt, hbytes]

theorem byteAt_end (s : CString) {done : List UInt8}
    (hbytes : s.bytes = done) : s.byteAt done.length = .ok 0 := by
  simp [byteAt, hbytes]

/-- The byte read just behind a known part: the next byte, or the
terminator. -/
theorem byteAt_append (s : CString) {done rest : List UInt8}
    (hbytes : s.bytes = done ++ rest) :
    s.byteAt done.length = .ok (rest.headD 0) := by
  cases rest with
  | nil => exact s.byteAt_end (by simpa using hbytes)
  | cons byte rest => exact s.byteAt_of_eq_append hbytes

end CString
