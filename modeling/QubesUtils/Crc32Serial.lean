/-
The checksum bit by bit: the table of `Crc32_ComputeBuf` does the work of a
shift register with the polynomial of CRC-32, so what a transfer makes of a
burst of wrong bits is found by the sender.
-/
import QubesUtils.Crc32
import QubesUtils.CString
import QubesUtils.ShiftRegister

namespace QubesUtils

open ShiftRegister

/-- The polynomial of CRC-32; its highest power stands at the lower end. -/
def polynomial : BitVec 32 := 0xEDB88320#32

theorem polynomial_msb : polynomial.msb = true := by
  decide

/-- The bits of a byte as they are sent, the lowest first. -/
def byteBits (byte : UInt8) : List Bool :=
  (List.range 8).map byte.toBitVec.getLsbD

def streamBits (buf : List UInt8) : List Bool :=
  buf.flatMap byteBits

theorem streamBits_cons (byte : UInt8) (rest : List UInt8) :
    streamBits (byte :: rest) = byteBits byte ++ streamBits rest :=
  rfl

/-- The sum as a register of 32 bits. -/
def register (crc32 : UInt64) : BitVec 32 := crc32.toBitVec.setWidth 32

/-- The checksum, bit by bit. -/
def serialCrc32 (inCrc32 : BitVec 32) (bits : List Bool) : BitVec 32 :=
  ~~~ feed polynomial (~~~ inCrc32) bits

/-! One byte. -/

theorem crcTable_entry (i : Nat) (hi : i < 256) :
    (crcTable.getD i 0).toBitVec.setWidth 32 =
      (shift polynomial)^[8] (BitVec.ofNat 32 i) := by
  have hall : ∀ n : Fin 256, (crcTable.getD n.val 0).toBitVec.setWidth 32 =
      (shift polynomial)^[8] (BitVec.ofNat 32 n.val) := by
    decide +kernel
  exact hall ⟨i, hi⟩

theorem length_byteBits (byte : UInt8) : (byteBits byte).length = 8 := by
  rw [byteBits, List.length_map, List.length_range]

theorem ofBits_byteBits (byte : UInt8) :
    ofBits (byteBits byte) = byte.toBitVec.setWidth 32 := by
  revert byte
  apply forall_byte
  decide +kernel

section

variable {crc32 inCrc32 : UInt64} {byte : UInt8} {buf : List UInt8}

theorem getLsbD_register (i : Nat) :
    (register crc32).getLsbD i =
      (decide (i < 32) && crc32.toBitVec.getLsbD i) := by
  rw [register, BitVec.getLsbD_setWidth]

/-- A sum of 32 bits has nothing above. -/
theorem getLsbD_sum (h : crc32.toNat < 2 ^ 32) {i : Nat} (hi : 32 ≤ i) :
    crc32.toBitVec.getLsbD i = false :=
  Nat.testBit_lt_two_pow
    (Nat.lt_of_lt_of_le h (Nat.pow_le_pow_right (by decide) hi))

theorem register_down (h : crc32.toNat < 2 ^ 32) :
    register (crc32 >>> 8) = register crc32 >>> 8 := by
  apply BitVec.eq_of_getLsbD_eq
  intro i hi
  have hshift : (crc32 >>> 8).toBitVec = crc32.toBitVec >>> 8 := by
    rw [UInt64.toBitVec_shiftRight]
    rfl
  rw [getLsbD_register, BitVec.getLsbD_ushiftRight, getLsbD_register, hshift,
    BitVec.getLsbD_ushiftRight]
  by_cases hnext : 8 + i < 32
  · simp [hi, hnext]
  · rw [getLsbD_sum h (by omega)]
    simp

/-- The lower places are the place in the table. -/
theorem low_register (byte : UInt8) :
    low 8 (register crc32 ^^^ byte.toBitVec.setWidth 32) =
      BitVec.ofNat 32 ((crc32 ^^^ byte.toUInt64) &&& 0xFF).toNat := by
  have hmask : ∀ i, (0xFF : UInt64).toNat.testBit i = decide (i < 8) := by
    intro i
    have hvalue : (0xFF : UInt64).toNat = 2 ^ 8 - 1 := rfl
    rw [hvalue, Nat.testBit_two_pow_sub_one]
  have hbyte : ∀ i, byte.toUInt64.toNat.testBit i = byte.toNat.testBit i := by
    intro i
    rw [UInt8.toNat_toUInt64]
  apply BitVec.eq_of_getLsbD_eq
  intro i hi
  rw [getLsbD_low, BitVec.getLsbD_xor, getLsbD_register,
    BitVec.getLsbD_setWidth, BitVec.getLsbD_ofNat, UInt64.toNat_and,
    UInt64.toNat_xor, Nat.testBit_and, Nat.testBit_xor, hmask, hbyte]
  simp only [hi, decide_true, Bool.true_and]
  exact Bool.and_comm _ _

theorem byte_down (byte : UInt8) :
    byte.toBitVec.setWidth 32 >>> 8 = 0#32 := by
  revert byte
  apply forall_byte
  decide +kernel

/-- The loop body is eight places of the shift register. -/
theorem register_crc32Byte (h : crc32.toNat < 2 ^ 32) :
    register (crc32Byte crc32 byte) =
      feed polynomial (register crc32) (byteBits byte) := by
  have hindex : ((crc32 ^^^ byte.toUInt64) &&& 0xFF).toNat < 256 := by
    rw [UInt64.toNat_and]
    exact Nat.lt_of_le_of_lt Nat.and_le_right (by decide)
  rw [feed_eq_iterate (by rw [length_byteBits]; decide), length_byteBits,
    ofBits_byteBits, shift_iterate_low, low_register, ← crcTable_entry _ hindex,
    BitVec.ushiftRight_xor_distrib, byte_down, BitVec.xor_zero,
    ← register_down h, crc32Byte, register, UInt64.toBitVec_xor,
    BitVec.setWidth_xor]
  rfl

/-! The whole loop. -/

theorem register_loop (h : crc32.toNat < 2 ^ 32) (buf : List UInt8) :
    register (buf.foldl crc32Byte crc32) =
      feed polynomial (register crc32) (streamBits buf) := by
  induction buf generalizing crc32 with
  | nil => rfl
  | cons byte rest ih =>
      rw [List.foldl_cons, ih (crc32Byte_lt h byte), register_crc32Byte h,
        streamBits_cons, feed_append]

theorem register_mask (crc32 : UInt64) :
    register (crc32 ^^^ 0xFFFFFFFF) = ~~~ register crc32 := by
  apply BitVec.eq_of_getLsbD_eq
  intro i hi
  have hmask : (0xFFFFFFFF : UInt64).toBitVec.getLsbD i = true := by
    have hvalue : (0xFFFFFFFF : UInt64).toNat = 2 ^ 32 - 1 := rfl
    change (0xFFFFFFFF : UInt64).toNat.testBit i = true
    rw [hvalue, Nat.testBit_two_pow_sub_one]
    exact decide_eq_true hi
  rw [getLsbD_register, UInt64.toBitVec_xor, BitVec.getLsbD_xor, hmask,
    BitVec.getLsbD_not, getLsbD_register]
  simp [hi]

/-- The masks before and behind the loop are those of the register. -/
theorem register_crc32ComputeBuf (h : inCrc32.toNat < 2 ^ 32)
    (buf : List UInt8) :
    register (crc32ComputeBuf inCrc32 buf) =
      serialCrc32 (register inCrc32) (streamBits buf) := by
  have hmasked : (inCrc32 ^^^ 0xFFFFFFFF).toNat < 2 ^ 32 := by
    rw [UInt64.toNat_xor]
    exact Nat.xor_lt_two_pow h (by decide)
  rw [crc32ComputeBuf, register_mask, register_loop hmasked, register_mask,
    serialCrc32]

theorem ofBitVec_register (h : crc32.toNat < 2 ^ 32) :
    UInt64.ofBitVec ((register crc32).setWidth 64) = crc32 := by
  apply UInt64.toNat_inj.mp
  have hle : crc32.toNat % 2 ^ 32 = crc32.toNat := Nat.mod_eq_of_lt h
  change ((crc32.toBitVec.setWidth 32).setWidth 64).toNat = crc32.toNat
  rw [BitVec.toNat_setWidth, BitVec.toNat_setWidth]
  change crc32.toNat % 2 ^ 32 % 2 ^ 64 = crc32.toNat
  omega

/-- The sum is that of the bit by bit algorithm, from any sum of 32 bits
on. -/
theorem crc32ComputeBuf_serial (h : inCrc32.toNat < 2 ^ 32)
    (buf : List UInt8) :
    crc32ComputeBuf inCrc32 buf = UInt64.ofBitVec
      ((serialCrc32 (register inCrc32) (streamBits buf)).setWidth 64) := by
  rw [← register_crc32ComputeBuf h,
    ofBitVec_register (crc32ComputeBuf_lt h buf)]

theorem crc32ComputeBuf_serial_start :
    crc32ComputeBuf 0 [0x31, 0x32] = UInt64.ofBitVec
      ((serialCrc32 (register 0) (streamBits [0x31, 0x32])).setWidth 64) :=
  crc32ComputeBuf_serial (by decide) _

/-! Bursts. -/

/-- Streams of the same length that differ in some bits in a row. -/
def Burst (width : Nat) (buf other : List UInt8) : Prop :=
  ∃ left middle middle' right : List Bool,
    streamBits buf = left ++ (middle ++ right) ∧
    streamBits other = left ++ (middle' ++ right) ∧
    middle.length = middle'.length ∧ middle.length ≤ width ∧
    middle ≠ middle'

/-- A burst that is no longer than the sum changes it. -/
theorem crc32ComputeBuf_burst {other : List UInt8}
    (h : inCrc32.toNat < 2 ^ 32) (hburst : Burst 32 buf other) :
    crc32ComputeBuf inCrc32 buf ≠ crc32ComputeBuf inCrc32 other := by
  intro heq
  obtain ⟨left, middle, middle', right, hbuf, hother, hlength, hle, hne⟩ :=
    hburst
  have hserial := congrArg register heq
  rw [register_crc32ComputeBuf h, register_crc32ComputeBuf h, serialCrc32,
    serialCrc32, hbuf, hother] at hserial
  exact feed_burst polynomial_msb hlength hle hne
    (BitVec.not_inj.mp hserial)

end

end QubesUtils
