/-
Byte shapes of multi-byte UTF-8.  The grammar is the one of RFC 3629 before
surrogates and values above U+10FFFF are taken out; on characters it is
exactly `String.utf8EncodeChar`.
-/
import Mathlib.Data.List.Basic
import Mathlib.Tactic.Convert

namespace Utf8

/-- `UTF8-tail = %x80-BF` -/
structure Tail (byte : UInt8) : Prop where
  low : 0x80 ≤ byte.toNat
  high : byte.toNat ≤ 0xBF

instance (byte : UInt8) : Decidable (Tail byte) :=
  decidable_of_iff (0x80 ≤ byte.toNat ∧ byte.toNat ≤ 0xBF)
    ⟨fun h => ⟨h.1, h.2⟩, fun h => ⟨h.low, h.high⟩⟩

/-- The value so far, extended by the six bits of a tail. -/
def appendTail (value : Nat) (tail : UInt8) : Nat :=
  value * 64 + tail.toNat % 64

/-- A lead byte, its tails, and the value they stand for. -/
inductive Shape : UInt8 → List UInt8 → Nat → Prop
  | two (a b : UInt8) : 0xC2 ≤ a.toNat → a.toNat ≤ 0xDF → Tail b →
      Shape a [b] (appendTail (a.toNat % 32) b)
  | threeE0 (a b c : UInt8) : a.toNat = 0xE0 → 0xA0 ≤ b.toNat → Tail b →
      Tail c → Shape a [b, c] (appendTail (appendTail 0 b) c)
  | three (a b c : UInt8) : 0xE1 ≤ a.toNat → a.toNat ≤ 0xEF → Tail b →
      Tail c → Shape a [b, c]
        (appendTail (appendTail (a.toNat % 16) b) c)
  | fourF0 (a b c d : UInt8) : a.toNat = 0xF0 → 0x90 ≤ b.toNat → Tail b →
      Tail c → Tail d → Shape a [b, c, d]
        (appendTail (appendTail (appendTail 0 b) c) d)
  | four (a b c d : UInt8) : 0xF1 ≤ a.toNat → a.toNat ≤ 0xF4 → Tail b →
      Tail c → Tail d → Shape a [b, c, d]
        (appendTail (appendTail (appendTail (a.toNat % 8) b) c) d)

theorem Shape.tails {lead : UInt8} {tails : List UInt8} {value : Nat}
    (hshape : Shape lead tails value) : ∀ tail ∈ tails, Tail tail := by
  cases hshape <;> simp_all

theorem Shape.lead_ge {lead : UInt8} {tails : List UInt8} {value : Nat}
    (hshape : Shape lead tails value) : 0xC2 ≤ lead.toNat := by
  cases hshape <;> omega

theorem Shape.tails_ne_nil {lead : UInt8} {tails : List UInt8} {value : Nat}
    (hshape : Shape lead tails value) : tails ≠ [] := by
  cases hshape <;> simp

/-- The bytes determine where a shape ends and what it stands for. -/
theorem Shape.unique {lead : UInt8} {tails tails' rest rest' : List UInt8}
    {value value' : Nat} (hshape : Shape lead tails value)
    (hshape' : Shape lead tails' value')
    (heq : tails ++ rest = tails' ++ rest') :
    tails = tails' ∧ value = value' ∧ rest = rest' := by
  cases hshape <;> cases hshape' <;> first | omega | simp_all

private theorem ofNat_eq_of_toNat {n : Nat} (byte : UInt8)
    (h : n = byte.toNat) : UInt8.ofNat n = byte := by
  rw [h, UInt8.ofNat_toNat]

/-- The bytes of a shape are the encoding of the character with its value. -/
theorem encode_eq_of_shape {lead : UInt8} {tails : List UInt8} {c : Char}
    (hshape : Shape lead tails c.toNat) :
    String.utf8EncodeChar c = lead :: tails := by
  generalize hvalue : c.toNat = value at hshape
  have hval : c.val.toNat = value := hvalue
  unfold String.utf8EncodeChar
  simp only [hval]
  cases hshape with
  | two b hlow hhigh hb =>
      obtain ⟨hb₁, hb₂⟩ := hb
      generalize hv : appendTail _ b = v
      unfold appendTail at hv
      rw [if_neg (by omega), if_pos (by omega)]
      rw [ofNat_eq_of_toNat lead (by omega),
        ofNat_eq_of_toNat b (by omega)]
  | threeE0 b c hlead hfirst hb hc =>
      obtain ⟨hb₁, hb₂⟩ := hb
      obtain ⟨hc₁, hc₂⟩ := hc
      generalize hv : appendTail _ c = v
      unfold appendTail at hv
      rw [if_neg (by omega), if_neg (by omega), if_pos (by omega)]
      rw [ofNat_eq_of_toNat lead (by omega),
        ofNat_eq_of_toNat b (by omega),
        ofNat_eq_of_toNat c (by omega)]
  | three b c hlow hhigh hb hc =>
      obtain ⟨hb₁, hb₂⟩ := hb
      obtain ⟨hc₁, hc₂⟩ := hc
      generalize hv : appendTail _ c = v
      unfold appendTail at hv
      rw [if_neg (by omega), if_neg (by omega), if_pos (by omega)]
      rw [ofNat_eq_of_toNat lead (by omega),
        ofNat_eq_of_toNat b (by omega),
        ofNat_eq_of_toNat c (by omega)]
  | fourF0 b c d hlead hfirst hb hc hd =>
      obtain ⟨hb₁, hb₂⟩ := hb
      obtain ⟨hc₁, hc₂⟩ := hc
      obtain ⟨hd₁, hd₂⟩ := hd
      generalize hv : appendTail _ d = v
      unfold appendTail at hv
      rw [if_neg (by omega), if_neg (by omega), if_neg (by omega)]
      rw [ofNat_eq_of_toNat lead (by omega),
        ofNat_eq_of_toNat b (by omega),
        ofNat_eq_of_toNat c (by omega),
        ofNat_eq_of_toNat d (by omega)]
  | four b c d hlow hhigh hb hc hd =>
      obtain ⟨hb₁, hb₂⟩ := hb
      obtain ⟨hc₁, hc₂⟩ := hc
      obtain ⟨hd₁, hd₂⟩ := hd
      generalize hv : appendTail _ d = v
      unfold appendTail at hv
      rw [if_neg (by omega), if_neg (by omega), if_neg (by omega)]
      rw [ofNat_eq_of_toNat lead (by omega),
        ofNat_eq_of_toNat b (by omega),
        ofNat_eq_of_toNat c (by omega),
        ofNat_eq_of_toNat d (by omega)]

theorem encode_ascii {c : Char} (hascii : c.toNat < 0x80) :
    String.utf8EncodeChar c = [UInt8.ofNat c.toNat] := by
  have hval : c.val.toNat ≤ 0x7f := Nat.le_of_lt_succ hascii
  simp only [String.utf8EncodeChar]
  rw [if_pos hval]
  rfl

private theorem toNat_ofNat_tail (n : Nat) :
    (UInt8.ofNat (0x80 + n % 64)).toNat = 0x80 + n % 64 := by
  rw [UInt8.toNat_ofNat']
  omega

private theorem tail_ofNat (n : Nat) :
    Tail (UInt8.ofNat (0x80 + n % 64)) where
  low := by
    rw [toNat_ofNat_tail]
    omega
  high := by
    rw [toNat_ofNat_tail]
    omega

private theorem toNat_ofNat_of_lt {n : Nat} (hn : n < 256) :
    (UInt8.ofNat n).toNat = n := by
  rw [UInt8.toNat_ofNat']
  omega

private theorem exists_shape_of_range {v : Nat} (hlow : 0x80 ≤ v)
    (hhigh : v < 0x110000) : ∃ lead tails, Shape lead tails v := by
  by_cases h2 : v < 0x800
  · have hlead : (UInt8.ofNat (0xC0 + v / 64)).toNat = 0xC0 + v / 64 :=
      toNat_ofNat_of_lt (by omega)
    refine ⟨UInt8.ofNat (0xC0 + v / 64), [UInt8.ofNat (0x80 + v % 64)], ?_⟩
    convert Shape.two (UInt8.ofNat (0xC0 + v / 64)) _ (by omega) (by omega) (tail_ofNat v) using 1
    rw [appendTail, toNat_ofNat_tail]
    omega
  by_cases h3 : v < 0x1000
  · refine ⟨0xE0, [UInt8.ofNat (0x80 + v / 64 % 64),
      UInt8.ofNat (0x80 + v % 64)], ?_⟩
    convert Shape.threeE0 0xE0 _ _ rfl (by rw [toNat_ofNat_tail]; omega)
      (tail_ofNat (v / 64)) (tail_ofNat v) using 1
    rw [appendTail, appendTail, toNat_ofNat_tail, toNat_ofNat_tail]
    omega
  by_cases h4 : v < 0x10000
  · have hlead : (UInt8.ofNat (0xE0 + v / 4096)).toNat = 0xE0 + v / 4096 :=
      toNat_ofNat_of_lt (by omega)
    refine ⟨UInt8.ofNat (0xE0 + v / 4096),
      [UInt8.ofNat (0x80 + v / 64 % 64), UInt8.ofNat (0x80 + v % 64)], ?_⟩
    convert Shape.three (UInt8.ofNat (0xE0 + v / 4096)) _ _ (by omega)
      (by omega) (tail_ofNat (v / 64)) (tail_ofNat v) using 1
    rw [appendTail, appendTail, toNat_ofNat_tail, toNat_ofNat_tail]
    omega
  by_cases h5 : v < 0x40000
  · refine ⟨0xF0, [UInt8.ofNat (0x80 + v / 4096 % 64),
      UInt8.ofNat (0x80 + v / 64 % 64), UInt8.ofNat (0x80 + v % 64)], ?_⟩
    convert Shape.fourF0 0xF0 _ _ _ rfl (by rw [toNat_ofNat_tail]; omega)
      (tail_ofNat (v / 4096)) (tail_ofNat (v / 64)) (tail_ofNat v) using 1
    rw [appendTail, appendTail, appendTail, toNat_ofNat_tail,
      toNat_ofNat_tail, toNat_ofNat_tail]
    omega
  · have hlead : (UInt8.ofNat (0xF0 + v / 262144)).toNat =
        0xF0 + v / 262144 := toNat_ofNat_of_lt (by omega)
    refine ⟨UInt8.ofNat (0xF0 + v / 262144),
      [UInt8.ofNat (0x80 + v / 4096 % 64),
        UInt8.ofNat (0x80 + v / 64 % 64), UInt8.ofNat (0x80 + v % 64)], ?_⟩
    convert Shape.four (UInt8.ofNat (0xF0 + v / 262144)) _ _ _ (by omega)
      (by omega) (tail_ofNat (v / 4096)) (tail_ofNat (v / 64))
      (tail_ofNat v) using 1
    rw [appendTail, appendTail, appendTail, toNat_ofNat_tail,
      toNat_ofNat_tail, toNat_ofNat_tail]
    omega

/-- Every character above ASCII is encoded in one of the shapes. -/
theorem shape_of_nonAscii {c : Char} (hc : 0x80 ≤ c.toNat) :
    ∃ lead tails, Shape lead tails c.toNat ∧
      String.utf8EncodeChar c = lead :: tails := by
  have hmax : c.toNat < 0x110000 := by
    rcases c.valid with hlow | ⟨_, hhigh⟩
    · exact Nat.lt_trans hlow (by decide)
    · exact hhigh
  obtain ⟨lead, tails, hshape⟩ := exists_shape_of_range hc hmax
  exact ⟨lead, tails, hshape, encode_eq_of_shape hshape⟩

/-- UTF-8 is a prefix code. -/
theorem encode_append_inj {c d : Char} {rest rest' : List UInt8}
    (heq : String.utf8EncodeChar c ++ rest =
      String.utf8EncodeChar d ++ rest') : c = d ∧ rest = rest' := by
  have hc := ByteArray.utf8DecodeChar?_utf8EncodeChar_append
    (b := rest.toByteArray) (c := c)
  have hd := ByteArray.utf8DecodeChar?_utf8EncodeChar_append
    (b := rest'.toByteArray) (c := d)
  rw [← List.toByteArray_append] at hc hd
  rw [heq, hd] at hc
  have hcd : d = c := by simpa using hc
  subst hcd
  exact ⟨rfl, List.append_cancel_left heq⟩

/-- Every byte of a character above ASCII is above ASCII. -/
theorem high_of_mem_encode {c : Char} (hc : 0x80 ≤ c.toNat) {byte : UInt8}
    (hbyte : byte ∈ String.utf8EncodeChar c) : 0x80 ≤ byte.toNat := by
  obtain ⟨lead, tails, hshape, hencode⟩ := shape_of_nonAscii hc
  rw [hencode, List.mem_cons] at hbyte
  rcases hbyte with rfl | htail
  · exact Nat.le_trans (by decide) hshape.lead_ge
  · exact (hshape.tails byte htail).low

/-- Adding six bits with shifts and masks, as C code does. -/
theorem shift_or_mask (value : Nat) (byte : UInt8) :
    value <<< 6 ||| (byte &&& 0x3F).toNat = appendTail value byte := by
  have hmask : (0x3F : UInt8).toNat = 2 ^ 6 - 1 := rfl
  rw [UInt8.toNat_and, hmask, Nat.and_two_pow_sub_one_eq_mod,
    ← Nat.shiftLeft_add_eq_or_of_lt (Nat.mod_lt _ (by decide)),
    Nat.shiftLeft_eq, appendTail]

end Utf8
