/-
Text that is safe to display, as strict UTF-8 over accepted characters, and
the exact behaviour of the character check of `unicode.c` on it.
-/
import QubesUtils.Pure
import QubesUtils.Utf8
import Mathlib.Algebra.Group.Nat.Defs

namespace QubesUtils

open Utf8

/-- A printable ASCII byte, as the callers of the check test it. -/
def Printable (byte : UInt8) : Prop := 0x20 ≤ byte ∧ byte ≤ 0x7E

instance (byte : UInt8) : Decidable (Printable byte) :=
  inferInstanceAs (Decidable (0x20 ≤ byte ∧ byte ≤ 0x7E))

/-- Printable ASCII, or a code point above ASCII that the table accepts. -/
def Displayable (table : AllowTable) (c : Char) : Prop :=
  (0x20 ≤ c.toNat ∧ c.toNat ≤ 0x7E) ∨
    (0x80 ≤ c.toNat ∧
      qubesPureCodePointSafeForDisplay table c.toNat = true)

/-- The strict UTF-8 encoding of displayable characters. -/
def SafeText (table : AllowTable) (text : List UInt8) : Prop :=
  ∃ chars : List Char, (∀ c ∈ chars, Displayable table c) ∧
    text = chars.flatMap String.utf8EncodeChar

theorem printable_iff_toNat (byte : UInt8) :
    Printable byte ↔ 0x20 ≤ byte.toNat ∧ byte.toNat ≤ 0x7E := by
  simp [Printable, UInt8.le_iff_toNat_le]

theorem not_printable_of_shape {lead : UInt8} {tails : List UInt8}
    {value : Nat} (hshape : Shape lead tails value) : ¬ Printable lead := by
  rw [printable_iff_toNat]
  have hlead := hshape.lead_ge
  omega

theorem tail_iff_le (byte : UInt8) :
    0x80 ≤ byte ∧ byte ≤ 0xBF ↔ Tail byte := by
  simp only [UInt8.le_iff_toNat_le, UInt8.reduceToNat]
  exact ⟨fun h => ⟨h.1, h.2⟩, fun h => ⟨h.low, h.high⟩⟩

/-! The loop over the tails. -/

def verdict (table : AllowTable) (totalSize codePoint : Nat) : Int :=
  if qubesPureCodePointSafeForDisplay table codePoint
    then (totalSize : Int) else -(totalSize : Int)

theorem utf8Tails_of_tails (table : AllowTable) (s : CString)
    (totalSize : Nat) (tails : List UInt8) (htails : ∀ b ∈ tails, Tail b) :
    ∀ (done rest : List UInt8) (last : UInt8) (codePoint : Nat),
      s.bytes = done ++ last :: (tails ++ rest) →
      utf8Tails table s totalSize tails.length done.length codePoint =
        .ok (verdict table totalSize (tails.foldl appendTail codePoint)) := by
  induction tails with
  | nil => exact fun _ _ _ _ _ => rfl
  | cons tail tails ih =>
      intro done rest last codePoint hbytes
      have hbytes' : s.bytes =
          (done ++ [last]) ++ tail :: (tails ++ rest) := by
        simpa using hbytes
      have hread := s.byteAt_of_eq_append hbytes'
      have hnext := ih (fun b hb => htails b (List.mem_cons_of_mem _ hb))
        (done ++ [last]) rest tail (appendTail codePoint tail) hbytes'
      rw [List.length_append, List.length_singleton] at hread hnext
      have htail := (tail_iff_le tail).mpr (htails tail List.mem_cons_self)
      rw [List.length_cons, utf8Tails, hread]
      simp only [bind, Except.bind]
      rw [if_pos htail, shift_or_mask, hnext, List.foldl_cons]

/-- The loop stops with `-1`, or it has consumed enough tails. -/
theorem utf8Tails_cases (table : AllowTable) (s : CString)
    (totalSize tailsCount : Nat) :
    ∀ (done rest : List UInt8) (last : UInt8) (codePoint : Nat),
      s.bytes = done ++ last :: rest →
      utf8Tails table s totalSize tailsCount done.length codePoint = .ok (-1)
        ∨ ∃ tails rest', rest = tails ++ rest' ∧ tails.length = tailsCount ∧
          ∀ b ∈ tails, Tail b := by
  induction tailsCount with
  | zero => exact fun _ rest _ _ _ => Or.inr ⟨[], rest, by simp⟩
  | succ tailsCount ih =>
      intro done rest last codePoint hbytes
      have hbytes' : s.bytes = (done ++ [last]) ++ rest := by
        simpa using hbytes
      have hread := s.byteAt_append hbytes'
      rw [List.length_append, List.length_singleton] at hread
      rw [utf8Tails, hread]
      simp only [bind, Except.bind]
      by_cases htail : 0x80 ≤ rest.headD 0 ∧ rest.headD 0 ≤ 0xBF
      · rw [if_pos htail]
        cases rest with
        | nil => simp at htail
        | cons tail rest =>
            have hnext := ih (done ++ [last]) rest tail
              (codePoint <<< 6 ||| (tail &&& 0x3F).toNat) hbytes'
            rw [List.length_append, List.length_singleton] at hnext
            rcases hnext with hstop | ⟨tails, rest', rfl, hlength, htails⟩
            · exact Or.inl hstop
            · refine Or.inr ⟨tail :: tails, rest', rfl, by simp [hlength], ?_⟩
              intro b hb
              rcases List.mem_cons.mp hb with rfl | hb
              · exact (tail_iff_le b).mp htail
              · exact htails b hb
      · exact Or.inl (by rw [if_neg htail])

/-! The character at the head of the rest of the string. -/

theorem toNat_and_mask (byte mask : UInt8) (k : Nat)
    (hmask : mask.toNat = 2 ^ k - 1) :
    (byte &&& mask).toNat = byte.toNat % 2 ^ k := by
  rw [UInt8.toNat_and, hmask, Nat.and_two_pow_sub_one_eq_mod]

/-- On the bytes of a shape the check gives its length, signed by the
table. -/
theorem validateUtf8_of_shape (table : AllowTable) (s : CString)
    {done rest : List UInt8} {lead : UInt8} {tails : List UInt8}
    {value : Nat} (hshape : Shape lead tails value)
    (hbytes : s.bytes = done ++ lead :: (tails ++ rest)) :
    validateUtf8CharAndReturnLen table s done.length =
      .ok (verdict table (1 + tails.length) value) := by
  have hlead := s.byteAt_of_eq_append hbytes
  have htails := hshape.tails
  rw [validateUtf8CharAndReturnLen, hlead]
  simp only [bind, Except.bind, UInt8.le_iff_toNat_le, ← UInt8.toNat_inj,
    UInt8.reduceToNat]
  cases hshape with
  | two b hlow hhigh hb =>
      rw [if_pos ⟨hlow, hhigh⟩, toNat_and_mask lead 0x1F 5 rfl]
      exact utf8Tails_of_tails table s 2 [b] htails done rest lead _ hbytes
  | threeE0 b c hlead hfirst hb hc =>
      have hbytes' : s.bytes = (done ++ [lead]) ++ b :: ([c] ++ rest) := by
        simpa using hbytes
      have hread := s.byteAt_of_eq_append hbytes'
      rw [List.length_append, List.length_singleton] at hread
      rw [if_neg (by omega), if_pos hlead, hread]
      simp only
      rw [if_pos ⟨hfirst, hb.high⟩, toNat_and_mask b 0x3F 6 rfl]
      have hrun := utf8Tails_of_tails table s 3 [c]
        (fun x hx => htails x (List.mem_cons_of_mem _ hx)) _ rest b
        (b.toNat % 2 ^ 6) hbytes'
      rw [List.length_append, List.length_singleton] at hrun
      simpa [appendTail] using hrun
  | three b c hlow hhigh hb hc =>
      rw [if_neg (by omega), if_neg (by omega), if_pos ⟨hlow, hhigh⟩,
        toNat_and_mask lead 0xF 4 rfl]
      exact utf8Tails_of_tails table s 3 [b, c] htails done rest lead _ hbytes
  | fourF0 b c d hlead hfirst hb hc hd =>
      have hbytes' : s.bytes =
          (done ++ [lead]) ++ b :: ([c, d] ++ rest) := by
        simpa using hbytes
      have hread := s.byteAt_of_eq_append hbytes'
      rw [List.length_append, List.length_singleton] at hread
      rw [if_neg (by omega), if_neg (by omega), if_neg (by omega),
        if_pos hlead, hread]
      simp only
      rw [if_pos ⟨hfirst, hb.high⟩, toNat_and_mask b 0x3F 6 rfl]
      have hrun := utf8Tails_of_tails table s 4 [c, d]
        (fun x hx => htails x (List.mem_cons_of_mem _ hx)) _ rest b
        (b.toNat % 2 ^ 6) hbytes'
      rw [List.length_append, List.length_singleton] at hrun
      simpa [appendTail] using hrun
  | four b c d hlow hhigh hb hc hd =>
      rw [if_neg (by omega), if_neg (by omega), if_neg (by omega),
        if_neg (by omega), if_pos ⟨hlow, hhigh⟩,
        toNat_and_mask lead 0x7 3 rfl]
      exact utf8Tails_of_tails table s 4 [b, c, d] htails done rest lead _
        hbytes

/-- The rest of the string starts with the bytes of a shape. -/
def StartsWithShape (rest : List UInt8) : Prop :=
  ∃ lead tails value rest', rest = lead :: (tails ++ rest') ∧
    Shape lead tails value

private theorem headD_cons_of_pos (rest : List UInt8)
    (hpos : 0 < (rest.headD 0).toNat) :
    ∃ rest', rest = rest.headD 0 :: rest' := by
  cases rest with
  | nil => simp at hpos
  | cons head rest => exact ⟨rest, rfl⟩

/-- Where no shape starts, the check gives `-1`. -/
theorem validateUtf8_of_not_shape (table : AllowTable) (s : CString)
    {done rest : List UInt8} (hbytes : s.bytes = done ++ rest)
    (hnot : ¬ StartsWithShape rest) :
    validateUtf8CharAndReturnLen table s done.length = .ok (-1) := by
  rw [validateUtf8CharAndReturnLen, s.byteAt_append hbytes]
  simp only [bind, Except.bind, UInt8.le_iff_toNat_le, ← UInt8.toNat_inj,
    UInt8.reduceToNat]
  by_cases htwo : 0xC2 ≤ (rest.headD 0).toNat ∧ (rest.headD 0).toNat ≤ 0xDF
  · rw [if_pos htwo]
    obtain ⟨rest', hrest⟩ := headD_cons_of_pos rest (by omega)
    rw [hrest] at hbytes
    rcases utf8Tails_cases table s 2 1 done rest' _ _ hbytes with
      hstop | ⟨tails, rest'', rfl, hlength, htails⟩
    · exact hstop
    · obtain ⟨b, rfl⟩ := List.length_eq_one_iff.mp hlength
      exact absurd ⟨_, _, _, rest'', hrest, Shape.two _ b htwo.1 htwo.2
        (htails b (by simp))⟩ hnot
  rw [if_neg htwo]
  by_cases hE0 : (rest.headD 0).toNat = 0xE0
  · rw [if_pos hE0]
    obtain ⟨rest', hrest⟩ := headD_cons_of_pos rest (by omega)
    rw [hrest] at hbytes
    have hbytes' : s.bytes = (done ++ [rest.headD 0]) ++ rest' := by
      simpa using hbytes
    have hread := s.byteAt_append hbytes'
    rw [List.length_append, List.length_singleton] at hread
    rw [hread]
    simp only
    by_cases hfirst : 0xA0 ≤ (rest'.headD 0).toNat ∧
        (rest'.headD 0).toNat ≤ 0xBF
    · rw [if_pos hfirst]
      obtain ⟨rest₂, hrest'⟩ := headD_cons_of_pos rest' (by omega)
      rw [hrest'] at hbytes'
      have hcases := utf8Tails_cases table s 3 1 _ rest₂ _
        (rest'.headD 0 &&& 0x3F).toNat hbytes'
      rw [List.length_append, List.length_singleton] at hcases
      rcases hcases with hstop | ⟨tails, rest₃, rfl, hlength, htails⟩
      · exact hstop
      · obtain ⟨c, rfl⟩ := List.length_eq_one_iff.mp hlength
        rw [hrest'] at hrest
        exact absurd ⟨_, [rest'.headD 0, c], _, rest₃, by simpa using hrest,
          Shape.threeE0 _ _ c hE0 hfirst.1 ⟨by omega, hfirst.2⟩
            (htails c (by simp))⟩ hnot
    · rw [if_neg hfirst]
  rw [if_neg hE0]
  by_cases hthree : 0xE1 ≤ (rest.headD 0).toNat ∧
      (rest.headD 0).toNat ≤ 0xEF
  · rw [if_pos hthree]
    obtain ⟨rest', hrest⟩ := headD_cons_of_pos rest (by omega)
    rw [hrest] at hbytes
    rcases utf8Tails_cases table s 3 2 done rest' _ _ hbytes with
      hstop | ⟨tails, rest'', rfl, hlength, htails⟩
    · exact hstop
    · obtain ⟨b, c, rfl⟩ := List.length_eq_two.mp hlength
      exact absurd ⟨_, _, _, rest'', hrest, Shape.three _ b c hthree.1
        hthree.2 (htails b (by simp)) (htails c (by simp))⟩ hnot
  rw [if_neg hthree]
  by_cases hF0 : (rest.headD 0).toNat = 0xF0
  · rw [if_pos hF0]
    obtain ⟨rest', hrest⟩ := headD_cons_of_pos rest (by omega)
    rw [hrest] at hbytes
    have hbytes' : s.bytes = (done ++ [rest.headD 0]) ++ rest' := by
      simpa using hbytes
    have hread := s.byteAt_append hbytes'
    rw [List.length_append, List.length_singleton] at hread
    rw [hread]
    simp only
    by_cases hfirst : 0x90 ≤ (rest'.headD 0).toNat ∧
        (rest'.headD 0).toNat ≤ 0xBF
    · rw [if_pos hfirst]
      obtain ⟨rest₂, hrest'⟩ := headD_cons_of_pos rest' (by omega)
      rw [hrest'] at hbytes'
      have hcases := utf8Tails_cases table s 4 2 _ rest₂ _
        (rest'.headD 0 &&& 0x3F).toNat hbytes'
      rw [List.length_append, List.length_singleton] at hcases
      rcases hcases with hstop | ⟨tails, rest₃, rfl, hlength, htails⟩
      · exact hstop
      · obtain ⟨c, d, rfl⟩ := List.length_eq_two.mp hlength
        rw [hrest'] at hrest
        exact absurd ⟨_, [rest'.headD 0, c, d], _, rest₃,
          by simpa using hrest, Shape.fourF0 _ _ c d hF0 hfirst.1
            ⟨by omega, hfirst.2⟩ (htails c (by simp))
            (htails d (by simp))⟩ hnot
    · rw [if_neg hfirst]
  rw [if_neg hF0]
  by_cases hfour : 0xF1 ≤ (rest.headD 0).toNat ∧
      (rest.headD 0).toNat ≤ 0xF4
  · rw [if_pos hfour]
    obtain ⟨rest', hrest⟩ := headD_cons_of_pos rest (by omega)
    rw [hrest] at hbytes
    rcases utf8Tails_cases table s 4 3 done rest' _ _ hbytes with
      hstop | ⟨tails, rest'', rfl, hlength, htails⟩
    · exact hstop
    · obtain ⟨b, c, d, rfl⟩ := List.length_eq_three.mp hlength
      exact absurd ⟨_, _, _, rest'', hrest, Shape.four _ b c d hfour.1
        hfour.2 (htails b (by simp)) (htails c (by simp))
        (htails d (by simp))⟩ hnot
  · rw [if_neg hfour]

/-! Safe characters and safe text. -/

/-- An accepted value is a character above ASCII with the bytes of the
shape. -/
theorem exists_char_of_shape {table : AllowTable} {lead : UInt8}
    {tails : List UInt8} {value : Nat} (hshape : Shape lead tails value)
    (hsafe : qubesPureCodePointSafeForDisplay table value = true) :
    ∃ c : Char, 0x80 ≤ c.toNat ∧
      qubesPureCodePointSafeForDisplay table c.toNat = true ∧
        String.utf8EncodeChar c = lead :: tails := by
  have hvalid := isValidChar_of_safe hsafe
  have hvalue : (Char.ofNat value).toNat = value := by
    rw [Char.ofNat, dif_pos hvalid]
    rfl
  rw [← hvalue] at hshape hsafe
  refine ⟨Char.ofNat value, ?_, hsafe, encode_eq_of_shape hshape⟩
  by_contra hascii
  have hone := encode_ascii (Nat.lt_of_not_ge hascii)
  rw [encode_eq_of_shape hshape] at hone
  exact hshape.tails_ne_nil (List.cons.inj hone).2

/-- The string goes on with a displayable character above ASCII. -/
def StartsWithSafeChar (table : AllowTable) (rest : List UInt8) : Prop :=
  ∃ c rest', 0x80 ≤ c.toNat ∧
    qubesPureCodePointSafeForDisplay table c.toNat = true ∧
    rest = String.utf8EncodeChar c ++ rest'

theorem validateUtf8CharSafe_of_encode (table : AllowTable) (s : CString)
    {done rest : List UInt8} {c : Char} (hc : 0x80 ≤ c.toNat)
    (hsafe : qubesPureCodePointSafeForDisplay table c.toNat = true)
    (hbytes : s.bytes = done ++ (String.utf8EncodeChar c ++ rest)) :
    validateUtf8CharSafeForDisplay table s done.length =
      .ok (String.utf8EncodeChar c).length := by
  obtain ⟨lead, tails, hshape, hencode⟩ := shape_of_nonAscii hc
  rw [hencode, List.cons_append] at hbytes
  rw [validateUtf8CharSafeForDisplay,
    validateUtf8_of_shape table s hshape hbytes, verdict, if_pos hsafe,
    hencode, List.length_cons]
  simp only [bind, Except.bind, pure, Except.pure]
  rw [if_pos (by omega), Int.toNat_natCast, Nat.add_comm]

theorem validateUtf8CharSafe_eq_zero (table : AllowTable) (s : CString)
    {done rest : List UInt8} (hbytes : s.bytes = done ++ rest)
    (hnot : ¬ StartsWithSafeChar table rest) :
    validateUtf8CharSafeForDisplay table s done.length = .ok 0 := by
  by_cases hshape : StartsWithShape rest
  · obtain ⟨lead, tails, value, rest', rfl, hshape⟩ := hshape
    rw [validateUtf8CharSafeForDisplay,
      validateUtf8_of_shape table s hshape hbytes, verdict]
    by_cases hsafe : qubesPureCodePointSafeForDisplay table value = true
    · obtain ⟨c, hhigh, hchar, hencode⟩ := exists_char_of_shape hshape hsafe
      refine absurd ⟨c, rest', hhigh, hchar, ?_⟩ hnot
      rw [hencode, List.cons_append]
    · rw [if_neg hsafe]
      simp only [bind, Except.bind, pure, Except.pure]
      rw [if_neg (by omega)]
  · rw [validateUtf8CharSafeForDisplay,
      validateUtf8_of_not_shape table s hbytes hshape]
    rfl

theorem safeText_nil (table : AllowTable) : SafeText table [] :=
  ⟨[], by simp, rfl⟩

theorem encode_of_printable {c : Char} (hlow : 0x20 ≤ c.toNat)
    (hhigh : c.toNat ≤ 0x7E) :
    ∃ byte, Printable byte ∧ String.utf8EncodeChar c = [byte] := by
  refine ⟨UInt8.ofNat c.toNat, ?_, encode_ascii (by omega)⟩
  rw [printable_iff_toNat, UInt8.toNat_ofNat']
  omega

theorem exists_char_of_printable {byte : UInt8} (hbyte : Printable byte) :
    ∃ c : Char, (0x20 ≤ c.toNat ∧ c.toNat ≤ 0x7E) ∧
      String.utf8EncodeChar c = [byte] := by
  rw [printable_iff_toNat] at hbyte
  have hvalid : byte.toNat.isValidChar := Or.inl (by omega)
  have hvalue : (Char.ofNat byte.toNat).toNat = byte.toNat := by
    rw [Char.ofNat, dif_pos hvalid]
    rfl
  refine ⟨Char.ofNat byte.toNat, by omega, ?_⟩
  rw [encode_ascii (by omega), hvalue, UInt8.ofNat_toNat]

/-- Every displayable character is one printable byte or a run of bytes
above ASCII. -/
theorem Displayable.encode {table : AllowTable} {c : Char}
    (hc : Displayable table c) :
    (∃ byte, Printable byte ∧ String.utf8EncodeChar c = [byte]) ∨
      (0x80 ≤ c.toNat ∧
        qubesPureCodePointSafeForDisplay table c.toNat = true) := by
  rcases hc with hrange | hsafe
  · exact Or.inl (encode_of_printable hrange.1 hrange.2)
  · exact Or.inr hsafe

theorem SafeText.append {table : AllowTable} {left right : List UInt8}
    (hleft : SafeText table left) (hright : SafeText table right) :
    SafeText table (left ++ right) := by
  obtain ⟨chars, hchars, rfl⟩ := hleft
  obtain ⟨chars', hchars', rfl⟩ := hright
  refine ⟨chars ++ chars', ?_, by rw [List.flatMap_append]⟩
  intro c hc
  rcases List.mem_append.mp hc with hc | hc
  · exact hchars c hc
  · exact hchars' c hc

theorem safeText_singleton {table : AllowTable} {byte : UInt8}
    (hbyte : Printable byte) : SafeText table [byte] := by
  obtain ⟨c, hrange, hencode⟩ := exists_char_of_printable hbyte
  exact ⟨[c], by simp [Displayable, hrange], by simp [hencode]⟩

theorem safeText_encode {table : AllowTable} {c : Char}
    (hc : Displayable table c) :
    SafeText table (String.utf8EncodeChar c) :=
  ⟨[c], by simpa using hc, by simp⟩

/-- What follows a displayable character in safe text is safe text. -/
theorem SafeText.tail {table : AllowTable} {c : Char} {rest : List UInt8}
    (htext : SafeText table (String.utf8EncodeChar c ++ rest)) :
    Displayable table c ∧ SafeText table rest := by
  obtain ⟨chars, hchars, heq⟩ := htext
  cases chars with
  | nil => simp [String.utf8EncodeChar_ne_nil] at heq
  | cons d chars =>
      rw [List.flatMap_cons] at heq
      obtain ⟨rfl, rfl⟩ := encode_append_inj heq
      exact ⟨hchars c List.mem_cons_self, chars,
        fun d hd => hchars d (List.mem_cons_of_mem _ hd), rfl⟩

theorem safeText_cons_iff {table : AllowTable} {byte : UInt8}
    {rest : List UInt8} (hbyte : Printable byte) :
    SafeText table (byte :: rest) ↔ SafeText table rest := by
  constructor
  · intro htext
    obtain ⟨c, _, hencode⟩ := exists_char_of_printable hbyte
    have htext' : SafeText table (String.utf8EncodeChar c ++ rest) := by
      simpa [hencode] using htext
    exact htext'.tail.2
  · exact (safeText_singleton hbyte).append

theorem not_safeText_cons {table : AllowTable} {byte : UInt8}
    {rest : List UInt8} (hbyte : ¬ Printable byte)
    (hnot : ¬ StartsWithSafeChar table (byte :: rest)) :
    ¬ SafeText table (byte :: rest) := by
  rintro ⟨chars, hchars, heq⟩
  cases chars with
  | nil => simp at heq
  | cons c chars =>
      rw [List.flatMap_cons] at heq
      rcases (hchars c List.mem_cons_self).encode with
        ⟨byte', hprintable, hencode⟩ | ⟨hhigh, hsafe⟩
      · rw [hencode] at heq
        simp only [List.cons_append, List.nil_append, List.cons.injEq] at heq
        exact hbyte (heq.1 ▸ hprintable)
      · exact hnot ⟨c, _, hhigh, hsafe, heq⟩

/-- Safe text can be cut at any printable byte. -/
theorem safeText_append_cons_iff {table : AllowTable} {byte : UInt8}
    (hbyte : Printable byte) (left right : List UInt8) :
    SafeText table (left ++ byte :: right) ↔
      SafeText table left ∧ SafeText table right := by
  constructor
  · rintro ⟨chars, hchars, heq⟩
    induction chars generalizing left with
    | nil => simp at heq
    | cons c chars ih =>
        have htail : ∀ d ∈ chars, Displayable table d := fun d hd =>
          hchars d (List.mem_cons_of_mem _ hd)
        have hc := hchars c List.mem_cons_self
        rw [List.flatMap_cons] at heq
        rcases List.append_eq_append_iff.mp heq with
          ⟨middle, hencode, hright⟩ | ⟨middle, rfl, hright⟩
        · cases middle with
          | nil =>
              have hleft : SafeText table left := by
                rw [List.append_nil] at hencode
                exact hencode ▸ safeText_encode hc
              rw [List.nil_append] at hright
              have hrest : SafeText table (byte :: right) :=
                ⟨chars, htail, hright⟩
              exact ⟨hleft, (safeText_cons_iff hbyte).mp hrest⟩
          | cons head middle =>
              rw [List.cons_append, List.cons.injEq] at hright
              obtain ⟨rfl, rfl⟩ := hright
              rcases hc.encode with ⟨byte', _, hone⟩ | ⟨hhigh, _⟩
              · rw [hone] at hencode
                have hnil : left = [] ∧ middle = [] := by
                  cases left with
                  | nil => exact ⟨rfl, (List.cons.inj hencode.symm).2⟩
                  | cons _ _ => simp at hencode
                rw [hnil.1, hnil.2, List.nil_append]
                exact ⟨safeText_nil table, chars, htail, rfl⟩
              · have hmem : byte ∈ String.utf8EncodeChar c := by
                  rw [hencode]
                  simp
                have := high_of_mem_encode hhigh hmem
                rw [printable_iff_toNat] at hbyte
                omega
        · obtain ⟨hmiddle, hrest⟩ := ih middle htail hright.symm
          exact ⟨(safeText_encode hc).append hmiddle, hrest⟩
  · rintro ⟨hleft, hright⟩
    exact hleft.append ((safeText_cons_iff hbyte).mpr hright)

end QubesUtils
