/-
`qubes_pure_string_safe_for_display` stays on the boundaries of characters,
so that it accepts exactly the nonempty safe text.
-/
import QubesUtils.Display
import QubesUtils.SafeText

namespace QubesUtils

open Utf8

section

variable {table : AllowTable} {s : CString} {done rest : List UInt8}

theorem stringSafeStep_printable {byte : UInt8}
    (hbytes : s.bytes = done ++ byte :: rest) (hbyte : Printable byte) :
    stringSafeStep table s done.length = .ok (some (done.length + 1)) := by
  rw [stringSafeStep, s.byteAt_of_eq_append hbytes]
  simp only [bind, Except.bind]
  exact if_pos hbyte

theorem stringSafeStep_safeChar {c : Char} (hc : 0x80 ≤ c.toNat)
    (hsafe : qubesPureCodePointSafeForDisplay table c.toNat = true)
    (hbytes : s.bytes = done ++ (String.utf8EncodeChar c ++ rest)) :
    stringSafeStep table s done.length =
      .ok (some (done.length + (String.utf8EncodeChar c).length)) := by
  have hpos : 0 < (String.utf8EncodeChar c).length :=
    List.length_pos_of_ne_nil String.utf8EncodeChar_ne_nil
  have hcheck := validateUtf8CharSafe_of_encode table s hc hsafe hbytes
  obtain ⟨lead, tails, hshape, hencode⟩ := shape_of_nonAscii hc
  have hprintable : ¬ (0x20 ≤ lead ∧ lead ≤ 0x7E) :=
    not_printable_of_shape hshape
  rw [hencode, List.cons_append] at hbytes
  rw [stringSafeStep, s.byteAt_of_eq_append hbytes]
  simp only [bind, Except.bind]
  rw [hcheck]
  simp only
  rw [if_neg hprintable, if_pos hpos]

/-- Each displayable character takes the loop to the next boundary. -/
theorem stringSafeStep_displayable {c : Char} (hc : Displayable table c)
    (hbytes : s.bytes = done ++ (String.utf8EncodeChar c ++ rest)) :
    stringSafeStep table s done.length =
      .ok (some (done ++ String.utf8EncodeChar c).length) := by
  rw [List.length_append]
  rcases hc.encode with ⟨byte, hbyte, hencode⟩ | ⟨hhigh, hsafe⟩
  · rw [hencode] at hbytes ⊢
    exact stringSafeStep_printable hbytes hbyte
  · exact stringSafeStep_safeChar hhigh hsafe hbytes

/-- The rest of a string starts with a displayable character, or it does not
and the loop stops. -/
theorem displayable_or_stops (hbytes : s.bytes = done ++ rest) :
    (∃ c rest', Displayable table c ∧
        rest = String.utf8EncodeChar c ++ rest') ∨
      (¬ SafeText table rest ∨ rest = []) ∧
        stringSafeStep table s done.length = .ok none := by
  by_cases hstarts : StartsWithSafeChar table rest
  · obtain ⟨c, rest', hhigh, hsafe, hrest⟩ := hstarts
    exact Or.inl ⟨c, rest', Or.inr ⟨hhigh, hsafe⟩, hrest⟩
  have hzero := validateUtf8CharSafe_eq_zero table s hbytes hstarts
  by_cases hbyte : Printable (rest.headD 0)
  · cases rest with
    | nil => exact absurd hbyte (by decide)
    | cons byte rest =>
        obtain ⟨c, hrange, hencode⟩ := exists_char_of_printable hbyte
        exact Or.inl ⟨c, rest, Or.inl hrange, by simp [hencode]⟩
  · refine Or.inr ⟨?_, ?_⟩
    · cases rest with
      | nil => exact Or.inr rfl
      | cons byte rest => exact Or.inl (not_safeText_cons hbyte hstarts)
    · rw [stringSafeStep, s.byteAt_append hbytes]
      simp only [bind, Except.bind]
      rw [hzero]
      exact if_neg hbyte

/-- From a boundary on, the loop decides whether the rest is safe text. -/
theorem stringSafeLoop_eq_true_iff (fuel : Nat) :
    ∀ done rest, s.bytes = done ++ rest → rest.length < fuel →
      ∃ verdict, stringSafeLoop table s fuel done.length = .ok verdict ∧
        (verdict = true ↔ rest ≠ [] ∧ SafeText table rest) := by
  induction fuel with
  | zero => exact fun _ _ _ hfuel => absurd hfuel (Nat.not_lt_zero _)
  | succ fuel ih =>
      intro done rest hbytes hfuel
      rw [stringSafeLoop]
      rcases @displayable_or_stops table s done rest hbytes with
        ⟨c, rest', hc, rfl⟩ | ⟨hnot, hstep⟩
      · have hne := @String.utf8EncodeChar_ne_nil c
        have hbytes' : s.bytes =
            (done ++ String.utf8EncodeChar c) ++ rest' := by
          rw [hbytes, List.append_assoc]
        have hsafe : SafeText table (String.utf8EncodeChar c ++ rest') ↔
            SafeText table rest' :=
          ⟨fun h => h.tail.2, (safeText_encode hc).append⟩
        rw [stringSafeStep_displayable hc hbytes]
        simp only [bind, Except.bind]
        rw [s.byteAt_append hbytes', hsafe]
        simp only
        cases rest' with
        | nil =>
            exact ⟨true, if_neg (by simp),
              by simp [hne, safeText_nil table]⟩
        | cons byte rest' =>
            have hbyte : byte ≠ 0 := s.ne_zero_of_mem (by simp [hbytes])
            have hpos := List.length_pos_of_ne_nil hne
            rw [List.length_append] at hfuel
            obtain ⟨verdict, hrun, hverdict⟩ :=
              ih _ (byte :: rest') hbytes' (by omega)
            rw [List.headD_cons, if_pos hbyte, hrun]
            exact ⟨verdict, rfl, by simpa using hverdict⟩
      · rw [hstep]
        refine ⟨false, rfl, ?_⟩
        simp only [Bool.false_eq_true, false_iff, not_and]
        intro hne hsafe
        rcases hnot with hnot | hnil
        · exact hnot hsafe
        · exact hne hnil

end

/-- The check returns, and its verdict is whether the string is nonempty safe
text. -/
theorem stringSafe_verdict (table : AllowTable) (s : CString) :
    ∃ verdict, qubesPureStringSafeForDisplay table s 0 = .ok verdict ∧
      (verdict = true ↔ s.bytes ≠ [] ∧ SafeText table s.bytes) := by
  rw [qubesPureStringSafeForDisplay, if_pos rfl]
  exact stringSafeLoop_eq_true_iff _ [] s.bytes rfl (Nat.lt_succ_self _)

theorem stringSafe_iff (table : AllowTable) (s : CString) :
    qubesPureStringSafeForDisplay table s 0 = .ok true ↔
      s.bytes ≠ [] ∧ SafeText table s.bytes := by
  obtain ⟨verdict, hrun, hverdict⟩ := stringSafe_verdict table s
  rw [hrun, Except.ok.injEq, hverdict]

/-! The decomposition into characters. -/

/-- The text is the concatenation of the encodings of displayable
characters. -/
def Decomposition (table : AllowTable) (chars : List Char)
    (text : List UInt8) : Prop :=
  (∀ c ∈ chars, Displayable table c) ∧
    text = chars.flatMap String.utf8EncodeChar

theorem flatMap_encode_injective {chars chars' : List Char}
    (heq : chars.flatMap String.utf8EncodeChar =
      chars'.flatMap String.utf8EncodeChar) : chars = chars' := by
  induction chars generalizing chars' with
  | nil =>
      cases chars' with
      | nil => rfl
      | cons c chars' => simp [String.utf8EncodeChar_ne_nil] at heq
  | cons c chars ih =>
      cases chars' with
      | nil => simp [String.utf8EncodeChar_ne_nil] at heq
      | cons d chars' =>
          rw [List.flatMap_cons, List.flatMap_cons] at heq
          obtain ⟨rfl, hrest⟩ := encode_append_inj heq
          rw [ih hrest]

theorem safeText_iff_existsUnique (table : AllowTable) (text : List UInt8) :
    SafeText table text ↔ ∃! chars, Decomposition table chars text := by
  constructor
  · rintro ⟨chars, hchars, htext⟩
    refine ⟨chars, ⟨hchars, htext⟩, ?_⟩
    rintro chars' ⟨_, htext'⟩
    exact flatMap_encode_injective (htext'.symm.trans htext)
  · rintro ⟨chars, ⟨hchars, htext⟩, _⟩
    exact ⟨chars, hchars, htext⟩

/-- The indices at which the characters start, and the end of the last
one. -/
def boundaries : Nat → List Char → List Nat
  | i, [] => [i]
  | i, c :: chars =>
      i :: boundaries (i + (String.utf8EncodeChar c).length) chars

theorem boundaries_head (i : Nat) (chars : List Char) :
    ∃ rest, boundaries i chars = i :: rest := by
  cases chars with
  | nil => exact ⟨[], rfl⟩
  | cons c chars => exact ⟨_, rfl⟩

/-- The loop body goes from each boundary to the next one. -/
theorem boundaries_chain {table : AllowTable} {s : CString}
    (chars : List Char) (hchars : ∀ c ∈ chars, Displayable table c) :
    ∀ done, s.bytes = done ++ chars.flatMap String.utf8EncodeChar →
      (boundaries done.length chars).IsChain
        (fun i next => stringSafeStep table s i = .ok (some next)) := by
  induction chars with
  | nil => exact fun _ _ => List.IsChain.singleton _
  | cons c chars ih =>
      intro done hbytes
      rw [List.flatMap_cons] at hbytes
      have hstep := stringSafeStep_displayable
        (hchars c List.mem_cons_self) hbytes
      have hrest := ih (fun d hd => hchars d (List.mem_cons_of_mem _ hd))
        (done ++ String.utf8EncodeChar c) (by rw [hbytes, List.append_assoc])
      rw [List.length_append] at hstep hrest
      rw [boundaries]
      obtain ⟨rest, hhead⟩ := boundaries_head
        (done.length + (String.utf8EncodeChar c).length) chars
      rw [hhead] at hrest ⊢
      exact List.IsChain.cons_cons hstep hrest

theorem noNul_of_displayable {table : AllowTable} {chars : List Char}
    (hchars : ∀ c ∈ chars, Displayable table c) :
    (0 : UInt8) ∉ chars.flatMap String.utf8EncodeChar := by
  intro hmem
  obtain ⟨c, hc, hbyte⟩ := List.mem_flatMap.mp hmem
  rcases (hchars c hc).encode with ⟨byte, hprintable, hencode⟩ | ⟨hhigh, _⟩
  · rw [hencode, List.mem_singleton] at hbyte
    subst hbyte
    exact absurd hprintable (by decide)
  · exact absurd (high_of_mem_encode hhigh hbyte) (by decide)

/-- The check accepts exactly the nonempty concatenations of strict UTF-8
encodings of displayable characters, and its loop runs through the boundaries
of the only decomposition. -/
theorem qubesPureStringSafeForDisplay_accepts (table : AllowTable) :
    (∀ s : CString, qubesPureStringSafeForDisplay table s 0 = .ok true ↔
      s.bytes ≠ [] ∧ ∃! chars, Decomposition table chars s.bytes) ∧
    (∀ (s : CString) (chars : List Char),
      Decomposition table chars s.bytes →
        (boundaries 0 chars).IsChain
          (fun i next => stringSafeStep table s i = .ok (some next))) ∧
    (∀ chars : List Char, chars ≠ [] →
      (∀ c ∈ chars, Displayable table c) →
        ∃ s : CString, s.bytes = chars.flatMap String.utf8EncodeChar ∧
          qubesPureStringSafeForDisplay table s 0 = .ok true) := by
  refine ⟨?_, ?_, ?_⟩
  · intro s
    rw [stringSafe_iff, safeText_iff_existsUnique]
  · rintro s chars ⟨hchars, hbytes⟩
    exact boundaries_chain chars hchars [] hbytes
  · intro chars hne hchars
    refine ⟨⟨_, noNul_of_displayable hchars⟩, rfl, ?_⟩
    rw [stringSafe_iff]
    refine ⟨?_, chars, hchars, rfl⟩
    obtain ⟨c, rest, rfl⟩ := List.exists_cons_of_ne_nil hne
    simp [String.utf8EncodeChar_ne_nil]

end QubesUtils
