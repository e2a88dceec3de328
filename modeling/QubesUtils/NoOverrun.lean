/-
The string functions of `unicode.c` return on every string and buffer: no
read past the terminator, no write past the buffer, no failed assertion.
-/
import QubesUtils.PathLanguage
import QubesUtils.Sanitize

namespace QubesUtils

/-- The check of one character stays inside the string wherever it starts. -/
theorem validateUtf8CharAndReturnLen_total (table : AllowTable)
    (s : CString) {i : Nat} (hi : i ≤ s.bytes.length) :
    ∃ k, validateUtf8CharAndReturnLen table s i = .ok k := by
  have hbytes : s.bytes = s.bytes.take i ++ s.bytes.drop i :=
    (List.take_append_drop i s.bytes).symm
  have hlength : (s.bytes.take i).length = i := by
    rw [List.length_take, Nat.min_eq_left hi]
  by_cases hstarts : StartsWithShape (s.bytes.drop i)
  · obtain ⟨lead, tails, value, rest, hrest, hshape⟩ := hstarts
    have hcheck := validateUtf8_of_shape table s hshape (hrest ▸ hbytes)
    rw [hlength] at hcheck
    exact ⟨_, hcheck⟩
  · have hcheck := validateUtf8_of_not_shape table s hbytes hstarts
    rw [hlength] at hcheck
    exact ⟨_, hcheck⟩

theorem sanitize_total (table : AllowTable) (s : CString)
    (buffer : List UInt8) :
    ∃ result r, qubesPureSanitizeStringSafeForDisplay table s buffer
      buffer.length = .ok (result, r) := by
  by_cases hempty : buffer.length = 0
  · rw [qubesPureSanitizeStringSafeForDisplay, if_pos hempty]
    exact ⟨_, _, rfl⟩
  · obtain ⟨units, hunits⟩ := exists_splits table s.bytes
    exact ⟨_, _, sanitize_eq hunits (Nat.one_le_iff_ne_zero.mpr hempty) rfl⟩

/-- Every read is at most at the terminator, every write is inside the
buffer, and the statements marked as unreachable are. -/
theorem unicode_noFault (table : AllowTable) (s : CString) (flags : Flags)
    (allowedLeadingDotdot : Nat) (buffer : List UInt8) :
    (∃ k, validatePath table s allowedLeadingDotdot flags = .ok k) ∧
    (∀ i ≤ s.bytes.length,
      ∃ k, validateUtf8CharAndReturnLen table s i = .ok k) ∧
    (∃ verdict, qubesPureStringSafeForDisplay table s 0 = .ok verdict) ∧
    ∃ result r, qubesPureSanitizeStringSafeForDisplay table s buffer
      buffer.length = .ok (result, r) := by
  refine ⟨validatePath_total s allowedLeadingDotdot, ?_, ?_, ?_⟩
  · exact fun _ hi => validateUtf8CharAndReturnLen_total table s hi
  · obtain ⟨verdict, hrun, _⟩ := stringSafe_verdict table s
    exact ⟨verdict, hrun⟩
  · exact sanitize_total table s buffer

end QubesUtils
