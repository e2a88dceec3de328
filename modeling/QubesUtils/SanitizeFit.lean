/-
How much the sanitizer keeps.  A character of several bytes is dropped when
it would end exactly where the text may end; in every other case the output
is the longest run of leading units that fits.
-/
import QubesUtils.Sanitize

namespace QubesUtils

/-- The longest run of leading units that takes at most `limit` bytes. -/
structure LongestFit (limit : Nat) (units kept : List (List UInt8)) :
    Prop where
  leading : kept <+: units
  fits : kept.flatten.length ≤ limit
  longest : ∀ other, other <+: units → other.flatten.length ≤ limit →
    other.length ≤ kept.length

/-- A unit of several bytes ends exactly at `limit`. -/
def EndsAt (limit : Nat) (units : List (List UInt8)) : Prop :=
  ∃ before unit after, units = before ++ unit :: after ∧ 1 < unit.length ∧
    before.flatten.length + unit.length = limit

theorem EndsAt.cons {limit : Nat} {units : List (List UInt8)}
    (hends : EndsAt limit units) (unit : List UInt8) :
    EndsAt (unit.length + limit) (unit :: units) := by
  obtain ⟨before, last, after, rfl, hlong, hlimit⟩ := hends
  refine ⟨unit :: before, last, after, rfl, hlong, ?_⟩
  rw [List.flatten_cons, List.length_append, Nat.add_assoc, hlimit]

/-- The loop stops in front of a unit that ends at the limit. -/
theorem writtenUnits_of_endsAt (before after : List (List UInt8))
    (unit : List UInt8) (hlong : 1 < unit.length) :
    ∀ room, before.flatten.length + unit.length = room →
      (writtenUnits room (before ++ unit :: after)).length ≤
        before.length := by
  induction before with
  | nil =>
      intro room hroom
      have hstops : ¬ ((unit.length = 1 ∧ 0 < room) ∨
          unit.length < room) := by
        rw [List.flatten_nil, List.length_nil] at hroom
        omega
      rw [List.nil_append, writtenUnits, if_neg hstops]
  | cons first before ih =>
      intro room hroom
      rw [List.flatten_cons, List.length_append] at hroom
      rw [List.cons_append, writtenUnits]
      split
      · have hrest := ih (room - first.length) (by omega)
        rw [List.length_cons, List.length_cons]
        omega
      · exact Nat.zero_le _

/-- Where no such unit is, nothing longer than what is written fits. -/
theorem writtenUnits_longest (units : List (List UInt8))
    (hne : ∀ unit ∈ units, unit ≠ []) :
    ∀ room, ¬ EndsAt room units → ∀ other, other <+: units →
      other.flatten.length ≤ room →
        other.length ≤ (writtenUnits room units).length := by
  induction units with
  | nil =>
      intro room _ other hother _
      rw [List.prefix_nil.mp hother]
      exact Nat.zero_le _
  | cons unit units ih =>
      intro room hends other hleading hroom
      rcases List.prefix_cons_iff.mp hleading with rfl | ⟨other, rfl, hother⟩
      · exact Nat.zero_le _
      · have hpos := List.length_pos_of_ne_nil (hne unit List.mem_cons_self)
        rw [List.flatten_cons, List.length_append] at hroom
        have hexact : 1 < unit.length → unit.length ≠ room := by
          intro hlong heq
          exact hends ⟨[], unit, units, rfl, hlong, by simpa using heq⟩
        have hrest : ¬ EndsAt (room - unit.length) units := by
          intro h
          have hcons := h.cons unit
          rw [Nat.add_sub_cancel' (by omega)] at hcons
          exact hends hcons
        have hlength := ih
          (fun u hu => hne u (List.mem_cons_of_mem _ hu))
          (room - unit.length) hrest other hother (by omega)
        rw [writtenUnits, if_pos (by omega), List.length_cons,
          List.length_cons]
        omega

theorem flatten_length_le_of_prefix {units units' : List (List UInt8)}
    (hleading : units <+: units') :
    units.flatten.length ≤ units'.flatten.length := by
  obtain ⟨others, rfl⟩ := hleading
  rw [List.flatten_append, List.length_append]
  exact Nat.le_add_right _ _

/-- What fits is longer than what is written, where a unit ends at the
limit. -/
theorem LongestFit.longer_of_endsAt {limit : Nat}
    {units kept : List (List UInt8)} (hkept : LongestFit limit units kept)
    (hends : EndsAt limit units) :
    (writtenUnits limit units).flatten.length < kept.flatten.length := by
  obtain ⟨before, unit, after, rfl, hlong, hlimit⟩ := hends
  have hwith : before ++ [unit] <+: before ++ unit :: after :=
    ⟨after, by simp⟩
  have hbefore : before <+: before ++ unit :: after := ⟨unit :: after, rfl⟩
  have hfits : (before ++ [unit]).flatten.length = limit := by
    simp only [List.flatten_append, List.flatten_singleton,
      List.length_append]
    exact hlimit
  have hlengths := hkept.longest _ hwith (Nat.le_of_eq hfits)
  have hkeeps := flatten_length_le_of_prefix
    (List.prefix_of_prefix_length_le hwith hkept.leading hlengths)
  have hwritten := flatten_length_le_of_prefix
    (List.prefix_of_prefix_length_le
      (writtenUnits_leading limit (before ++ unit :: after)) hbefore
      (writtenUnits_of_endsAt before after unit hlong limit hlimit))
  omega

theorem Splits.units_ne_nil {table : AllowTable} {text : List UInt8}
    {units : List (List UInt8)} (hunits : Splits table text units) :
    ∀ unit ∈ units, unit ≠ [] := by
  induction hunits with
  | nil => simp
  | printable _ _ ih => simpa using ih
  | allowed _ _ _ ih => simpa using ih
  | forbidden _ _ _ ih => simpa using ih
  | stray _ _ _ ih => simpa using ih

/-- Safe text is shown as it is. -/
theorem Splits.flatten_of_safeText {table : AllowTable} {text : List UInt8}
    {units : List (List UInt8)} (hunits : Splits table text units)
    (htext : SafeText table text) : units.flatten = text := by
  induction hunits with
  | nil => rfl
  | printable hbyte _ ih =>
      rw [List.flatten_cons, ih ((safeText_cons_iff hbyte).mp htext)]
      rfl
  | allowed hshape hsafe _ ih =>
      obtain ⟨c, hhigh, hchar, hencode⟩ := exists_char_of_shape hshape hsafe
      rw [← List.cons_append, ← hencode] at htext ⊢
      rw [List.flatten_cons, ih htext.tail.2]
  | forbidden hshape hsafe _ ih =>
      refine absurd htext (not_safeText_cons
        (not_printable_of_shape hshape) ?_)
      rintro ⟨c, rest', hhigh, hchar, heq⟩
      obtain ⟨lead, tails, hshape', hencode⟩ := Utf8.shape_of_nonAscii hhigh
      rw [hencode, List.cons_append] at heq
      obtain ⟨rfl, htails⟩ := List.cons.inj heq
      obtain ⟨_, rfl, _⟩ := hshape.unique hshape' htails
      exact absurd (hsafe.symm.trans hchar) (by decide)
  | stray hbyte hnot _ ih =>
      refine absurd htext (not_safeText_cons hbyte ?_)
      rintro ⟨c, rest', hhigh, _, heq⟩
      obtain ⟨lead, tails, hshape, hencode⟩ := Utf8.shape_of_nonAscii hhigh
      exact hnot ⟨lead, tails, _, rest', by rw [heq, hencode]; rfl, hshape⟩

/-- The text that is written is the longest run of leading units that leaves
room for the terminator; safe text that fits comes back unchanged. -/
def KeepsWhatFits (table : AllowTable) (s : CString) (buffer : List UInt8)
    (maxLineLength : Nat) : Prop :=
  ∃ result r,
    qubesPureSanitizeStringSafeForDisplay table s buffer maxLineLength =
      .ok (result, r) ∧
    (∃ units kept, Splits table s.bytes units ∧
      LongestFit (maxLineLength - 1) units kept ∧
      result.take r = kept.flatten ++ [0]) ∧
    (s.bytes = [] ∨ qubesPureStringSafeForDisplay table s 0 = .ok true →
      s.bytes.length < maxLineLength → result.take r = s.bytes ++ [0])

/-- A kept character of several bytes ends exactly where the text may end. -/
def CharacterEndsAt (table : AllowTable) (s : CString) (limit : Nat) :
    Prop :=
  ∃ units, Splits table s.bytes units ∧ EndsAt limit units

theorem take_terminated (text rest : List UInt8) :
    (text ++ 0 :: rest).take (text.length + 1) = text ++ [0] := by
  simp [List.take_append]

theorem sanitize_keepsWhatFits_iff (table : AllowTable) (s : CString)
    (buffer : List UInt8) (maxLineLength : Nat) (hpos : 1 ≤ maxLineLength)
    (hsize : buffer.length = maxLineLength) :
    KeepsWhatFits table s buffer maxLineLength ↔
      ¬ CharacterEndsAt table s (maxLineLength - 1) := by
  obtain ⟨units, hunits⟩ := exists_splits table s.bytes
  have hrun := sanitize_eq hunits hpos hsize
  constructor
  · rintro ⟨result, r, hresult, ⟨units', kept, hunits', hkept, htext⟩, _⟩
    rintro ⟨units'', hunits'', hends⟩
    obtain rfl := hunits.unique hunits'
    obtain rfl := hunits.unique hunits''
    rw [hrun, Except.ok.injEq, Prod.mk.injEq] at hresult
    obtain ⟨rfl, rfl⟩ := hresult
    rw [take_terminated] at htext
    have hlonger := hkept.longer_of_endsAt hends
    rw [List.append_cancel_right htext] at hlonger
    exact absurd hlonger (Nat.lt_irrefl _)
  · intro hnot
    have hkept : LongestFit (maxLineLength - 1) units
        (writtenUnits (maxLineLength - 1) units) :=
      ⟨writtenUnits_leading _ _, writtenUnits_length_le _ _,
        writtenUnits_longest units hunits.units_ne_nil _
          (fun hends => hnot ⟨units, hunits, hends⟩)⟩
    refine ⟨_, _, hrun, ⟨units, _, hunits, hkept, take_terminated _ _⟩, ?_⟩
    intro hsafe hlength
    have htext : SafeText table s.bytes := by
      rcases hsafe with hnil | haccepted
      · exact hnil ▸ safeText_nil table
      · exact ((stringSafe_iff table s).mp haccepted).2
    have hflatten := hunits.flatten_of_safeText htext
    have hall := hkept.longest units (List.prefix_refl _)
      (by rw [hflatten]; omega)
    rw [hkept.leading.eq_of_length_le hall, hflatten, take_terminated]

/-- Two bytes of text are allowed, and the character takes two. -/
def accentExample : CString := ⟨[0xC3, 0xA9], by decide⟩

theorem accentExample_dropped :
    ¬ KeepsWhatFits committedTable accentExample [0, 0, 0] 3 := by
  rintro ⟨result, r, hresult, _, hunchanged⟩
  have hrun : qubesPureSanitizeStringSafeForDisplay committedTable
      accentExample [0, 0, 0] 3 = .ok ([0, 0, 0], 1) := by decide +kernel
  have hsafe : qubesPureStringSafeForDisplay committedTable accentExample 0 =
      .ok true := by decide +kernel
  rw [hrun, Except.ok.injEq, Prod.mk.injEq] at hresult
  obtain ⟨rfl, rfl⟩ := hresult
  exact absurd (hunchanged (Or.inr hsafe) (by decide)) (by decide)

theorem sanitize_keepsWhatFits_accent :
    KeepsWhatFits committedTable accentExample [0, 0, 0, 0] 4 ↔
      ¬ CharacterEndsAt committedTable accentExample 3 :=
  sanitize_keepsWhatFits_iff committedTable accentExample [0, 0, 0, 0] 4
    (by decide) rfl

end QubesUtils
