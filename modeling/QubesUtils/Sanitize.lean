/-
What the sanitizer of `unicode.c` writes: leading units of its input, each
kept or replaced by an underscore.
-/
import QubesUtils.DisplayText

namespace QubesUtils

open Utf8

/-- The units of a string from the left, as they are shown: printable bytes
and allowed characters as they are, forbidden characters and stray bytes as
one underscore each. -/
inductive Splits (table : AllowTable) : List UInt8 → List (List UInt8) → Prop
  | nil : Splits table [] []
  | printable {byte : UInt8} {rest : List UInt8} {units : List (List UInt8)} :
      Printable byte → Splits table rest units →
        Splits table (byte :: rest) ([byte] :: units)
  | allowed {lead : UInt8} {tails rest : List UInt8} {value : Nat}
      {units : List (List UInt8)} :
      Shape lead tails value →
        qubesPureCodePointSafeForDisplay table value = true →
          Splits table rest units →
            Splits table (lead :: (tails ++ rest)) ((lead :: tails) :: units)
  | forbidden {lead : UInt8} {tails rest : List UInt8} {value : Nat}
      {units : List (List UInt8)} :
      Shape lead tails value →
        qubesPureCodePointSafeForDisplay table value = false →
          Splits table rest units →
            Splits table (lead :: (tails ++ rest)) ([underscore] :: units)
  | stray {byte : UInt8} {rest : List UInt8} {units : List (List UInt8)} :
      ¬ Printable byte → ¬ StartsWithShape (byte :: rest) →
        Splits table rest units →
          Splits table (byte :: rest) ([underscore] :: units)

theorem exists_splits (table : AllowTable) (text : List UInt8) :
    ∃ units, Splits table text units := by
  induction hlength : text.length using Nat.strong_induction_on
    generalizing text with
  | _ length ih =>
      subst hlength
      cases text with
      | nil => exact ⟨_, .nil⟩
      | cons byte rest =>
          by_cases hbyte : Printable byte
          · obtain ⟨units, hunits⟩ := ih _ (by simp) rest rfl
            exact ⟨_, .printable hbyte hunits⟩
          by_cases hstarts : StartsWithShape (byte :: rest)
          · obtain ⟨lead, tails, value, rest', heq, hshape⟩ := hstarts
            obtain ⟨units, hunits⟩ := ih rest'.length
              (by rw [heq, List.length_cons, List.length_append]; omega)
              rest' rfl
            rw [heq]
            cases hsafe : qubesPureCodePointSafeForDisplay table value with
            | true => exact ⟨_, .allowed hshape hsafe hunits⟩
            | false => exact ⟨_, .forbidden hshape hsafe hunits⟩
          · obtain ⟨units, hunits⟩ := ih _ (by simp) rest rfl
            exact ⟨_, .stray hbyte hstarts hunits⟩

theorem startsWithShape_of_shape {lead : UInt8} {tails : List UInt8}
    {value : Nat} (hshape : Shape lead tails value) (rest : List UInt8) :
    StartsWithShape (lead :: (tails ++ rest)) :=
  ⟨lead, tails, value, rest, rfl, hshape⟩

/-- The text determines its units. -/
theorem Splits.unique {table : AllowTable} {text : List UInt8}
    {units units' : List (List UInt8)} (hunits : Splits table text units)
    (hunits' : Splits table text units') : units = units' := by
  induction hunits generalizing units' with
  | nil =>
      cases hunits'
      rfl
  | printable hbyte _ ih =>
      cases hunits' with
      | printable _ hrest => rw [ih hrest]
      | allowed hshape _ _ =>
          exact absurd hbyte (not_printable_of_shape hshape)
      | forbidden hshape _ _ =>
          exact absurd hbyte (not_printable_of_shape hshape)
      | stray hnot _ _ => exact absurd hbyte hnot
  | @allowed lead tails rest value units hshape hsafe _ ih =>
      generalize htext : lead :: (tails ++ rest) = text at hunits'
      cases hunits' with
      | nil => cases htext
      | printable hbyte _ =>
          obtain ⟨rfl, _⟩ := List.cons.inj htext
          exact absurd hbyte (not_printable_of_shape hshape)
      | allowed hshape' hsafe' hrest =>
          obtain ⟨rfl, htails⟩ := List.cons.inj htext
          obtain ⟨rfl, rfl, rfl⟩ := hshape.unique hshape' htails
          rw [ih hrest]
      | forbidden hshape' hsafe' hrest =>
          obtain ⟨rfl, htails⟩ := List.cons.inj htext
          obtain ⟨rfl, rfl, rfl⟩ := hshape.unique hshape' htails
          exact absurd (hsafe.symm.trans hsafe') (by decide)
      | stray _ hnot _ =>
          exact absurd (htext ▸ startsWithShape_of_shape hshape rest) hnot
  | @forbidden lead tails rest value units hshape hsafe _ ih =>
      generalize htext : lead :: (tails ++ rest) = text at hunits'
      cases hunits' with
      | nil => cases htext
      | printable hbyte _ =>
          obtain ⟨rfl, _⟩ := List.cons.inj htext
          exact absurd hbyte (not_printable_of_shape hshape)
      | allowed hshape' hsafe' hrest =>
          obtain ⟨rfl, htails⟩ := List.cons.inj htext
          obtain ⟨rfl, rfl, rfl⟩ := hshape.unique hshape' htails
          exact absurd (hsafe.symm.trans hsafe') (by decide)
      | forbidden hshape' hsafe' hrest =>
          obtain ⟨rfl, htails⟩ := List.cons.inj htext
          obtain ⟨rfl, rfl, rfl⟩ := hshape.unique hshape' htails
          rw [ih hrest]
      | stray _ hnot _ =>
          exact absurd (htext ▸ startsWithShape_of_shape hshape rest) hnot
  | stray hbyte hnot _ ih =>
      cases hunits' with
      | printable hprintable _ => exact absurd hprintable hbyte
      | allowed hshape _ _ =>
          exact absurd (startsWithShape_of_shape hshape _) hnot
      | forbidden hshape _ _ =>
          exact absurd (startsWithShape_of_shape hshape _) hnot
      | stray _ _ hrest => rw [ih hrest]

/-! The loop of the sanitizer. -/

/-- The leading units that the loop writes into `room` bytes: a unit of
several bytes must leave one of them free. -/
def writtenUnits : Nat → List (List UInt8) → List (List UInt8)
  | _, [] => []
  | room, unit :: units =>
      if (unit.length = 1 ∧ 0 < room) ∨ unit.length < room then
        unit :: writtenUnits (room - unit.length) units
      else
        []

section

variable {table : AllowTable} {s : CString} {done rest : List UInt8}
variable {written blank : List UInt8} {limit : Nat}

/-- The state of the loop in front of the byte behind `done`. -/
def sanitizeAt (done written blank : List UInt8) : SanitizeState :=
  ⟨done.length, written.length, written ++ blank⟩

theorem sanitizeKeep_eq (bytes : List UInt8) :
    ∀ done written blank, s.bytes = done ++ (bytes ++ rest) →
      bytes.length ≤ blank.length →
        sanitizeKeep s bytes.length (sanitizeAt done written blank) =
          .ok (sanitizeAt (done ++ bytes) (written ++ bytes)
            (blank.drop bytes.length)) := by
  induction bytes with
  | nil =>
      intro done written blank _ _
      simp [sanitizeKeep]
  | cons byte bytes ih =>
      intro done written blank hbytes hroom
      cases blank with
      | nil => simp at hroom
      | cons old blank =>
          have hrest := ih (done ++ [byte]) (written ++ [byte]) blank
            (by simpa using hbytes) (by simpa using hroom)
          rw [List.length_cons, sanitizeKeep, sanitizeAt,
            s.byteAt_of_eq_append hbytes]
          simp only [bind, Except.bind]
          rw [storeByte_append]
          simp only
          rw [sanitizeAt, List.length_append, List.length_append] at hrest
          simpa using hrest

theorem sanitizeStep_printable {byte old : UInt8}
    (hbytes : s.bytes = done ++ byte :: rest) (hbyte : Printable byte) :
    sanitizeStep table s limit (sanitizeAt done written (old :: blank)) =
      .ok (some (sanitizeAt (done ++ [byte]) (written ++ [byte]) blank)) := by
  have hrange : 0x20 ≤ byte ∧ byte ≤ 0x7E := hbyte
  rw [sanitizeStep, sanitizeAt, s.byteAt_of_eq_append hbytes]
  simp only [bind, Except.bind]
  rw [if_pos hrange, storeByte_append]
  simp [sanitizeAt]

/-- Any other byte is judged by the character check. -/
theorem sanitizeStep_checked {byte : UInt8} {utf8Ret : Int}
    (hbytes : s.bytes = done ++ byte :: rest) (hbyte : ¬ Printable byte)
    (hcheck : validateUtf8CharAndReturnLen table s done.length =
      .ok utf8Ret) :
    sanitizeStep table s limit (sanitizeAt done written blank) =
      (if utf8Ret < 0 then
        (storeByte (written ++ blank) written.length underscore).bind
          fun result => .ok (some ⟨done.length + (-utf8Ret).toNat,
            written.length + 1, result⟩)
      else if limit - written.length ≤ utf8Ret.toNat then
        .ok none
      else
        (sanitizeKeep s utf8Ret.toNat (sanitizeAt done written blank)).bind
          fun state => .ok (some state)) := by
  have hrange : ¬ (0x20 ≤ byte ∧ byte ≤ 0x7E) := hbyte
  rw [sanitizeStep, sanitizeAt, s.byteAt_of_eq_append hbytes]
  simp only [bind, Except.bind]
  rw [if_neg hrange, hcheck]

theorem sanitizeStep_replaced {byte old : UInt8} {source rest : List UInt8}
    (hbytes : s.bytes = done ++ byte :: (source ++ rest))
    (hbyte : ¬ Printable byte)
    (hcheck : validateUtf8CharAndReturnLen table s done.length =
      .ok (-((1 + source.length : Nat) : Int))) :
    sanitizeStep table s limit (sanitizeAt done written (old :: blank)) =
      .ok (some (sanitizeAt (done ++ byte :: source)
        (written ++ [underscore]) blank)) := by
  rw [sanitizeStep_checked hbytes hbyte hcheck, if_pos (by omega),
    storeByte_append]
  simp only [Except.bind]
  have hadvance : (-(-((1 + source.length : Nat) : Int))).toNat =
      source.length + 1 := by omega
  rw [hadvance]
  simp [sanitizeAt]

theorem sanitizeStep_allowed {lead : UInt8} {tails : List UInt8}
    {value : Nat} (hshape : Shape lead tails value)
    (hsafe : qubesPureCodePointSafeForDisplay table value = true)
    (hbytes : s.bytes = done ++ lead :: (tails ++ rest))
    (hblank : limit - written.length < blank.length) :
    sanitizeStep table s limit (sanitizeAt done written blank) =
      if (lead :: tails).length < limit - written.length then
        .ok (some (sanitizeAt (done ++ lead :: tails)
          (written ++ lead :: tails) (blank.drop (lead :: tails).length)))
      else
        .ok none := by
  have hcheck := validateUtf8_of_shape table s hshape hbytes
  rw [verdict, if_pos hsafe] at hcheck
  have hlength : ((1 + tails.length : Nat) : Int).toNat =
      (lead :: tails).length := by
    rw [List.length_cons]
    omega
  rw [sanitizeStep_checked hbytes (not_printable_of_shape hshape) hcheck,
    if_neg (by omega), hlength]
  by_cases hfits : (lead :: tails).length < limit - written.length
  · rw [if_neg (Nat.not_le_of_lt hfits), if_pos hfits,
      sanitizeKeep_eq (lead :: tails) done written blank
        (by simpa using hbytes) (by omega)]
    rfl
  · rw [if_pos (Nat.le_of_not_lt hfits), if_neg hfits]

/-- From a unit boundary on, the loop writes these units. -/
def LoopWrites (table : AllowTable) (s : CString) (limit fuel : Nat)
    (done written blank : List UInt8) (units : List (List UInt8)) : Prop :=
  ∃ i, sanitizeLoop table s limit fuel (sanitizeAt done written blank) =
    .ok ⟨i, (written ++ units.flatten).length,
      (written ++ units.flatten) ++ blank.drop units.flatten.length⟩

theorem loopWrites_nil {fuel : Nat}
    (hstop : s.byteAt done.length = .ok 0 ∨ limit ≤ written.length)
    (hbytes : s.bytes = done ++ rest) :
    LoopWrites table s limit (fuel + 1) done written blank [] := by
  have hcondition : ¬ (rest.headD 0 ≠ 0 ∧ written.length < limit) := by
    rintro ⟨hbyte, hroom⟩
    rcases hstop with hread | hfull
    · rw [s.byteAt_append hbytes, Except.ok.injEq] at hread
      exact hbyte hread
    · omega
  refine ⟨done.length, ?_⟩
  rw [sanitizeLoop, sanitizeAt, s.byteAt_append hbytes]
  simp only [bind, Except.bind]
  rw [if_neg hcondition]
  simp

/-- One unit, by what the loop body does with it. -/
theorem loopWrites_unit {fuel : Nat} {source unit : List UInt8}
    {units : List (List UInt8)} (hsource : source ≠ [])
    (hbytes : s.bytes = done ++ (source ++ rest))
    (hstep : written.length < limit →
      sanitizeStep table s limit (sanitizeAt done written blank) =
        if (unit.length = 1 ∧ 0 < limit - written.length) ∨
            unit.length < limit - written.length then
          .ok (some (sanitizeAt (done ++ source) (written ++ unit)
            (blank.drop unit.length)))
        else .ok none)
    (hrest : unit.length ≤ limit - written.length →
      LoopWrites table s limit fuel (done ++ source) (written ++ unit)
        (blank.drop unit.length)
        (writtenUnits (limit - (written ++ unit).length) units)) :
    LoopWrites table s limit (fuel + 1) done written blank
      (writtenUnits (limit - written.length) (unit :: units)) := by
  rw [writtenUnits]
  by_cases hroom : written.length < limit
  · obtain ⟨byte, source, rfl⟩ := List.exists_cons_of_ne_nil hsource
    rw [List.cons_append] at hbytes
    have hbyte : byte ≠ 0 := s.ne_zero_of_mem (by simp [hbytes])
    rw [LoopWrites, sanitizeLoop]
    have hread : s.byteAt (sanitizeAt done written blank).i = .ok byte :=
      s.byteAt_of_eq_append hbytes
    have hcondition :
        byte ≠ 0 ∧ (sanitizeAt done written blank).j < limit :=
      ⟨hbyte, hroom⟩
    rw [hread]
    simp only [bind, Except.bind]
    rw [if_pos hcondition, hstep hroom]
    by_cases hfits : (unit.length = 1 ∧ 0 < limit - written.length) ∨
        unit.length < limit - written.length
    · rw [if_pos hfits, if_pos hfits]
      obtain ⟨i, hrun⟩ := hrest (by omega)
      refine ⟨i, ?_⟩
      have hleft : limit - (written ++ unit).length =
          limit - written.length - unit.length := by
        rw [List.length_append, Nat.sub_add_eq]
      rw [hleft] at hrun
      simp only
      rw [hrun]
      simp
    · rw [if_neg hfits, if_neg hfits]
      refine ⟨done.length, ?_⟩
      simp [sanitizeAt]
  · rw [if_neg (by omega)]
    exact loopWrites_nil (Or.inr (Nat.le_of_not_lt hroom)) hbytes

theorem room_left {old byte : UInt8}
    (hfits : [byte].length ≤ limit - written.length)
    (hblank : limit - written.length < (old :: blank).length) :
    limit - (written ++ [byte]).length < blank.length := by
  rw [List.length_singleton] at hfits
  rw [List.length_cons] at hblank
  rw [List.length_append, List.length_singleton]
  omega

/-- The loop writes the leading units that fit by its own test. -/
theorem loopWrites_of_splits {units : List (List UInt8)}
    (hunits : Splits table rest units) :
    ∀ fuel done written blank, s.bytes = done ++ rest →
      rest.length < fuel → limit - written.length < blank.length →
        LoopWrites table s limit fuel done written blank
          (writtenUnits (limit - written.length) units) := by
  induction hunits with
  | nil =>
      intro fuel done written blank hbytes hfuel hblank
      obtain ⟨fuel, rfl⟩ := Nat.exists_eq_succ_of_ne_zero
        (Nat.ne_zero_of_lt hfuel)
      exact loopWrites_nil (Or.inl (s.byteAt_append hbytes)) hbytes
  | @printable byte rest units hbyte _ ih =>
      intro fuel done written blank hbytes hfuel hblank
      obtain ⟨fuel, rfl⟩ := Nat.exists_eq_succ_of_ne_zero
        (Nat.ne_zero_of_lt hfuel)
      obtain ⟨old, blank, rfl⟩ := List.exists_cons_of_length_pos
        (Nat.zero_lt_of_lt hblank)
      refine @loopWrites_unit table s done rest written _ limit fuel [byte]
        [byte] units (by simp) hbytes ?_ ?_
      · intro hroom
        rw [sanitizeStep_printable hbytes hbyte,
          if_pos (Or.inl ⟨rfl, Nat.sub_pos_of_lt hroom⟩)]
        rfl
      · intro hfits
        exact ih fuel (done ++ [byte]) (written ++ [byte]) blank
          (by simpa using hbytes) (by simpa using hfuel)
          (room_left hfits hblank)
  | @allowed lead tails rest value units hshape hsafe _ ih =>
      intro fuel done written blank hbytes hfuel hblank
      obtain ⟨fuel, rfl⟩ := Nat.exists_eq_succ_of_ne_zero
        (Nat.ne_zero_of_lt hfuel)
      have hlong : (lead :: tails).length ≠ 1 := by
        simp [hshape.tails_ne_nil]
      refine @loopWrites_unit table s done rest written _ limit fuel
        (lead :: tails) (lead :: tails) units (by simp) hbytes ?_ ?_
      · intro _
        rw [sanitizeStep_allowed hshape hsafe hbytes hblank]
        simp only [hlong, false_and, false_or]
      · intro hfits
        refine ih fuel (done ++ lead :: tails) (written ++ lead :: tails)
          (blank.drop (lead :: tails).length) (by simpa using hbytes) ?_ ?_
        · rw [List.length_cons, List.length_append] at hfuel
          omega
        · rw [List.length_append, List.length_drop]
          omega
  | @forbidden lead tails rest value units hshape hsafe _ ih =>
      intro fuel done written blank hbytes hfuel hblank
      obtain ⟨fuel, rfl⟩ := Nat.exists_eq_succ_of_ne_zero
        (Nat.ne_zero_of_lt hfuel)
      obtain ⟨old, blank, rfl⟩ := List.exists_cons_of_length_pos
        (Nat.zero_lt_of_lt hblank)
      have hcheck := validateUtf8_of_shape table s hshape hbytes
      rw [verdict, if_neg (by simp [hsafe])] at hcheck
      refine @loopWrites_unit table s done rest written _ limit fuel
        (lead :: tails) [underscore] units (by simp) hbytes ?_ ?_
      · intro hroom
        rw [sanitizeStep_replaced hbytes (not_printable_of_shape hshape)
          hcheck,
          if_pos (Or.inl ⟨rfl, Nat.sub_pos_of_lt hroom⟩)]
        rfl
      · intro hfits
        refine ih fuel (done ++ lead :: tails) (written ++ [underscore])
          blank (by simpa using hbytes) ?_ (room_left hfits hblank)
        rw [List.length_cons, List.length_append] at hfuel
        omega
  | @stray byte rest units hbyte hnot _ ih =>
      intro fuel done written blank hbytes hfuel hblank
      obtain ⟨fuel, rfl⟩ := Nat.exists_eq_succ_of_ne_zero
        (Nat.ne_zero_of_lt hfuel)
      obtain ⟨old, blank, rfl⟩ := List.exists_cons_of_length_pos
        (Nat.zero_lt_of_lt hblank)
      have hcheck := validateUtf8_of_not_shape table s hbytes hnot
      refine @loopWrites_unit table s done rest written _ limit fuel [byte]
        [underscore] units (by simp) hbytes ?_ ?_
      · intro hroom
        rw [@sanitizeStep_replaced table s done written blank limit byte old
          [] rest hbytes hbyte hcheck,
          if_pos (Or.inl ⟨rfl, Nat.sub_pos_of_lt hroom⟩)]
        rfl
      · intro hfits
        exact ih fuel (done ++ [byte]) (written ++ [underscore]) blank
          (by simpa using hbytes) (by simpa using hfuel)
          (room_left hfits hblank)

end

/-! What is written. -/

theorem writtenUnits_leading (room : Nat) (units : List (List UInt8)) :
    writtenUnits room units <+: units := by
  induction units generalizing room with
  | nil => exact List.prefix_refl _
  | cons unit units ih =>
      rw [writtenUnits]
      split
      · exact List.prefix_cons_inj unit |>.mpr (ih _)
      · exact List.nil_prefix

theorem writtenUnits_length_le (room : Nat) (units : List (List UInt8)) :
    (writtenUnits room units).flatten.length ≤ room := by
  induction units generalizing room with
  | nil => exact Nat.zero_le _
  | cons unit units ih =>
      rw [writtenUnits]
      split
      · rename_i hfits
        have hrest := ih (room - unit.length)
        rw [List.flatten_cons, List.length_append]
        omega
      · exact Nat.zero_le _

theorem writtenUnits_idem (room : Nat) (units : List (List UInt8)) :
    writtenUnits room (writtenUnits room units) = writtenUnits room units := by
  induction units generalizing room with
  | nil => rfl
  | cons unit units ih =>
      rw [writtenUnits]
      split
      · rename_i hfits
        rw [writtenUnits, if_pos hfits, ih]
      · rfl

/-- Leading units are the units of what they show. -/
theorem Splits.shown {table : AllowTable} {text : List UInt8}
    {units : List (List UInt8)} (hunits : Splits table text units) :
    ∀ kept, kept <+: units → Splits table kept.flatten kept := by
  have hunderscore : Printable underscore := by decide
  induction hunits with
  | nil =>
      intro kept hleading
      rw [List.prefix_nil.mp hleading]
      exact .nil
  | printable hbyte _ ih =>
      intro kept hleading
      rcases List.prefix_cons_iff.mp hleading with rfl | ⟨kept, rfl, hkept⟩
      · exact .nil
      · exact .printable hbyte (ih kept hkept)
  | allowed hshape hsafe _ ih =>
      intro kept hleading
      rcases List.prefix_cons_iff.mp hleading with rfl | ⟨kept, rfl, hkept⟩
      · exact .nil
      · exact .allowed hshape hsafe (ih kept hkept)
  | forbidden _ _ _ ih =>
      intro kept hleading
      rcases List.prefix_cons_iff.mp hleading with rfl | ⟨kept, rfl, hkept⟩
      · exact .nil
      · exact .printable hunderscore (ih kept hkept)
  | stray _ _ _ ih =>
      intro kept hleading
      rcases List.prefix_cons_iff.mp hleading with rfl | ⟨kept, rfl, hkept⟩
      · exact .nil
      · exact .printable hunderscore (ih kept hkept)

theorem Splits.safeText {table : AllowTable} {text : List UInt8}
    {units : List (List UInt8)} (hunits : Splits table text units) :
    SafeText table units.flatten := by
  have hunderscore : Printable underscore := by decide
  induction hunits with
  | nil => exact safeText_nil table
  | printable hbyte _ ih => exact (safeText_singleton hbyte).append ih
  | allowed hshape hsafe _ ih =>
      obtain ⟨c, hhigh, hchar, hencode⟩ := exists_char_of_shape hshape hsafe
      rw [List.flatten_cons, ← hencode]
      exact (safeText_encode (Or.inr ⟨hhigh, hchar⟩)).append ih
  | forbidden _ _ _ ih => exact (safeText_singleton hunderscore).append ih
  | stray _ _ _ ih => exact (safeText_singleton hunderscore).append ih

theorem SafeText.noNul {table : AllowTable} {text : List UInt8}
    (htext : SafeText table text) : (0 : UInt8) ∉ text := by
  obtain ⟨chars, hchars, rfl⟩ := htext
  exact noNul_of_displayable hchars

theorem SafeText.nil_or_accepted {table : AllowTable} {text : CString}
    (htext : SafeText table text.bytes) :
    text.bytes = [] ∨
      qubesPureStringSafeForDisplay table text 0 = .ok true := by
  by_cases hne : text.bytes = []
  · exact Or.inl hne
  · exact Or.inr ((stringSafe_iff table text).mpr ⟨hne, htext⟩)

/-- The whole call: the units that fit, the terminator, and the rest of the
buffer as it was. -/
theorem sanitize_eq {table : AllowTable} {s : CString}
    {units : List (List UInt8)} (hunits : Splits table s.bytes units)
    {buffer : List UInt8} {maxLineLength : Nat} (hpos : 1 ≤ maxLineLength)
    (hsize : buffer.length = maxLineLength) :
    qubesPureSanitizeStringSafeForDisplay table s buffer maxLineLength =
      .ok ((writtenUnits (maxLineLength - 1) units).flatten ++ 0 ::
          buffer.drop
            ((writtenUnits (maxLineLength - 1) units).flatten.length + 1),
        (writtenUnits (maxLineLength - 1) units).flatten.length + 1) := by
  have hroom := writtenUnits_length_le (maxLineLength - 1) units
  obtain ⟨i, hrun⟩ := @loopWrites_of_splits table s _ (maxLineLength - 1)
    units hunits (s.bytes.length + 1) [] [] buffer rfl (Nat.lt_succ_self _)
    (by rw [List.length_nil]; omega)
  simp only [List.length_nil, Nat.sub_zero, List.nil_append] at hrun
  generalize htext : (writtenUnits (maxLineLength - 1) units).flatten = text
    at hrun hroom
  have hloop : sanitizeLoop table s (maxLineLength - 1) (s.bytes.length + 1)
      ⟨0, 0, buffer⟩ = .ok ⟨i, text.length,
        text ++ buffer.drop text.length⟩ := hrun
  rw [qubesPureSanitizeStringSafeForDisplay, if_neg (by omega)]
  simp only [bind, Except.bind]
  rw [hloop]
  simp only
  rw [List.drop_eq_getElem_cons (by omega), storeByte_append]
  simp

/-- What the sanitizer leaves behind. -/
structure Sanitized (table : AllowTable) (s : CString)
    (buffer : List UInt8) (maxLineLength : Nat) (result : List UInt8)
    (r : Nat) : Prop where
  positive : 1 ≤ r
  bounded : r ≤ maxLineLength
  terminated : result.take r = (CString.ofBuffer result).bytes ++ [0]
  untouched : result.drop r = buffer.drop r
  safe : (CString.ofBuffer result).bytes = [] ∨
    qubesPureStringSafeForDisplay table (CString.ofBuffer result) 0 =
      .ok true
  whole : ∃ units kept, Splits table s.bytes units ∧ kept <+: units ∧
    (CString.ofBuffer result).bytes = kept.flatten
  stable : ∀ buffer' : List UInt8, buffer'.length = maxLineLength →
    ∃ again, qubesPureSanitizeStringSafeForDisplay table
        (CString.ofBuffer result) buffer' maxLineLength = .ok (again, r) ∧
      again.take r = result.take r

/-- The output is terminated, safe, made of whole units, and a fixed
point. -/
theorem sanitize_sanitized (table : AllowTable) (s : CString)
    (buffer : List UInt8) (maxLineLength : Nat) (hpos : 1 ≤ maxLineLength)
    (hsize : buffer.length = maxLineLength) :
    ∃ result r,
      qubesPureSanitizeStringSafeForDisplay table s buffer maxLineLength =
        .ok (result, r) ∧
      Sanitized table s buffer maxLineLength result r := by
  obtain ⟨units, hunits⟩ := exists_splits table s.bytes
  have hleading := writtenUnits_leading (maxLineLength - 1) units
  have hlength := writtenUnits_length_le (maxLineLength - 1) units
  have hidem := writtenUnits_idem (maxLineLength - 1) units
  refine ⟨_, _, sanitize_eq hunits hpos hsize, ?_⟩
  generalize writtenUnits (maxLineLength - 1) units = kept
    at hleading hlength hidem
  have hkept := hunits.shown kept hleading
  have hsafe := hkept.safeText
  have hbytes := CString.ofBuffer_bytes hsafe.noNul
    (buffer.drop (kept.flatten.length + 1))
  have hagain : ∀ text : CString, text.bytes = kept.flatten →
      ∀ buffer' : List UInt8, buffer'.length = maxLineLength →
        qubesPureSanitizeStringSafeForDisplay table text buffer'
            maxLineLength =
          .ok (kept.flatten ++ 0 :: buffer'.drop (kept.flatten.length + 1),
            kept.flatten.length + 1) := by
    intro text htext buffer' hsize'
    have hrun := @sanitize_eq table text kept (htext ▸ hkept) buffer'
      maxLineLength hpos hsize'
    rwa [hidem] at hrun
  refine ⟨Nat.le_add_left _ _, by omega, ?_, ?_, ?_, ?_, ?_⟩
  · rw [hbytes]
    simp [List.take_append]
  · simp [List.drop_append]
  · exact SafeText.nil_or_accepted (by rw [hbytes]; exact hsafe)
  · exact ⟨units, kept, hunits, hleading, hbytes⟩
  · intro buffer' hsize'
    refine ⟨_, hagain _ hbytes buffer' hsize', ?_⟩
    simp [List.take_append]

def strayExample : CString := ⟨[0x61, 0x80, 0x62], by decide⟩

theorem sanitize_sanitized_stray :
    qubesPureSanitizeStringSafeForDisplay committedTable strayExample
        [0, 0, 0, 0] 4 = .ok ([0x61, 0x5F, 0x62, 0], 4) ∧
      Sanitized committedTable strayExample [0, 0, 0, 0] 4
        [0x61, 0x5F, 0x62, 0] 4 := by
  have hrun : qubesPureSanitizeStringSafeForDisplay committedTable
      strayExample [0, 0, 0, 0] 4 = .ok ([0x61, 0x5F, 0x62, 0], 4) := by
    decide +kernel
  obtain ⟨result, r, hresult, hsanitized⟩ := sanitize_sanitized
    committedTable strayExample [0, 0, 0, 0] 4 (by decide) rfl
  rw [hrun, Except.ok.injEq, Prod.mk.injEq] at hresult
  obtain ⟨rfl, rfl⟩ := hresult
  exact ⟨hrun, hsanitized⟩

end QubesUtils
