/-
The names of qubes, `qube-name.c`: which names are accepted, and that an
accepted name is a single component of a path.
-/
import QubesUtils.PathLanguage

namespace QubesUtils

/-! The validator. -/

def QUBES_PURE_MIN_QUBE_NAME_LEN : Nat := 1
def QUBES_PURE_MAX_QUBE_NAME_LEN : Nat := 31

inductive QubeNameValidationError
  | ok
  | empty
  | tooLong
  | invalidFirstCharacter
  | invalidSubsequentCharacter
  | reserved
deriving DecidableEq, Repr

/-- The values of the `enum`. -/
def QubeNameValidationError.code : QubeNameValidationError → Int
  | .ok => 0
  | .empty => -1
  | .tooLong => -2
  | .invalidFirstCharacter => -3
  | .invalidSubsequentCharacter => -4
  | .reserved => -6

def isLetter (byte : UInt8) : Bool :=
  (0x61 ≤ byte && byte ≤ 0x7A) || (0x41 ≤ byte && byte ≤ 0x5A)

/-- `[A-Za-z0-9_.-]` -/
def isNameCharacter (byte : UInt8) : Bool :=
  isLetter byte || (0x30 ≤ byte && byte ≤ 0x39) || byte == 0x5F ||
    byte == dot || byte == 0x2D

/-- `-dm`, `none`, `default`, `Domain-0` -/
def dmSuffix : List UInt8 := [0x2D, 0x64, 0x6D]
def noneName : List UInt8 := [0x6E, 0x6F, 0x6E, 0x65]
def defaultName : List UInt8 := [0x64, 0x65, 0x66, 0x61, 0x75, 0x6C, 0x74]
def domain0Name : List UInt8 :=
  [0x44, 0x6F, 0x6D, 0x61, 0x69, 0x6E, 0x2D, 0x30]

/-- The loop over all characters but the first. -/
def checkSubsequent : List UInt8 → QubeNameValidationError
  | [] => .ok
  | byte :: rest =>
      if isNameCharacter byte then checkSubsequent rest
      else .invalidSubsequentCharacter

/-- `memcmp(name, reserved, length) == 0 ? QUBE_NAME_RESERVED : QUBE_NAME_OK` -/
def compareReserved (name reserved : List UInt8) : QubeNameValidationError :=
  if name.take reserved.length = reserved then .reserved else .ok

/-- The special cases for names of at least four bytes. -/
def checkReserved (name : List UInt8) : QubeNameValidationError :=
  if name.length < 4 then .ok
  else if (name.drop (name.length - 3)).take 3 = dmSuffix then .reserved
  else if name.length = 4 then compareReserved name noneName
  else if name.length = 7 then compareReserved name defaultName
  else if name.length = 8 then compareReserved name domain0Name
  else .ok

def qubesPureIsValidQubeName (untrustedName : List UInt8) :
    QubeNameValidationError :=
  if untrustedName.length < QUBES_PURE_MIN_QUBE_NAME_LEN then .empty
  else if untrustedName.length > QUBES_PURE_MAX_QUBE_NAME_LEN then .tooLong
  else if untrustedName.head?.any isLetter = false then
    .invalidFirstCharacter
  else if checkSubsequent untrustedName.tail = .ok then
    checkReserved untrustedName
  else
    checkSubsequent untrustedName.tail

/-! The documented names. -/

structure IsQubeName (name : List UInt8) : Prop where
  minLength : 1 ≤ name.length
  maxLength : name.length ≤ 31
  first : ∃ byte ∈ name.head?, isLetter byte = true
  characters : ∀ byte ∈ name, isNameCharacter byte = true
  notDm : ¬ dmSuffix <:+ name
  notNone : name ≠ noneName
  notDefault : name ≠ defaultName
  notDomain0 : name ≠ domain0Name

section

variable {name : List UInt8}

theorem checkSubsequent_ok_iff (rest : List UInt8) :
    checkSubsequent rest = .ok ↔
      ∀ byte ∈ rest, isNameCharacter byte = true := by
  induction rest with
  | nil => simp [checkSubsequent]
  | cons byte rest ih =>
      rw [checkSubsequent, List.forall_mem_cons, ← ih]
      by_cases h : isNameCharacter byte = true
      · simp [h]
      · simp [h]

theorem isNameCharacter_of_letter {byte : UInt8} (h : isLetter byte = true) :
    isNameCharacter byte = true := by
  simp [isNameCharacter, h]

theorem compareReserved_ok_iff {reserved : List UInt8}
    (hlength : name.length = reserved.length) :
    compareReserved name reserved = .ok ↔ name ≠ reserved := by
  rw [compareReserved, ← hlength, List.take_length]
  by_cases h : name = reserved
  · simp [h]
  · simp [h]

theorem dm_iff (hlength : 3 ≤ name.length) :
    (name.drop (name.length - 3)).take 3 = dmSuffix ↔ dmSuffix <:+ name := by
  have hrest : (name.drop (name.length - 3)).length = 3 := by
    rw [List.length_drop]
    omega
  rw [List.take_of_length_le (Nat.le_of_eq hrest), List.suffix_iff_eq_drop]
  exact eq_comm

/-- A name of less than four bytes that ends in `-dm` begins with a dash. -/
theorem not_dm_of_short (hshort : name.length < 4)
    (hfirst : ∃ byte ∈ name.head?, isLetter byte = true) :
    ¬ dmSuffix <:+ name := by
  rintro ⟨front, rfl⟩
  rw [List.length_append] at hshort
  have hfront : front = [] := by
    apply List.length_eq_zero_iff.mp
    have hthree : dmSuffix.length = 3 := rfl
    omega
  subst hfront
  obtain ⟨byte, hbyte, hletter⟩ := hfirst
  have hdash : byte = 0x2D := (Option.some.inj hbyte).symm
  rw [hdash] at hletter
  exact absurd hletter (by decide)

theorem ne_of_length_ne {other : List UInt8}
    (h : name.length ≠ other.length) : name ≠ other :=
  fun heq => h (congrArg List.length heq)

theorem checkReserved_ok_iff
    (hfirst : ∃ byte ∈ name.head?, isLetter byte = true) :
    checkReserved name = .ok ↔ ¬ dmSuffix <:+ name ∧ name ≠ noneName ∧
      name ≠ defaultName ∧ name ≠ domain0Name := by
  have hnone : noneName.length = 4 := rfl
  have hdefault : defaultName.length = 7 := rfl
  have hdomain0 : domain0Name.length = 8 := rfl
  rw [checkReserved]
  split
  · rename_i hshort
    refine ⟨fun _ => ⟨not_dm_of_short hshort hfirst, ?_, ?_, ?_⟩, fun _ => rfl⟩
    · apply ne_of_length_ne
      omega
    · apply ne_of_length_ne
      omega
    · apply ne_of_length_ne
      omega
  rename_i hlong
  have hdm_iff : (name.drop (name.length - 3)).take 3 = dmSuffix ↔
      dmSuffix <:+ name := dm_iff (by omega)
  split
  · rename_i hdm
    exact ⟨fun h => (nomatch h), fun h => absurd (hdm_iff.mp hdm) h.1⟩
  rename_i hdm
  have hdm : ¬ dmSuffix <:+ name := fun h => hdm (hdm_iff.mpr h)
  have hrest : ∀ {p : Prop}, p ↔ ¬ dmSuffix <:+ name ∧ p :=
    fun {p} => ⟨fun h => ⟨hdm, h⟩, fun h => h.2⟩
  rw [← hrest]
  split
  · rename_i hfour
    rw [compareReserved_ok_iff (hfour.trans hnone.symm)]
    refine ⟨fun h => ⟨h, ?_, ?_⟩, fun h => h.1⟩
    · apply ne_of_length_ne
      omega
    · apply ne_of_length_ne
      omega
  rename_i hfour
  have hnotNone : name ≠ noneName := ne_of_length_ne (by omega)
  split
  · rename_i hseven
    rw [compareReserved_ok_iff (hseven.trans hdefault.symm)]
    refine ⟨fun h => ⟨hnotNone, h, ?_⟩, fun h => h.2.1⟩
    apply ne_of_length_ne
    omega
  rename_i hseven
  have hnotDefault : name ≠ defaultName := ne_of_length_ne (by omega)
  split
  · rename_i height
    rw [compareReserved_ok_iff (height.trans hdomain0.symm)]
    exact ⟨fun h => ⟨hnotNone, hnotDefault, h⟩, fun h => h.2.2⟩
  · rename_i height
    refine ⟨fun _ => ⟨hnotNone, hnotDefault, ?_⟩, fun _ => rfl⟩
    apply ne_of_length_ne
    omega

/-- The accepted names are the documented ones. -/
theorem qubesPureIsValidQubeName_ok_iff (name : List UInt8) :
    qubesPureIsValidQubeName name = .ok ↔ IsQubeName name := by
  rw [qubesPureIsValidQubeName]
  split
  · rename_i hempty
    exact ⟨fun h => (nomatch h),
      fun h => absurd h.minLength (Nat.not_le.mpr hempty)⟩
  rename_i hmin
  split
  · rename_i hlong
    exact ⟨fun h => (nomatch h),
      fun h => absurd h.maxLength (Nat.not_le.mpr hlong)⟩
  rename_i hmax
  have hfirst : name.head?.any isLetter = true ↔
      ∃ byte ∈ name.head?, isLetter byte = true := by
    cases name.head? with
    | none => simp
    | some byte => simp
  split
  · rename_i hnot
    refine ⟨fun h => (nomatch h), fun h => ?_⟩
    rw [hfirst.mpr h.first] at hnot
    cases hnot
  rename_i hletter
  have hletter := hfirst.mp (Bool.not_eq_false _ ▸ hletter)
  have hcharacters : checkSubsequent name.tail = .ok ↔
      ∀ byte ∈ name, isNameCharacter byte = true := by
    obtain ⟨byte, hbyte, hbyteLetter⟩ := hletter
    rw [checkSubsequent_ok_iff]
    cases name with
    | nil => cases hbyte
    | cons first rest =>
        cases Option.some.inj hbyte
        rw [List.tail_cons, List.forall_mem_cons]
        exact ⟨fun h => ⟨isNameCharacter_of_letter hbyteLetter, h⟩,
          fun h => h.2⟩
  split
  · rename_i hsubsequent
    rw [checkReserved_ok_iff hletter]
    constructor
    · rintro ⟨hdm, hnone, hdefault, hdomain0⟩
      exact ⟨Nat.not_lt.mp hmin, Nat.not_lt.mp hmax, hletter,
        hcharacters.mp hsubsequent, hdm, hnone, hdefault, hdomain0⟩
    · exact fun h => ⟨h.notDm, h.notNone, h.notDefault, h.notDomain0⟩
  · rename_i hsubsequent
    exact ⟨fun h => absurd h hsubsequent,
      fun h => absurd (hcharacters.mpr h.characters) hsubsequent⟩

/-! As a component of a path. -/

theorem nameCharacter_spec {byte : UInt8} (h : isNameCharacter byte = true) :
    Printable byte ∧ byte ≠ slash ∧ byte ≠ 0 := by
  revert byte
  apply forall_byte
  decide +kernel

theorem safeText_of_printable (table : AllowTable) {text : List UInt8}
    (h : ∀ byte ∈ text, Printable byte) : SafeText table text := by
  induction text with
  | nil => exact safeText_nil table
  | cons byte text ih =>
      rw [List.forall_mem_cons] at h
      exact (safeText_cons_iff h.1).mpr (ih h.2)

theorem IsQubeName.noNul (h : IsQubeName name) : (0 : UInt8) ∉ name :=
  fun hzero => (nameCharacter_spec (h.characters 0 hzero)).2.2 rfl

theorem IsQubeName.noSlash (h : IsQubeName name) : slash ∉ name :=
  fun hslash => (nameCharacter_spec (h.characters _ hslash)).2.1 rfl

theorem IsQubeName.normal (h : IsQubeName name) : Normal name := by
  obtain ⟨byte, hbyte, hletter⟩ := h.first
  refine ⟨?_, ?_, ?_⟩
  · rintro rfl
    cases hbyte
  · rintro rfl
    cases hbyte
    exact absurd hletter (by decide)
  · rintro rfl
    cases hbyte
    exact absurd hletter (by decide)

theorem IsQubeName.language (h : IsQubeName name) (table : AllowTable)
    (flags : Flags) :
    PathLanguage table ⟨name, h.noNul⟩ 0 flags ∧ normalCount name = 1 := by
  have hpieces : components name = [name] :=
    List.splitOn_eq_singleton h.noSlash
  obtain ⟨hne, hdot, hdotdot⟩ := h.normal
  constructor
  · apply (pathLanguage_iff_admissible hne).mpr
    refine ⟨fun hhead => h.noSlash (List.mem_of_head? hhead), ?_⟩
    rw [hpieces]
    apply (admissible_singleton_iff hne 0).mpr
    refine ⟨?_, Or.inr ?_, fun heq => absurd heq hdotdot⟩
    · rintro (heq | heq)
      · exact absurd heq hne
      · exact absurd heq hdot
    · exact safeText_of_printable table fun byte hbyte =>
        (nameCharacter_spec (h.characters byte hbyte)).1
  · rw [normalCount, hpieces]
    simp [h.normal]

/-- An accepted name is a path of a single component. -/
theorem IsQubeName.component (h : IsQubeName name) (table : AllowTable) :
    qubesPureValidateFileNameV2 table ⟨name, h.noNul⟩ 0#32 = .ok 0 ∧
      validatePath table ⟨name, h.noNul⟩ 0 0#32 = .ok 1 := by
  obtain ⟨hlanguage, hcount⟩ := h.language table 0#32
  constructor
  · apply (qubesPureValidateFileNameV2_eq_zero_iff _ (by decide)).mpr
    exact ⟨hlanguage, by rw [hcount]; exact Nat.one_pos⟩
  · have hpath := validatePath_of_language hlanguage
    rw [hcount] at hpath
    exact hpath

/-- Exactly the documented names are accepted, and each of them, with a
terminator behind it, can name a directory. -/
theorem qubeName_component (table : AllowTable) (name : List UInt8) :
    (qubesPureIsValidQubeName name = .ok ↔ IsQubeName name) ∧
    (qubesPureIsValidQubeName name = .ok →
      (CString.ofBuffer (name ++ [0])).bytes = name ∧
      qubesPureValidateFileNameV2 table (CString.ofBuffer (name ++ [0]))
        0#32 = .ok 0 ∧
      validatePath table (CString.ofBuffer (name ++ [0])) 0 0#32 = .ok 1) := by
  refine ⟨qubesPureIsValidQubeName_ok_iff name, fun hok => ?_⟩
  have h := (qubesPureIsValidQubeName_ok_iff name).mp hok
  have hname : CString.ofBuffer (name ++ [0]) = ⟨name, h.noNul⟩ :=
    CString.ofBuffer_terminated ⟨name, h.noNul⟩
  rw [hname]
  exact ⟨rfl, h.component table⟩

end

end QubesUtils
