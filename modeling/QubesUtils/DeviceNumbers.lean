/-
The numbers of a device survive XenStore: what is written is read back, and
nothing else than two plain numerals, or one, is read.
-/
import QubesUtils.NotScript

namespace QubesUtils

open CNumber Numeral

/-- `0` or a hexadecimal numeral with no zero in front, and its value. -/
structure HexNumeral (max : UInt64) (text : List UInt8) (n : UInt64) :
    Prop where
  plain : Plain 16 text
  value : Numeral.value 16 text = n.toNat
  bound : n ≤ max

section

variable {max n : UInt64} {text rest p endp : List UInt8}
  {expected : UInt8}

theorem nonzeroDigit_iff (byte : UInt8) :
    ((0x31 ≤ byte ∧ byte ≤ 0x39) ∨ (0x61 ≤ byte ∧ byte ≤ 0x66) ∨
      (0x41 ≤ byte ∧ byte ≤ 0x46)) ↔
        isDigit 16 byte = true ∧ byte ≠ zero := by
  revert byte
  apply forall_byte
  decide +kernel

theorem checkEnd_cons (rest : List UInt8) (n : UInt64) :
    checkEnd (expected :: rest) expected n =
      .ok (some (n, expected :: rest)) := by
  rw [checkEnd, if_pos rfl]

theorem checkEnd_some {result : UInt64 × List UInt8}
    (h : checkEnd p expected n = .ok (some result)) :
    ∃ rest, p = expected :: rest ∧ result = (n, p) := by
  cases p with
  | nil => cases h
  | cons byte rest =>
      rw [checkEnd] at h
      split at h
      · rename_i hbyte
        subst hbyte
        exact ⟨rest, rfl, (Option.some.inj (Except.ok.inj h)).symm⟩
      · cases Except.ok.inj h

/-- A numeral in front of what is expected behind it. -/
theorem strictStrtoulHex_text (h : HexNumeral max text n)
    (hexpected : isDigit 16 expected = false) (rest : List UInt8) :
    strictStrtoulHex (text ++ expected :: rest) expected max =
      .ok (some (n, expected :: rest)) := by
  obtain ⟨htake, hdrop⟩ := @takeWhile_digits 16 text (expected :: rest)
    h.plain.digits fun byte hbyte => Option.some.inj hbyte ▸ hexpected
  cases text with
  | nil => exact absurd rfl h.plain.nonempty
  | cons byte text =>
      rw [List.cons_append] at htake hdrop ⊢
      rw [strictStrtoulHex]
      by_cases hzero : byte = zero
      · have htext : byte :: text = [zero] :=
          h.plain.leading (congrArg some hzero)
        cases htext
        have hn : n = 0 := UInt64.toNat_inj.mp h.value.symm
        rw [if_pos rfl, hn]
        exact checkEnd_cons rest 0
      · have hdigit := h.plain.digits byte List.mem_cons_self
        have hsmall : ¬ 2 ^ 64 ≤ Numeral.value 16 (byte :: text) := by
          rw [h.value]
          exact Nat.not_le.mpr n.toNat_lt
        rw [if_neg hzero, if_pos ((nonzeroDigit_iff byte).mpr ⟨hdigit, hzero⟩),
          strtoull_digit (Nat.le_refl 16) hdigit hzero, htake, hdrop,
          if_neg hsmall, h.value, UInt64.ofNat_toNat]
        simp only
        rw [if_neg]
        · exact checkEnd_cons rest n
        · rintro (hover | hrange)
          · exact absurd h.bound (UInt64.not_le.mpr hover)
          · cases hrange

/-- What is read is a numeral, in front of what is expected behind it. -/
theorem strictStrtoulHex_some
    (h : strictStrtoulHex p expected max = .ok (some (n, endp))) :
    ∃ text rest, p = text ++ expected :: rest ∧ endp = expected :: rest ∧
      HexNumeral max text n := by
  cases p with
  | nil => cases h
  | cons byte p =>
      rw [strictStrtoulHex] at h
      by_cases hzero : byte = zero
      · rw [if_pos hzero] at h
        obtain ⟨rest, hp, hresult⟩ := checkEnd_some h
        obtain ⟨hn, hendp⟩ := Prod.mk.inj hresult
        subst hzero hn
        refine ⟨[zero], rest, by rw [hp]; rfl, hendp.trans hp, ?_⟩
        exact ⟨⟨by decide, List.cons_ne_nil _ _, fun _ => rfl⟩, rfl,
          UInt64.zero_le⟩
      · rw [if_neg hzero] at h
        split at h
        · rename_i hclass
          obtain ⟨hdigit, _⟩ := (nonzeroDigit_iff byte).mp hclass
          rw [strtoull_digit (Nat.le_refl 16) hdigit hzero] at h
          split at h
          · simp at h
          · rename_i hsmall
            simp only [Bool.false_eq_true, or_false] at h
            split at h
            · cases Except.ok.inj h
            · rename_i hover
              obtain ⟨rest, hp, hresult⟩ := checkEnd_some h
              obtain ⟨hn, hendp⟩ := Prod.mk.inj hresult
              refine ⟨(byte :: p).takeWhile (isDigit 16), rest, ?_,
                hendp.trans hp, ?_⟩
              · rw [← hp, List.takeWhile_append_dropWhile]
              · have hhead : (byte :: p).takeWhile (isDigit 16) =
                    byte :: p.takeWhile (isDigit 16) :=
                  List.takeWhile_cons_of_pos hdigit
                refine ⟨⟨fun b hb => List.mem_takeWhile_imp hb, ?_, ?_⟩, ?_,
                  ?_⟩
                · rw [hhead]
                  exact List.cons_ne_nil _ _
                · rw [hhead]
                  exact fun hlead => absurd (Option.some.inj hlead) hzero
                · rw [hn, UInt64.toNat_ofNat']
                  exact (Nat.mod_eq_of_lt (Nat.not_le.mp hsmall)).symm
                · rw [hn]
                  exact UInt64.not_lt.mp hover
        · cases Except.ok.inj h

/-- In front of a terminator there is no read out of bounds. -/
theorem strictStrtoulHex_returns (hnul : (0 : UInt8) ∈ p)
    (expected : UInt8) (max : UInt64) :
    ∃ result, strictStrtoulHex p expected max = .ok result := by
  have hcheck : ∀ (p : List UInt8) (n : UInt64), p ≠ [] →
      ∃ result, checkEnd p expected n = .ok result := by
    intro p n hp
    cases p with
    | nil => exact absurd rfl hp
    | cons byte rest => exact ⟨_, rfl⟩
  cases p with
  | nil => cases hnul
  | cons byte p =>
      rw [strictStrtoulHex]
      by_cases hzero : byte = zero
      · rw [if_pos hzero]
        apply hcheck
        rintro rfl
        rw [List.mem_singleton, hzero] at hnul
        exact absurd hnul (by decide)
      · rw [if_neg hzero]
        split
        · rename_i hclass
          obtain ⟨hdigit, _⟩ := (nonzeroDigit_iff byte).mp hclass
          have hdrop : (byte :: p).dropWhile (isDigit 16) ≠ [] := by
            intro hnil
            have hall := List.dropWhile_eq_nil_iff.mp hnil 0 hnul
            exact absurd hall (by decide)
          rw [strtoull_digit (Nat.le_refl 16) hdigit hzero]
          split
          · exact ⟨none, by simp⟩
          · simp only
            split
            · exact ⟨none, rfl⟩
            · exact hcheck _ _ hdrop
        · exact ⟨none, rfl⟩

end

/-! The two values. -/

section

variable {value left right endp : List UInt8} {major minor diskseq : UInt64}

/-- The end of the value is where nothing is left but the terminator. -/
theorem atEnd_nul_iff {rest : List UInt8} (h : 0 :: rest <:+ readMemory value) :
    atEnd value (0 :: rest) ↔ rest = [] := by
  have hlength := h.length_le
  rw [readMemory, List.length_append, List.length_singleton,
    List.length_cons] at hlength
  rw [atEnd, readMemory, List.length_append, List.length_singleton,
    List.length_cons, ← List.length_eq_zero_iff]
  omega

theorem parsePhysicalDevice_iff :
    parsePhysicalDevice value = .ok (major, minor) ↔
      ∃ left right, value = left ++ colon :: right ∧
        HexNumeral UINT32_MAX left major ∧
          HexNumeral UINT32_MAX right minor := by
  constructor
  · intro h
    rw [parsePhysicalDevice] at h
    cases hfirst : strictStrtoulHex (readMemory value) colon UINT32_MAX with
    | error e =>
        rw [hfirst] at h
        cases h
    | ok first =>
        rw [hfirst] at h
        cases first with
        | none => cases h
        | some first =>
            obtain ⟨n, endp⟩ := first
            obtain ⟨left, rest, hmemory, rfl, hleft⟩ :=
              strictStrtoulHex_some hfirst
            cases hsecond : strictStrtoulHex rest 0 UINT32_MAX with
            | error e =>
                simp only [bind, Except.bind, List.tail_cons, hsecond] at h
                cases h
            | ok second =>
                simp only [bind, Except.bind, List.tail_cons, hsecond] at h
                cases second with
                | none => cases h
                | some second =>
                    obtain ⟨m, endp⟩ := second
                    obtain ⟨right, rest, rfl, rfl, hright⟩ :=
                      strictStrtoulHex_some hsecond
                    simp only at h
                    split at h
                    · rename_i hend
                      have hsuffix : 0 :: rest <:+ readMemory value :=
                        ⟨left ++ colon :: right, by
                          rw [hmemory, List.append_assoc, List.cons_append]⟩
                      rw [(atEnd_nul_iff hsuffix).mp hend] at hmemory
                      obtain ⟨rfl, rfl⟩ :=
                        Prod.mk.inj (Except.ok.inj h)
                      refine ⟨left, right, ?_, hleft, hright⟩
                      apply (List.append_left_inj [0]).mp
                      rw [← readMemory, hmemory, List.append_assoc,
                        List.cons_append]
                    · cases h
  · rintro ⟨left, right, rfl, hleft, hright⟩
    have hmemory : readMemory (left ++ colon :: right) =
        left ++ colon :: (right ++ 0 :: []) := by
      rw [readMemory, List.append_assoc, List.cons_append]
    have hsuffix : 0 :: [] <:+ readMemory (left ++ colon :: right) :=
      ⟨left ++ colon :: right, rfl⟩
    rw [parsePhysicalDevice, hmemory,
      strictStrtoulHex_text hleft (by decide)]
    simp only [bind, Except.bind, List.tail_cons]
    rw [strictStrtoulHex_text hright (by decide)]
    simp only
    rw [if_pos ((atEnd_nul_iff hsuffix).mpr rfl)]
    rfl

theorem parseDiskseq_iff :
    parseDiskseq value = .ok diskseq ↔
      HexNumeral UINT64_MAX value diskseq := by
  constructor
  · intro h
    rw [parseDiskseq] at h
    cases hresult : strictStrtoulHex (readMemory value) 0 UINT64_MAX with
    | error e =>
        rw [hresult] at h
        cases h
    | ok result =>
        rw [hresult] at h
        cases result with
        | none => cases h
        | some result =>
            obtain ⟨n, endp⟩ := result
            obtain ⟨text, rest, hmemory, rfl, htext⟩ :=
              strictStrtoulHex_some hresult
            simp only [bind, Except.bind] at h
            split at h
            · rename_i hend
              rw [(atEnd_nul_iff ⟨text, hmemory.symm⟩).mp hend] at hmemory
              cases h
              rw [List.append_cancel_right hmemory]
              exact htext
            · cases h
  · intro h
    have hsuffix : 0 :: [] <:+ readMemory value := ⟨value, rfl⟩
    rw [parseDiskseq, readMemory, strictStrtoulHex_text h (by decide)]
    simp only [bind, Except.bind]
    rw [if_pos ((atEnd_nul_iff hsuffix).mpr rfl)]
    rfl

/-- No value makes the reader look behind its terminator. -/
theorem parsePhysicalDevice_safe (value : List UInt8) (fault : Fault) :
    parsePhysicalDevice value ≠ .error (.fault fault) := by
  have hnul : (0 : UInt8) ∈ readMemory value := by simp [readMemory]
  obtain ⟨first, hfirst⟩ := strictStrtoulHex_returns hnul colon UINT32_MAX
  rw [parsePhysicalDevice, hfirst]
  cases first with
  | none => exact fun h => by cases h
  | some first =>
      obtain ⟨n, endp⟩ := first
      obtain ⟨left, rest, hmemory, rfl, hleft⟩ := strictStrtoulHex_some hfirst
      have hrest : (0 : UInt8) ∈ rest := by
        rw [hmemory, List.mem_append, List.mem_cons] at hnul
        rcases hnul with hdigit | hcolon | hrest
        · exact absurd (hleft.plain.digits 0 hdigit) (by decide)
        · exact absurd hcolon (by decide)
        · exact hrest
      obtain ⟨second, hsecond⟩ := strictStrtoulHex_returns hrest 0 UINT32_MAX
      simp only [bind, Except.bind, List.tail_cons, hsecond]
      cases second with
      | none => exact fun h => by cases h
      | some second =>
          simp only
          split
          · exact fun h => by cases h
          · exact fun h => by cases h

theorem parseDiskseq_safe (value : List UInt8) (fault : Fault) :
    parseDiskseq value ≠ .error (.fault fault) := by
  have hnul : (0 : UInt8) ∈ readMemory value := by simp [readMemory]
  obtain ⟨result, hresult⟩ := strictStrtoulHex_returns hnul 0 UINT64_MAX
  rw [parseDiskseq, hresult]
  cases result with
  | none => exact fun h => by cases h
  | some result =>
      simp only [bind, Except.bind]
      split
      · exact fun h => by cases h
      · exact fun h => by cases h

end

/-! What is written. -/

theorem hexNumeral_write {max n : UInt64} (h : n ≤ max) :
    HexNumeral max (write 16 n.toNat) n where
  plain := write_plain (by decide) (by decide) _
  value := value_write (by decide) (by decide) _
  bound := h

theorem toUInt64_le (n : UInt32) : n.toUInt64 ≤ UINT32_MAX := by
  rw [UInt64.le_iff_toNat_le, UInt32.toNat_toUInt64]
  exact Nat.le_of_lt_succ n.toNat_lt

theorem length_write_le_of_lt {n count : Nat} (hcount : 0 < count)
    (h : n < 16 ^ count) : (write 16 n).length ≤ count :=
  length_write_le (by decide) hcount h

/-- A text without a terminator that fits is written whole. -/
theorem printed_fits {low size : Nat} {text : List UInt8}
    (hlow : low ≤ text.length) (hfits : text.length < size)
    (htext : (0 : UInt8) ∉ text) : printed low size text = some text := by
  have hlength : (snprintf size text).2 = text.length := rfl
  have hbytes : (snprintf size text).1.bytes = text := by
    rw [snprintf, List.take_of_length_le (Nat.le_sub_one_of_lt hfits)]
    exact congrArg CString.bytes (CString.ofBuffer_self ⟨text, htext⟩)
  rw [printed, hlength, hbytes, List.take_length, if_neg]
  rintro (hshort | hlong)
  · exact absurd hlow (Nat.not_le.mpr hshort)
  · exact absurd hfits (Nat.not_lt.mpr hlong)

theorem zero_notMem_write (n : Nat) : (0 : UInt8) ∉ write 16 n :=
  fun h => absurd (write_digits (by decide) (by decide) n 0 h) (by decide)

theorem formatPhysDev_eq (major minor : UInt32) :
    formatPhysDev major minor = some (physDevText major minor) ∧
      (physDevText major minor).length < 18 := by
  have hmajor := length_write_le_of_lt (by decide : 0 < 8) major.toNat_lt
  have hminor := length_write_le_of_lt (by decide : 0 < 8) minor.toNat_lt
  have hmajor' := List.length_pos_of_ne_nil (write_ne_nil 16 major.toNat)
  have hminor' := List.length_pos_of_ne_nil (write_ne_nil 16 minor.toNat)
  have hlength : (physDevText major minor).length =
      (write 16 major.toNat).length + ((write 16 minor.toNat).length + 1) := by
    rw [physDevText, List.length_append, List.length_cons]
  have hnul : (0 : UInt8) ∉ physDevText major minor := by
    rw [physDevText, List.mem_append, List.mem_cons]
    rintro (h | h | h)
    · exact zero_notMem_write _ h
    · exact absurd h (by decide)
    · exact zero_notMem_write _ h
  have hfits : (physDevText major minor).length < 18 := by omega
  exact ⟨printed_fits (by omega) hfits hnul, hfits⟩

theorem formatDiskseq_eq (diskseq : UInt64) :
    formatDiskseq diskseq = some (write 16 diskseq.toNat) ∧
      (write 16 diskseq.toNat).length < 17 := by
  have hle := length_write_le_of_lt (by decide : 0 < 16) diskseq.toNat_lt
  have hpos := List.length_pos_of_ne_nil (write_ne_nil 16 diskseq.toNat)
  have hfits : (write 16 diskseq.toNat).length < 17 := by omega
  exact ⟨printed_fits hpos hfits (zero_notMem_write _), hfits⟩

/-- What is written when a device is added is read back when it is removed,
and exactly the plain numerals up to the largest numbers are read. -/
theorem deviceNumbers_survive :
    (∀ (major minor : UInt32) (diskseq : UInt64),
      ∃ physDev hexDiskseq, formatPhysDev major minor = some physDev ∧
        physDev = physDevText major minor ∧ physDev.length < 18 ∧
        formatDiskseq diskseq = some hexDiskseq ∧
        hexDiskseq = write 16 diskseq.toNat ∧ hexDiskseq.length < 17 ∧
        parsePhysicalDevice physDev =
          .ok (major.toUInt64, minor.toUInt64) ∧
        parseDiskseq hexDiskseq = .ok diskseq) ∧
    ∀ value : List UInt8,
      (∀ major minor, parsePhysicalDevice value = .ok (major, minor) ↔
        ∃ left right, value = left ++ colon :: right ∧
          HexNumeral UINT32_MAX left major ∧
            HexNumeral UINT32_MAX right minor) ∧
      (∀ diskseq, parseDiskseq value = .ok diskseq ↔
        HexNumeral UINT64_MAX value diskseq) ∧
      ∀ fault, parsePhysicalDevice value ≠ .error (.fault fault) ∧
        parseDiskseq value ≠ .error (.fault fault) := by
  constructor
  · intro major minor diskseq
    obtain ⟨hphysDev, hphysDevFits⟩ := formatPhysDev_eq major minor
    obtain ⟨hdiskseq, hdiskseqFits⟩ := formatDiskseq_eq diskseq
    refine ⟨_, _, hphysDev, rfl, hphysDevFits, hdiskseq, rfl, hdiskseqFits,
      ?_, ?_⟩
    · apply parsePhysicalDevice_iff.mpr
      refine ⟨_, _, rfl, ?_, ?_⟩
      · exact hexNumeral_write (toUInt64_le major)
      · exact hexNumeral_write (toUInt64_le minor)
    · apply parseDiskseq_iff.mpr
      apply hexNumeral_write
      exact UInt64.le_iff_toNat_le.mpr (Nat.le_of_lt_succ diskseq.toNat_lt)
  · intro value
    exact ⟨fun _ _ => parsePhysicalDevice_iff, fun _ => parseDiskseq_iff,
      fun fault => ⟨parsePhysicalDevice_safe value fault,
        parseDiskseq_safe value fault⟩⟩

end QubesUtils
