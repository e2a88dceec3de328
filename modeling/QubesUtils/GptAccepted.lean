/-
What acceptance by `check_gpt_header` and `read_and_check_gpt` means, as an
equivalence with the conditions on the header and on the bytes that are read.
-/
import QubesUtils.GptFix
import QubesUtils.Results

namespace QubesUtils

open ByteCodec

@[simp] theorem assertC_eq_ok {condition : Prop} [Decidable condition]
    {u : Unit} : assertC condition = .ok u ↔ condition := by
  rw [assertC]
  by_cases h : condition
  · simp [h]
  · simp [h]

@[simp] theorem orThrow_eq_ok {α : Type} {failure : Failure} {x : Option α}
    {a : α} : orThrow failure x = .ok a ↔ x = some a := by
  cases x with
  | none => simp [orThrow]
  | some b => simp [orThrow]

theorem ite_error_eq_ok {α : Type} {condition : Prop} [Decidable condition]
    {stop : Stop} {x : Except Stop α} {a : α} :
    (if condition then .error stop else x) = .ok a ↔
      ¬ condition ∧ x = .ok a := by
  by_cases h : condition
  · simp [h]
  · simp [h]

theorem ite_ok_eq_ok {α : Type} {condition : Prop} [Decidable condition]
    {x : Except Stop α} {a b : α} (hne : b ≠ a) :
    (if condition then .ok a else x) = .ok b ↔ ¬ condition ∧ x = .ok b := by
  by_cases h : condition
  · simp [h, hne.symm]
  · simp [h]

/-! Rounding to a power of two. -/

theorem toNat_and_not_mask (x mask : UInt64) (k : Nat)
    (hmask : ~~~mask.toBitVec = BitVec.allOnes 64 <<< k) :
    (x &&& ~~~mask).toNat = x.toNat / 2 ^ k * 2 ^ k := by
  have hx := x.toNat_lt
  have hle : x.toNat / 2 ^ k * 2 ^ k ≤ x.toNat := Nat.div_mul_le_self _ _
  have hvec : (x &&& ~~~mask).toBitVec = x.toBitVec >>> k <<< k := by
    rw [BitVec.shiftLeft_ushiftRight, ← hmask]
    rfl
  rw [← UInt64.toNat_toBitVec, hvec, BitVec.toNat_shiftLeft,
    BitVec.toNat_ushiftRight, Nat.shiftRight_eq_div_pow, Nat.shiftLeft_eq,
    UInt64.toNat_toBitVec, Nat.mod_eq_of_lt (Nat.lt_of_le_of_lt hle hx)]

/-- The two block sizes. -/
def BlockSize (sectorSize : UInt32) : Prop :=
  sectorSize = 512 ∨ sectorSize = 4096

theorem BlockSize.valid {sectorSize : UInt32} (h : BlockSize sectorSize) :
    validSectorSize sectorSize = true := by
  rcases h with rfl | rfl
  · decide
  · decide

theorem BlockSize.toNat_cases {sectorSize : UInt32}
    (h : BlockSize sectorSize) :
    sectorSize.toNat = 512 ∨ sectorSize.toNat = 4096 := by
  rcases h with rfl | rfl
  · exact Or.inl rfl
  · exact Or.inr rfl

/-- The next multiple of a block size. -/
def roundUp (value sectorSize : Nat) : Nat :=
  (value + (sectorSize - 1)) / sectorSize * sectorSize

theorem roundToNextSector_eq_ok_iff {sectorSize : UInt32}
    (hsize : BlockSize sectorSize) (value result : UInt64) :
    roundToNextSector value sectorSize = .ok result ↔
      value.toNat + (sectorSize.toNat - 1) < 2 ^ 64 ∧
        result.toNat = roundUp value.toNat sectorSize.toNat := by
  have hlast : (sectorSize - 1).toNat = sectorSize.toNat - 1 := by
    rcases hsize with rfl | rfl
    · rfl
    · rfl
  have hmask : ∀ sum : UInt64,
      (sum &&& ~~~(sectorSize - 1).toUInt64).toNat =
        sum.toNat / sectorSize.toNat * sectorSize.toNat := by
    intro sum
    rcases hsize with rfl | rfl
    · exact toNat_and_not_mask sum _ 9 (by decide)
    · exact toNat_and_not_mask sum _ 12 (by decide)
  simp only [roundToNextSector, bind_eq_ok, assertC_eq_ok, exists_const,
    hsize.valid, true_and, hlast, pure, Except.pure, Except.ok.injEq]
  refine and_congr_right fun hlt => ?_
  have hsum : (value + (sectorSize - 1).toUInt64).toNat =
      value.toNat + (sectorSize.toNat - 1) := by
    rw [UInt64.toNat_add, UInt32.toNat_toUInt64, hlast, Nat.mod_eq_of_lt hlt]
  rw [← UInt64.toNat_inj, hmask, hsum, roundUp]
  exact eq_comm

theorem roundToNextSector_total {sectorSize : UInt32}
    (hsize : BlockSize sectorSize) {value : UInt64}
    (hlt : value.toNat + (sectorSize.toNat - 1) < 2 ^ 64) :
    ∃ result, roundToNextSector value sectorSize = .ok result := by
  refine ⟨UInt64.ofNat (roundUp value.toNat sectorSize.toNat),
    (roundToNextSector_eq_ok_iff hsize _ _).mpr
      ⟨hlt, UInt64.toNat_ofNat_of_lt' ?_⟩⟩
  exact Nat.lt_of_le_of_lt (Nat.div_mul_le_self _ _) hlt

/-! Headers. -/

/-- The conditions of `check_gpt_header`, with the length of the table. -/
structure HeaderAccepted (crc32 : List UInt8 → UInt32) (header : GPTHeader)
    (sectorOffset : UInt64) (sectorSize : UInt32) (sectors : UInt64)
    (tableBytes : UInt64) : Prop where
  sixSectors : 6 ≤ sectors
  inside : sectorOffset < sectors
  signature : header.signature = efiPart
  revision : header.revision = 0x00010000
  checksum : header.headerCRC32 =
    crc32 (gptHeaderCodec.put { header with headerCRC32 := 0 })
  headerSizeLow : 92 ≤ header.headerSize
  headerSizeHigh : header.headerSize ≤ sectorSize
  entrySize : header.sizeOfPartitionEntry = 128
  entryFits : header.sizeOfPartitionEntry ≤ sectorSize
  firstUsable : 3 ≤ header.firstUsableLBA
  usable : header.firstUsableLBA ≤ header.lastUsableLBA
  space : ∃ space,
    partitionTableUsableSpace header sectorOffset sectors =
      .ok (some space) ∧
    tableBytes ≤ space * sectorSize.toUInt64
  count : 1 ≤ header.numberOfPartitionEntries
  bytes : tableBytes = gptPartitionTableBytes header
  small : tableBytes ≤ 1048576

section

variable {crc32 : List UInt8 → UInt32} {header : GPTHeader}
  {sectorOffset sectors tableBytes : UInt64} {sectorSize : UInt32}

theorem checkGptHeader_eq_ok_iff (hne : tableBytes ≠ 0) :
    checkGptHeader crc32 header sectorOffset sectorSize sectors =
        .ok tableBytes ↔
      HeaderAccepted crc32 header sectorOffset sectorSize sectors
        tableBytes := by
  have hentry : (¬ header.sizeOfPartitionEntry < 128 ∧
      ¬ 128 < header.sizeOfPartitionEntry) ↔
      header.sizeOfPartitionEntry = 128 := by
    rw [UInt32.not_lt, UInt32.not_lt]
    exact ⟨fun h => UInt32.le_antisymm h.2 h.1, fun h => by simp [h]⟩
  simp only [checkGptHeader, bind_eq_ok, assertC_eq_ok, exists_const,
    ite_error_eq_ok, ite_ok_eq_ok hne, gt_iff_lt, ne_eq, Decidable.not_not]
  constructor
  · rintro ⟨hsix, hinside, hsignature, hrevision, hcrc, hlow, hhigh,
      hsmall, hfits, hlarge, hfirst, husable, space, hspace, hrest⟩
    cases space with
    | none => exact absurd (Except.ok.inj hrest).symm hne
    | some space =>
        simp only [ite_error_eq_ok, ite_ok_eq_ok hne, Except.ok.injEq]
          at hrest
        obtain ⟨hcount, hspaceBytes, hlimit, hbytes⟩ := hrest
        simp only [UInt32.not_lt, UInt64.not_lt] at *
        subst hbytes
        exact ⟨hsix, hinside, hsignature, hrevision, hcrc, hlow, hhigh,
          hentry.mp ⟨hsmall, hlarge⟩, hfits, hfirst, husable,
          ⟨space, hspace, hspaceBytes⟩, hcount, rfl, hlimit⟩
  · intro h
    obtain ⟨space, hspace, hspaceBytes⟩ := h.space
    obtain ⟨hsmall, hlarge⟩ := hentry.mpr h.entrySize
    refine ⟨h.sixSectors, h.inside, h.signature, h.revision, h.checksum,
      UInt32.not_lt.mpr h.headerSizeLow, UInt32.not_lt.mpr h.headerSizeHigh,
      hsmall, UInt32.not_lt.mpr h.entryFits, hlarge,
      UInt64.not_lt.mpr h.firstUsable, UInt64.not_lt.mpr h.usable,
      some space, hspace, ?_⟩
    rw [h.bytes] at hspaceBytes
    simp only [ite_error_eq_ok, ite_ok_eq_ok hne, Except.ok.injEq]
    exact ⟨UInt32.not_lt.mpr h.count, UInt64.not_lt.mpr hspaceBytes,
      UInt64.not_lt.mpr (h.bytes ▸ h.small), h.bytes.symm⟩

theorem partitionTableUsableSpace_eq_some_iff {space : UInt64} :
    partitionTableUsableSpace header sectorOffset sectors =
        .ok (some space) ↔
      (sectorOffset = 1 ∧ header.partitionEntryLBA = 2 ∧
        header.lastUsableLBA < header.alternateLBA ∧
        header.alternateLBA < sectors ∧
        space = header.firstUsableLBA - header.partitionEntryLBA) ∨
      (sectorOffset ≠ 1 ∧ header.alternateLBA = 1 ∧
        header.lastUsableLBA < header.partitionEntryLBA ∧
        header.partitionEntryLBA < header.myLBA ∧
        space = header.myLBA - header.partitionEntryLBA) := by
  have hsome : (some space : Option UInt64) ≠ none := by simp
  rw [partitionTableUsableSpace]
  by_cases hone : sectorOffset = 1
  · rw [if_neg (by simpa using hone)]
    simp only [ite_error_eq_ok, ite_ok_eq_ok hsome, ge_iff_le,
      UInt64.not_le, Except.ok.injEq, Option.some.injEq, hone, ne_eq,
      Decidable.not_not, true_and, not_true_eq_false, false_and, or_false]
    exact ⟨fun h => ⟨h.1, h.2.1, h.2.2.1, h.2.2.2.symm⟩,
      fun h => ⟨h.1, h.2.1, h.2.2.1, h.2.2.2.symm⟩⟩
  · rw [if_pos hone]
    simp only [ite_ok_eq_ok hsome, ge_iff_le,
      UInt64.not_le, Except.ok.injEq, Option.some.injEq, hone, ne_eq,
      Decidable.not_not, true_and, not_false_eq_true, false_and, false_or]
    exact ⟨fun h => ⟨h.1, h.2.1, h.2.2.1, h.2.2.2.symm⟩,
      fun h => ⟨h.1, h.2.1, h.2.2.1, h.2.2.2.symm⟩⟩

end

/-! Entries. -/

def Used (entry : GPTPartitionEntry) : Prop := unusedEntry entry = false

/-- An entry lies in the usable range of a header. -/
def InRange (header : GPTHeader) (entry : GPTPartitionEntry) : Prop :=
  header.firstUsableLBA ≤ entry.startingLBA ∧
    entry.endingLBA ≤ header.lastUsableLBA

theorem checkUsedEntries_cons_used {header : GPTHeader}
    {entry : GPTPartitionEntry} (hused : Used entry)
    (entries : List GPTPartitionEntry) (i usedEntries : UInt32)
    (result : UInt32) :
    checkUsedEntries header (entry :: entries) i usedEntries =
        some result ↔
      InRange header entry ∧
        checkUsedEntries header entries (i + 1) (i + 1) = some result := by
  have hunused : ¬ unusedEntry entry = true := by
    rw [hused]
    decide
  rw [checkUsedEntries, if_neg hunused, InRange]
  by_cases hstart : entry.startingLBA < header.firstUsableLBA
  · rw [if_pos hstart]
    simp [UInt64.not_le.mpr hstart]
  · rw [if_neg hstart]
    by_cases hend : entry.endingLBA > header.lastUsableLBA
    · rw [if_pos hend]
      simp [UInt64.not_le.mpr hend]
    · rw [if_neg hend]
      simp [UInt64.not_lt.mp hstart, UInt64.not_lt.mp hend]

theorem checkUsedEntries_cons_unused {header : GPTHeader}
    {entry : GPTPartitionEntry} (hunused : ¬ Used entry)
    (entries : List GPTPartitionEntry) (i usedEntries : UInt32) :
    checkUsedEntries header (entry :: entries) i usedEntries =
      checkUsedEntries header entries (i + 1) usedEntries := by
  rw [checkUsedEntries, if_pos (by simpa [Used] using hunused)]

theorem ofNat_add_one (i : Nat) :
    UInt32.ofNat i + 1 = UInt32.ofNat (i + 1) := by
  rw [UInt32.ofNat_add]
  rfl

/-- A result says that the used entries are in range, and gives the position
behind the last of them. -/
theorem checkUsedEntries_some {header : GPTHeader}
    {entries : List GPTPartitionEntry} :
    ∀ {i : Nat} {usedEntries result : UInt32},
      checkUsedEntries header entries (UInt32.ofNat i) usedEntries =
        some result →
      (∀ entry ∈ entries, Used entry → InRange header entry) ∧
      ((result = usedEntries ∧ ∀ entry ∈ entries, ¬ Used entry) ∨
        ∃ before last after, entries = before ++ last :: after ∧
          Used last ∧ (∀ entry ∈ after, ¬ Used entry) ∧
          result = UInt32.ofNat (i + before.length + 1)) := by
  induction entries with
  | nil =>
      intro i usedEntries result h
      rw [checkUsedEntries, Option.some.injEq] at h
      exact ⟨by simp, Or.inl ⟨h.symm, by simp⟩⟩
  | cons entry entries ih =>
      intro i usedEntries result h
      by_cases hused : Used entry
      · rw [checkUsedEntries_cons_used hused, ofNat_add_one] at h
        obtain ⟨hrange, hrest⟩ := ih h.2
        refine ⟨?_, Or.inr ?_⟩
        · intro other hother _
          rcases List.mem_cons.mp hother with rfl | hmem
          · exact h.1
          · exact hrange other hmem ‹_›
        · rcases hrest with ⟨hresult, hnone⟩ | ⟨before, last, after, heq,
            hlast, hnone, hresult⟩
          · exact ⟨[], entry, entries, rfl, hused, hnone,
              by simpa using hresult⟩
          · refine ⟨entry :: before, last, after, by rw [heq]; rfl, hlast,
              hnone, ?_⟩
            rw [hresult, List.length_cons]
            congr 1
            omega
      · rw [checkUsedEntries_cons_unused hused, ofNat_add_one] at h
        obtain ⟨hrange, hrest⟩ := ih h
        refine ⟨?_, ?_⟩
        · intro other hother hotherUsed
          rcases List.mem_cons.mp hother with rfl | hmem
          · exact absurd hotherUsed hused
          · exact hrange other hmem hotherUsed
        · rcases hrest with ⟨hresult, hnone⟩ | ⟨before, last, after, heq,
            hlast, hnone, hresult⟩
          · refine Or.inl ⟨hresult, fun other hother => ?_⟩
            rcases List.mem_cons.mp hother with rfl | hmem
            · exact hused
            · exact hnone other hmem
          · refine Or.inr ⟨entry :: before, last, after, by rw [heq]; rfl,
              hlast, hnone, ?_⟩
            rw [hresult, List.length_cons]
            congr 1
            omega

/-- Used entries in range give a result. -/
theorem checkUsedEntries_total {header : GPTHeader}
    {entries : List GPTPartitionEntry}
    (hrange : ∀ entry ∈ entries, Used entry → InRange header entry) :
    ∀ i usedEntries, ∃ result,
      checkUsedEntries header entries i usedEntries = some result := by
  induction entries with
  | nil => exact fun _ usedEntries => ⟨usedEntries, rfl⟩
  | cons entry entries ih =>
      intro i usedEntries
      have hrest := ih fun other hother =>
        hrange other (List.mem_cons_of_mem _ hother)
      by_cases hused : Used entry
      · obtain ⟨result, hresult⟩ := hrest (i + 1) (i + 1)
        refine ⟨result, ?_⟩
        rw [checkUsedEntries_cons_used hused]
        exact ⟨hrange entry List.mem_cons_self hused, hresult⟩
      · rw [checkUsedEntries_cons_unused hused]
        exact hrest (i + 1) usedEntries

/-! Reads. -/

/-- A read that is not cut short. -/
theorem pread_full_iff {disk : Disk} {count offset : UInt64}
    {buffer : List UInt8} :
    (disk.pread count offset = some buffer ∧
        buffer.length = count.toNat) ↔
      offset.toNat + count.toNat < 2 ^ 63 ∧
        count.toNat ≤ disk.size.toNat - offset.toNat ∧
        buffer = Store.read disk.byte offset.toNat count.toNat := by
  rw [Disk.pread]
  by_cases hoffset : 2 ^ 63 ≤ offset.toNat + count.toNat
  · rw [if_pos hoffset]
    constructor
    · rintro ⟨h, _⟩
      cases h
    · rintro ⟨h, _⟩
      omega
  · rw [if_neg hoffset, Option.some.injEq]
    constructor
    · rintro ⟨rfl, hlength⟩
      rw [Store.length_read] at hlength
      exact ⟨by omega, by omega, by rw [hlength]⟩
    · rintro ⟨_, hcount, rfl⟩
      rw [Nat.min_eq_left hcount]
      exact ⟨rfl, Store.length_read _ _ _⟩

/-- The conditions on the entries of an accepted header. -/
structure EntriesAccepted (crc32 : List UInt8 → UInt32) (disk : Disk)
    (tableBytes : UInt64) (sectorSize : UInt32) (gpt : GPT) : Prop where
  tableOffset :
    (sectorSize.toUInt64 * gpt.header.partitionEntryLBA).toNat +
      roundUp tableBytes.toNat sectorSize.toNat < 2 ^ 63
  tableInside : roundUp tableBytes.toNat sectorSize.toNat ≤
    disk.size.toNat -
      (sectorSize.toUInt64 * gpt.header.partitionEntryLBA).toNat
  checksum : gpt.header.partitionEntryArrayCRC32 = crc32
    ((Store.read disk.byte
      (sectorSize.toUInt64 * gpt.header.partitionEntryLBA).toNat
      (roundUp tableBytes.toNat sectorSize.toNat)).take tableBytes.toNat)
  entries : gpt.entries = gptPartitionEntryCodec.getAll
    gpt.header.numberOfPartitionEntries.toNat
    (Store.read disk.byte
      (sectorSize.toUInt64 * gpt.header.partitionEntryLBA).toNat
      (roundUp tableBytes.toNat sectorSize.toNat))
  usedEntries : checkUsedEntries gpt.header gpt.entries 0 0 =
    some gpt.usedEntries
  someUsed : gpt.usedEntries ≠ 0
  sectorSize : gpt.sectorSize = sectorSize

theorem roundUp_lt {value sectorSize : Nat} (hvalue : value ≤ 1048576)
    (hsize : sectorSize = 512 ∨ sectorSize = 4096) :
    roundUp value sectorSize < 2 ^ 64 := by
  rw [roundUp]
  rcases hsize with rfl | rfl
  · omega
  · omega

theorem readEntries_eq_some_iff {crc32 : List UInt8 → UInt32} {disk : Disk}
    {header : GPTHeader} {tableBytes : UInt64} {sectorSize : UInt32}
    (hsize : BlockSize sectorSize) (hsmall : tableBytes ≤ 1048576)
    (hentry : 128 ≤ header.sizeOfPartitionEntry) {gpt : GPT} :
    readEntries crc32 disk header tableBytes sectorSize =
        .ok (some gpt) ↔
      gpt.header = header ∧
        EntriesAccepted crc32 disk tableBytes sectorSize gpt := by
  have hsome : (some gpt : Option GPT) ≠ none := by simp
  have hsmall' : tableBytes.toNat ≤ 1048576 :=
    UInt64.le_iff_toNat_le.mp hsmall
  have hnat := hsize.toNat_cases
  have hround := roundUp_lt hsmall' hnat
  have hneeded : (UInt64.ofNat
      (roundUp tableBytes.toNat sectorSize.toNat)).toNat =
      roundUp tableBytes.toNat sectorSize.toNat :=
    UInt64.toNat_ofNat_of_lt' hround
  simp only [readEntries, readEntriesBy, bind_eq_ok, orThrow_eq_ok,
    ite_error_eq_ok, ite_ok_eq_ok hsome, ne_eq, Decidable.not_not, assertC_eq_ok,
    exists_const]
  constructor
  · rintro ⟨needed, hround, buffer, hbuffer, hlength, hcrc, _, hused⟩
    obtain ⟨_, hvalue⟩ :=
      (roundToNextSector_eq_ok_iff hsize _ _).mp hround
    obtain ⟨hoffset, hinside, rfl⟩ :=
      pread_full_iff.mp ⟨hbuffer, hlength⟩
    rw [hvalue] at hoffset hinside hcrc hused
    cases hresult : checkUsedEntries header
        (gptPartitionEntryCodec.getAll header.numberOfPartitionEntries.toNat
          (Store.read disk.byte
            (sectorSize.toUInt64 * header.partitionEntryLBA).toNat
            (roundUp tableBytes.toNat sectorSize.toNat))) 0 0 with
    | none =>
        rw [hresult] at hused
        simp at hused
    | some usedEntries =>
        rw [hresult] at hused
        simp only [ite_error_eq_ok, Except.ok.injEq, Option.some.injEq]
          at hused
        obtain ⟨hzero, rfl⟩ := hused
        exact ⟨rfl, hoffset, hinside, hcrc, rfl, hresult, hzero, rfl⟩
  · rintro ⟨rfl, h⟩
    obtain ⟨hbuffer, hlength⟩ := pread_full_iff.mpr
      ⟨hneeded.symm ▸ h.tableOffset, hneeded.symm ▸ h.tableInside, rfl⟩
    rw [hneeded] at hbuffer hlength
    refine ⟨_, (roundToNextSector_eq_ok_iff hsize _ _).mpr
      ⟨by omega, hneeded⟩, _, hbuffer, ?_, h.checksum, hentry, ?_⟩
    · rw [hneeded]
      exact hlength
    · rw [← h.entries, h.usedEntries]
      simp only [ite_error_eq_ok]
      refine ⟨h.someUsed, ?_⟩
      rw [← h.sectorSize]

/-- The conditions of `read_and_check_gpt`. -/
structure GptAccepted (crc32 : List UInt8 → UInt32) (disk : Disk)
    (sectorOffset : UInt64) (sectorSize : UInt32) (sectors : UInt64)
    (gpt : GPT) : Prop where
  inside : sectorOffset < sectors
  offset : sectorOffset = 1 ∨ 5 ≤ sectorOffset
  headerOffset : (sectorOffset * sectorSize.toUInt64).toNat +
    sectorSize.toNat < 2 ^ 63
  headerInside : sectorSize.toNat ≤ disk.size.toNat -
    (sectorOffset * sectorSize.toUInt64).toNat
  header : gpt.header = gptHeaderCodec.get
    ((Store.read disk.byte (sectorOffset * sectorSize.toUInt64).toNat
      sectorSize.toNat).take gptHeaderCodec.width)
  accepted : HeaderAccepted crc32 gpt.header sectorOffset sectorSize sectors
    (gptPartitionTableBytes gpt.header)
  table : EntriesAccepted crc32 disk (gptPartitionTableBytes gpt.header)
    sectorSize gpt

theorem HeaderAccepted.tableBytes_toNat {crc32 : List UInt8 → UInt32}
    {header : GPTHeader} {sectorOffset sectors tableBytes : UInt64}
    {sectorSize : UInt32} (h : HeaderAccepted crc32 header sectorOffset
      sectorSize sectors tableBytes) :
    tableBytes.toNat = header.numberOfPartitionEntries.toNat * 128 := by
  have hcount := header.numberOfPartitionEntries.toNat_lt
  rw [h.bytes, gptPartitionTableBytes, h.entrySize, UInt64.toNat_mul,
    UInt32.toNat_toUInt64, UInt32.toNat_toUInt64]
  simp only [UInt32.reduceToNat]
  omega

theorem HeaderAccepted.tableBytes_ne_zero {crc32 : List UInt8 → UInt32}
    {header : GPTHeader} {sectorOffset sectors tableBytes : UInt64}
    {sectorSize : UInt32} (h : HeaderAccepted crc32 header sectorOffset
      sectorSize sectors tableBytes) : tableBytes ≠ 0 := by
  intro hzero
  have hbytes := h.tableBytes_toNat
  have hcount := UInt32.le_iff_toNat_le.mp h.count
  rw [hzero, UInt64.toNat_zero] at hbytes
  rw [UInt32.toNat_one] at hcount
  omega

/-- The numbers of an accepted table. -/
structure TableShape (gpt : GPT) : Prop where
  entrySize : gpt.header.sizeOfPartitionEntry = 128
  count : gpt.entries.length = gpt.header.numberOfPartitionEntries.toNat
  small : gpt.header.numberOfPartitionEntries.toNat * 128 ≤ 1048576
  used : ∃ before last after, gpt.entries = before ++ last :: after ∧
    Used last ∧ (∀ entry ∈ after, ¬ Used entry) ∧
    gpt.usedEntries.toNat = before.length + 1

theorem TableShape.usedEntries_le {gpt : GPT} (h : TableShape gpt) :
    gpt.usedEntries.toNat ≤ gpt.header.numberOfPartitionEntries.toNat := by
  obtain ⟨before, last, after, heq, _, _, hcount⟩ := h.used
  rw [← h.count, hcount, heq, List.length_append, List.length_cons]
  omega

theorem TableShape.usedEntries_pos {gpt : GPT} (h : TableShape gpt) :
    1 ≤ gpt.usedEntries.toNat := by
  obtain ⟨before, _, _, _, _, _, hcount⟩ := h.used
  omega

theorem GptAccepted.ranged {crc32 : List UInt8 → UInt32} {disk : Disk}
    {sectorOffset sectors : UInt64} {sectorSize : UInt32} {gpt : GPT}
    (h : GptAccepted crc32 disk sectorOffset sectorSize sectors gpt) :
    ∀ entry ∈ gpt.entries, Used entry → InRange gpt.header entry :=
  (checkUsedEntries_some (i := 0) h.table.usedEntries).1

/-- The shape follows from the checks, whatever the entries are. -/
theorem HeaderAccepted.shape {crc32 : List UInt8 → UInt32} {gpt : GPT}
    {sectorOffset sectors tableBytes : UInt64} {sectorSize : UInt32}
    (h : HeaderAccepted crc32 gpt.header sectorOffset sectorSize sectors
      tableBytes)
    (hlength : gpt.entries.length =
      gpt.header.numberOfPartitionEntries.toNat)
    (hused : checkUsedEntries gpt.header gpt.entries 0 0 =
      some gpt.usedEntries)
    (hsome : gpt.usedEntries ≠ 0) : TableShape gpt := by
  have hsmall := UInt64.le_iff_toNat_le.mp h.small
  rw [h.tableBytes_toNat] at hsmall
  refine ⟨h.entrySize, hlength, hsmall, ?_⟩
  have hlt := gpt.header.numberOfPartitionEntries.toNat_lt
  obtain ⟨_, hnone | ⟨before, last, after, heq, hlast, hafter, hresult⟩⟩ :=
    checkUsedEntries_some (i := 0) hused
  · exact absurd hnone.1 hsome
  · refine ⟨before, last, after, heq, hlast, hafter, ?_⟩
    rw [heq, List.length_append, List.length_cons] at hlength
    rw [hresult, Nat.zero_add, UInt32.toNat_ofNat_of_lt' (by
      change before.length + 1 < 2 ^ 32
      omega)]

theorem GptAccepted.shape {crc32 : List UInt8 → UInt32} {disk : Disk}
    {sectorOffset sectors : UInt64} {sectorSize : UInt32} {gpt : GPT}
    (h : GptAccepted crc32 disk sectorOffset sectorSize sectors gpt) :
    TableShape gpt := by
  refine h.accepted.shape ?_ h.table.usedEntries h.table.someUsed
  rw [h.table.entries, ByteCodec.Codec.length_getAll]

/-- The same for a table whose reads had any outcome. -/
theorem readAndCheckGptBy_shape {crc32 : List UInt8 → UInt32}
    {preadHeader preadEntries : Pread} {sectorOffset sectors : UInt64}
    {sectorSize : UInt32} {gpt : GPT}
    (h : readAndCheckGptBy crc32 preadHeader preadEntries sectorOffset
      sectorSize sectors = .ok (some gpt)) :
    TableShape gpt ∧ gpt.sectorSize = sectorSize ∧ 6 ≤ sectors := by
  have hsome : (some gpt : Option GPT) ≠ none := by simp
  simp only [readAndCheckGptBy, readEntriesBy, ite_ok_eq_ok hsome,
    ite_error_eq_ok, bind_eq_ok, assertC_eq_ok, exists_const, ne_eq,
    Decidable.not_not] at h
  obtain ⟨_, _, headerBuffer, _, _, tableBytes, hcheck, hne, needed, _,
    entriesBuffer, _, _, _, _, hused⟩ := h
  have haccepted := (checkGptHeader_eq_ok_iff hne).mp hcheck
  cases hresult : checkUsedEntries
      (gptHeaderCodec.get (headerBuffer.take gptHeaderCodec.width))
      (gptPartitionEntryCodec.getAll
        (gptHeaderCodec.get (headerBuffer.take
          gptHeaderCodec.width)).numberOfPartitionEntries.toNat
        entriesBuffer) 0 0 with
  | none =>
      rw [hresult] at hused
      simp at hused
  | some usedEntries =>
      rw [hresult] at hused
      simp only [ite_error_eq_ok, Except.ok.injEq, Option.some.injEq]
        at hused
      obtain ⟨hzero, rfl⟩ := hused
      exact ⟨haccepted.shape (ByteCodec.Codec.length_getAll _ _ _) hresult
        hzero, rfl, haccepted.sixSectors⟩

theorem readAndCheckGpt_eq_some_iff {crc32 : List UInt8 → UInt32}
    {disk : Disk} {sectorOffset sectors : UInt64} {sectorSize : UInt32}
    (hsize : BlockSize sectorSize) {gpt : GPT} :
    readAndCheckGpt crc32 disk sectorOffset sectorSize sectors =
        .ok (some gpt) ↔
      GptAccepted crc32 disk sectorOffset sectorSize sectors gpt := by
  have hsome : (some gpt : Option GPT) ≠ none := by simp
  have hoffset : ¬ (¬ sectorOffset = 1 ∧ sectorOffset < 5) ↔
      sectorOffset = 1 ∨ 5 ≤ sectorOffset := by
    rw [not_and_or, Decidable.not_not, UInt64.not_lt]
  rw [readAndCheckGpt, readAndCheckGptBy]
  simp only [ite_ok_eq_ok hsome, ite_error_eq_ok, bind_eq_ok, orThrow_eq_ok,
    ge_iff_le, UInt64.not_le, ne_eq, Decidable.not_not, hoffset]
  constructor
  · rintro ⟨hinside, hoffset, buffer, hbuffer, hlength, tableBytes, hcheck,
      hne, hrest⟩
    obtain ⟨hbelow, hwithin, rfl⟩ := pread_full_iff.mp ⟨hbuffer, hlength⟩
    have haccepted := (checkGptHeader_eq_ok_iff hne).mp hcheck
    obtain ⟨hheader, htable⟩ := (readEntries_eq_some_iff hsize
      haccepted.small (by rw [haccepted.entrySize]; decide)).mp hrest
    have hbytes := haccepted.bytes
    rw [← hheader] at haccepted hbytes
    subst hbytes
    exact ⟨hinside, hoffset, hbelow, hwithin, hheader, haccepted, htable⟩
  · intro h
    have hne := h.accepted.tableBytes_ne_zero
    have hwithin : sectorSize.toUInt64.toNat ≤ disk.size.toNat -
        (sectorOffset * sectorSize.toUInt64).toNat := h.headerInside
    obtain ⟨hbuffer, hlength⟩ := pread_full_iff.mpr
      ⟨h.headerOffset, hwithin, rfl⟩
    rw [UInt32.toNat_toUInt64] at hbuffer hlength
    refine ⟨h.inside, h.offset, _, hbuffer, hlength, _,
      (checkGptHeader_eq_ok_iff hne).mpr ?_, hne, ?_⟩
    · rw [← h.header]
      exact h.accepted
    · rw [← h.header]
      exact (readEntries_eq_some_iff hsize h.accepted.small
        (by rw [h.accepted.entrySize]; decide)).mpr ⟨rfl, h.table⟩

end QubesUtils
