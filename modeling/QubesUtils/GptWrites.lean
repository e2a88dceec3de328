/-
The writes of `create_new_gpt` as a plan that the program carries out from
the front, and where on the device they fall.
-/
import QubesUtils.GptPreserve

namespace QubesUtils

/-! Programs that append to the log. -/

/-- The program appends a part of the plan to the log, and all of it if it
returns. -/
def Appends {α : Type} (program : Writer α) (plan : List Write) : Prop :=
  ∀ log, (∃ a, program.run log = .ok a (log ++ plan)) ∨
    ∃ stop part, part <+: plan ∧
      program.run log = .error stop (log ++ part)

theorem Appends.bind {α β : Type} {program : Writer α} {next : α → Writer β}
    {first second : List Write} (hprogram : Appends program first)
    (hnext : ∀ a, Appends (next a) second) :
    Appends (program >>= next) (first ++ second) := by
  intro log
  rcases hprogram log with ⟨a, hrun⟩ | ⟨stop, part, hpart, hrun⟩
  · rcases hnext a (log ++ first) with ⟨b, hrun'⟩ |
      ⟨stop, part, hpart, hrun'⟩
    · refine Or.inl ⟨b, ?_⟩
      rw [EStateM.run_bind, hrun, ← List.append_assoc, ← hrun']
    · refine Or.inr ⟨stop, first ++ part,
        (List.prefix_append_right_inj first).mpr hpart, ?_⟩
      rw [EStateM.run_bind, hrun, ← List.append_assoc, ← hrun']
  · refine Or.inr ⟨stop, part, hpart.trans (List.prefix_append _ _), ?_⟩
    rw [EStateM.run_bind, hrun]

/-- A step that writes nothing and may stop. -/
theorem Appends.liftStop_bind {α β : Type} {x : Except Stop α}
    {next : α → Writer β} {plan : List Write}
    (hnext : ∀ a, x = .ok a → Appends (next a) plan) :
    Appends (liftStop x >>= next) plan := by
  cases x with
  | error stop =>
      intro log
      exact Or.inr ⟨stop, [], List.nil_prefix, by
        rw [List.append_nil]
        rfl⟩
  | ok a => exact hnext a rfl

theorem appends_syncPwrite (data : List UInt8) (offset : UInt64) :
    Appends (syncPwrite data offset) [⟨offset.toNat, data⟩] := by
  rw [syncPwrite]
  refine Appends.liftStop_bind fun _ _ => Appends.liftStop_bind fun _ _ => ?_
  exact fun log => Or.inl ⟨(), rfl⟩

theorem Appends.run_ok {α : Type} {program : Writer α} {plan : List Write}
    (h : Appends program plan) {log log' : List Write} {a : α}
    (hrun : program.run log = .ok a log') : log' = log ++ plan := by
  rcases h log with ⟨b, hrun'⟩ | ⟨stop, part, _, hrun'⟩
  · rw [hrun] at hrun'
    exact (EStateM.Result.ok.inj hrun').2
  · rw [hrun] at hrun'
    cases hrun'

theorem bind_run_ok {α β : Type} {program : Writer α}
    {next : α → Writer β} {log log' : List Write} {b : β}
    (hrun : (program >>= next).run log = .ok b log') :
    ∃ a middle, program.run log = .ok a middle ∧
      (next a).run middle = .ok b log' := by
  rw [EStateM.run_bind] at hrun
  cases hprogram : program.run log with
  | error stop middle =>
      rw [hprogram] at hrun
      cases hrun
  | ok a middle =>
      rw [hprogram] at hrun
      exact ⟨a, middle, rfl, hrun⟩

theorem liftStop_ok_bind {α β : Type} (a : α) (next : α → Writer β) :
    (liftStop (.ok a) >>= next) = next a :=
  rfl

/-- A step that writes nothing and does not stop. -/
theorem liftStop_bind_ok {α β : Type} {x : Except Stop α}
    {next : α → Writer β} {log log' : List Write} {b : β}
    (hrun : (liftStop x >>= next).run log = .ok b log') :
    ∃ a, x = .ok a ∧ (next a).run log = .ok b log' := by
  cases x with
  | error stop => cases hrun
  | ok a => exact ⟨a, rfl, hrun⟩

/-- The log of a program that starts with an empty one. -/
def written (program : Writer Unit) : List Write :=
  match program.run [] with
  | .ok _ log => log
  | .error _ log => log

theorem Appends.written_within {program : Writer Unit} {plan : List Write}
    (h : Appends program plan) : written program <+: plan := by
  rcases h [] with ⟨a, hrun⟩ | ⟨stop, part, hpart, hrun⟩
  · rw [written, hrun]
    exact List.prefix_rfl
  · rw [written, hrun]
    exact hpart

/-! The plan. -/

/-- The writes in front of the entries. -/
def clearPlan (geo : Geometry) (target : UInt64) (mbr : Mbr) : List Write :=
  if target = geo.sectors - 1 then
    [⟨geo.size.toNat - 4096, zeros 4096⟩]
  else if geo.sectorSize.toUInt64 = 4096 then
    [⟨0, mbrBuffer mbr geo.sectorSize⟩]
  else
    [⟨0, mbrBuffer mbr geo.sectorSize⟩, ⟨512, zeros 512⟩,
      ⟨4096, zeros 4096⟩]

/-- The entries and the header. -/
def tablePlan (geo : Geometry) (new : GPT) (buffer : List UInt8) :
    List Write :=
  [⟨(new.header.partitionEntryLBA * geo.sectorSize.toUInt64).toNat, buffer⟩,
    ⟨(new.header.myLBA * geo.sectorSize.toUInt64).toNat,
      headerBuffer new.header geo.sectorSize⟩]

/-- Everything one call writes. -/
def createPlan (crc32 : List UInt8 → UInt32) (geo : Geometry) (gpt : GPT)
    (mbr : Mbr) (target : UInt64) : List Write :=
  match gptAdjustSectors crc32 target geo.sectorSize geo.sectors gpt with
  | .error _ => []
  | .ok (new, buffer) => clearPlan geo target mbr ++ tablePlan geo new buffer

section

variable {crc32 : List UInt8 → UInt32} {geo : Geometry} {gpt new : GPT}
  {mbr : Mbr} {sectorOffset target : UInt64} {buffer : List UInt8}

theorem appends_clearOld (hsize : 4096 ≤ geo.size.toNat) :
    Appends (clearOld target geo.sectors geo.sectorSize gpt mbr)
      (clearPlan geo target mbr) := by
  rw [clearOld, clearPlan]
  by_cases hbackup : target = geo.sectors - 1
  · have hoffset : (geo.sectorSize.toUInt64 * geo.sectors - 4096).toNat =
        geo.size.toNat - 4096 := by
      rw [geo.size_eq]
      exact UInt64.toNat_sub_of_le _ _ (UInt64.le_iff_toNat_le.mpr hsize)
    rw [if_pos hbackup, if_pos hbackup, ← hoffset]
    exact appends_syncPwrite _ _
  · rw [if_neg hbackup, if_neg hbackup]
    by_cases hprimary : target = 1
    · rw [if_pos hprimary]
      by_cases hbig : geo.sectorSize.toUInt64 = 4096
      · rw [if_pos hbig, if_pos hbig]
        exact Appends.liftStop_bind fun _ _ => appends_syncPwrite _ 0
      · rw [if_neg hbig, if_neg hbig]
        refine Appends.liftStop_bind fun _ _ =>
          Appends.liftStop_bind fun _ _ => ?_
        exact (appends_syncPwrite _ 0).bind fun _ =>
          (appends_syncPwrite _ 512).bind fun _ => appends_syncPwrite _ 4096
    · rw [if_neg hprimary]
      intro log
      exact Or.inr ⟨.abort, [], List.nil_prefix, by
        rw [List.append_nil]
        rfl⟩

/-- One call carries out its plan. -/
theorem appends_createNewGpt (hsize : 4096 ≤ geo.size.toNat) :
    Appends (createNewGpt crc32 target geo.sectors geo.sectorSize gpt mbr)
      (createPlan crc32 geo gpt mbr target) := by
  rw [createNewGpt, createPlan]
  refine Appends.liftStop_bind fun (new, buffer) hadjust => ?_
  rw [hadjust]
  refine Appends.liftStop_bind fun checked _ =>
    Appends.liftStop_bind fun _ _ => Appends.liftStop_bind fun _ _ => ?_
  exact (appends_clearOld hsize).bind fun _ =>
    (appends_syncPwrite _ _).bind fun _ => appends_syncPwrite _ _

/-- A call that returns has checked its table and carried out its plan. -/
theorem createNewGpt_ok (hsize : 4096 ≤ geo.size.toNat)
    {log log' : List Write}
    (hrun : (createNewGpt crc32 target geo.sectors geo.sectorSize gpt
      mbr).run log = .ok () log') :
    ∃ new buffer,
      gptAdjustSectors crc32 target geo.sectorSize geo.sectors gpt =
        .ok (new, buffer) ∧
      HeaderAccepted crc32 new.header target geo.sectorSize geo.sectors
        (gptPartitionTableBytes new.header) ∧
      log' = log ++ createPlan crc32 geo gpt mbr target := by
  have hlog := (appends_createNewGpt hsize).run_ok hrun
  rw [createNewGpt] at hrun
  obtain ⟨⟨new, buffer⟩, hadjust, hrun⟩ := liftStop_bind_ok hrun
  obtain ⟨checked, hcheck, hrun⟩ := liftStop_bind_ok hrun
  obtain ⟨_, hne, _⟩ := liftStop_bind_ok hrun
  rw [assertC_eq_ok] at hne
  have haccepted := (checkGptHeader_eq_ok_iff hne).mp hcheck
  exact ⟨new, buffer, hadjust, haccepted.bytes ▸ haccepted, hlog⟩

/-- Both calls carry out one plan after the other. -/
theorem appends_replaceGpts (hsize : 4096 ≤ geo.size.toNat)
    (usedPrimary : Bool) :
    Appends (replaceGpts crc32 usedPrimary geo.sectors geo.sectorSize gpt
        mbr)
      (createPlan crc32 geo gpt mbr
          (if usedPrimary then geo.sectors - 1 else 1) ++
        createPlan crc32 geo gpt mbr
          (if usedPrimary then 1 else geo.sectors - 1)) :=
  (appends_createNewGpt hsize).bind fun _ => appends_createNewGpt hsize

/-! Where the writes fall. -/

@[simp] theorem length_zeros (count : Nat) : (zeros count).length = count :=
  List.length_replicate

theorem length_mbrBuffer (mbr : Mbr) :
    (mbrBuffer mbr geo.sectorSize).length = geo.sectorSize.toNat := by
  have hwidth : mbrCodec.width = 512 := rfl
  rw [mbrBuffer, List.length_append, ByteCodec.Codec.length_put, length_zeros,
    hwidth]
  rcases geo.size_cases with h | h
  · omega
  · omega

theorem length_headerBuffer (header : GPTHeader) :
    (headerBuffer header geo.sectorSize).length = geo.sectorSize.toNat := by
  have hwidth : gptHeaderCodec.width = 92 := rfl
  rw [headerBuffer, List.length_append, ByteCodec.Codec.length_put,
    length_zeros, hwidth]
  rcases geo.size_cases with h | h
  · omega
  · omega

/-- The last byte of a write in front of a bound. -/
def Write.EndsBy (write : Write) (bound : Nat) : Prop :=
  write.offset + write.data.length ≤ bound

/-- The entry array of a new table begins where its header says. -/
theorem NewTable.tableOffset {a : Adjustment geo gpt}
    (hnew : NewTable crc32 a target new buffer) :
    (new.header.partitionEntryLBA * geo.sectorSize.toUInt64).toNat =
      if target = 1 then 2 * geo.sectorSize.toNat
      else geo.size.toNat - geo.sectorSize.toNat - a.tableBytes.toNat := by
  have hlba := hnew.header.partitionEntryLBA
  have hoff := geo.offT
  have hsize := geo.size_cases
  rw [toNat_mul_of_lt, UInt32.toNat_toUInt64, hlba]
  rw [UInt32.toNat_toUInt64, hlba]
  split
  · omega
  · omega

theorem NewTable.headerOffset {a : Adjustment geo gpt}
    (hsize : 4096 ≤ geo.size.toNat)
    (hnew : NewTable crc32 a target new buffer) :
    (new.header.myLBA * geo.sectorSize.toUInt64).toNat =
      if target = 1 then geo.sectorSize.toNat
      else geo.size.toNat - geo.sectorSize.toNat := by
  have hoff := geo.offT
  have hcases := geo.size_cases
  have hmul : target.toNat * geo.sectorSize.toNat =
      if target = 1 then geo.sectorSize.toNat
      else geo.size.toNat - geo.sectorSize.toNat := by
    by_cases hone : target = 1
    · rw [if_pos hone, hone, UInt64.toNat_one, Nat.one_mul]
    · rcases hnew.location with h | h
      · exact absurd h hone
      · rw [if_neg hone, h, geo.toNat_sectors_sub_one hsize,
          Nat.sub_mul, geo.sectors_mul, Nat.one_mul]
  rw [hnew.header.myLBA, toNat_mul_of_lt, UInt32.toNat_toUInt64, hmul]
  rw [UInt32.toNat_toUInt64, hmul]
  split
  · omega
  · omega

theorem one_ne_last_sector (hsix : 6 ≤ geo.sectors) :
    (1 : UInt64) ≠ geo.sectors - 1 := by
  intro heq
  have hsix' : 6 ≤ geo.sectors.toNat := UInt64.le_iff_toNat_le.mp hsix
  have hnat := congrArg UInt64.toNat heq
  rw [UInt64.toNat_sub_of_le _ _ (UInt64.le_iff_toNat_le.mpr (by
    rw [UInt64.toNat_one]
    omega)), UInt64.toNat_one] at hnat
  omega

/-- The primary table is written in front of the partitions. -/
theorem createPlan_primary (h : SourceLayout geo sectorOffset gpt)
    {write : Write} (hwrite : write ∈ createPlan crc32 geo gpt mbr 1)
    {entry : GPTPartitionEntry} (hentry : entry ∈ gpt.entries)
    (hused : Used entry) :
    write.EndsBy (firstByte entry geo.oldSectorSize) := by
  rw [createPlan] at hwrite
  cases hadjust : gptAdjustSectors crc32 1 geo.sectorSize geo.sectors gpt with
  | error stop =>
      rw [hadjust] at hwrite
      cases hwrite
  | ok result =>
      obtain ⟨new, buffer⟩ := result
      rw [hadjust] at hwrite
      obtain ⟨a, hnew⟩ := gptAdjustSectors_newTable h hadjust
      have hroom := (a.layout h).primaryRoom entry hentry hused
      have hranged := (h.ranged entry hentry hused).1
      have hfirst := h.firstUsable
      have hlength : buffer.length = a.tableBytes.toNat := by
        rw [hnew.buffer, a.length_buffer h]
      have htable := hnew.tableOffset
      have hheader := hnew.headerOffset h.nonempty
      rw [if_pos rfl] at htable hheader
      rcases List.mem_append.mp hwrite with hclear | hnewTable
      · have hold : geo.sectorSize.toUInt64 ≠ 4096 →
            3 * 4096 ≤ firstByte entry geo.oldSectorSize := by
          intro hsmall
          rcases geo.sizes with ⟨_, hold⟩ | ⟨hnew, _⟩
          · rw [hold] at hranged ⊢
            exact Nat.le_trans (Nat.mul_le_mul_right _ hfirst) hranged
          · rw [hnew] at hsmall
            exact absurd rfl hsmall
        rw [clearPlan, if_neg (one_ne_last_sector hnew.sixSectors)] at hclear
        by_cases hbig : geo.sectorSize.toUInt64 = 4096
        · rw [if_pos hbig, List.mem_singleton] at hclear
          rw [hclear, Write.EndsBy, length_mbrBuffer]
          simp only
          omega
        · have hold' := hold hbig
          rw [if_neg hbig] at hclear
          simp only [List.mem_cons, List.not_mem_nil, or_false] at hclear
          rcases hclear with rfl | rfl | rfl
          · rw [Write.EndsBy, length_mbrBuffer]
            simp only
            omega
          · rw [Write.EndsBy, length_zeros]
            simp only
            omega
          · rw [Write.EndsBy, length_zeros]
            simp only
            omega
      · simp only [tablePlan, List.mem_cons, List.not_mem_nil, or_false]
          at hnewTable
        rcases hnewTable with rfl | rfl
        · rw [Write.EndsBy, htable, hlength]
          simp only
          omega
        · rw [Write.EndsBy, hheader, length_headerBuffer]
          simp only
          omega

/-- The backup table is written behind the partitions. -/
theorem createPlan_backup (h : SourceLayout geo sectorOffset gpt)
    {write : Write}
    (hwrite : write ∈ createPlan crc32 geo gpt mbr (geo.sectors - 1))
    {entry : GPTPartitionEntry} (hentry : entry ∈ gpt.entries)
    (hused : Used entry) :
    behindByte entry geo.oldSectorSize ≤ write.offset ∧
      write.EndsBy geo.size.toNat := by
  rw [createPlan] at hwrite
  cases hadjust : gptAdjustSectors crc32 (geo.sectors - 1) geo.sectorSize
    geo.sectors gpt with
  | error stop =>
      rw [hadjust] at hwrite
      cases hwrite
  | ok result =>
      obtain ⟨new, buffer⟩ := result
      rw [hadjust] at hwrite
      obtain ⟨a, hnew⟩ := gptAdjustSectors_newTable h hadjust
      have hroom := (a.layout h).backupRoom entry hentry hused
      have hranged := (h.ranged entry hentry hused).2.2
      have hlast := h.lastUsable
      have hnonempty := h.nonempty
      have hlength : buffer.length = a.tableBytes.toNat := by
        rw [hnew.buffer, a.length_buffer h]
      have htable := hnew.tableOffset
      have hheader := hnew.headerOffset h.nonempty
      have hne := (one_ne_last_sector hnew.sixSectors).symm
      rw [if_neg hne] at htable hheader
      rcases List.mem_append.mp hwrite with hclear | hnewTable
      · rw [clearPlan, if_pos rfl, List.mem_singleton] at hclear
        rw [hclear, Write.EndsBy, length_zeros]
        simp only
        rcases geo.toNat_sizes with ⟨_, h⟩ | ⟨h, _⟩
        · rw [h] at hlast
          rw [h] at hranged
          omega
        · rw [h] at hroom
          omega
      · simp only [tablePlan, List.mem_cons, List.not_mem_nil, or_false]
          at hnewTable
        rcases hnewTable with rfl | rfl
        · rw [Write.EndsBy, htable, hlength]
          simp only
          omega
        · rw [Write.EndsBy, hheader, length_headerBuffer]
          simp only
          omega

/-- The plans of the two calls keep clear of each other. -/
theorem createPlan_apart (h : SourceLayout geo sectorOffset gpt)
    {first second : Write} (hfirst : first ∈ createPlan crc32 geo gpt mbr 1)
    (hsecond : second ∈ createPlan crc32 geo gpt mbr (geo.sectors - 1))
    {i : Nat} (hi : first.Covers i) : ¬ second.Covers i := by
  intro hi'
  obtain ⟨some', hsome, hsomeUsed⟩ := h.exists_used
  have hranged := h.ranged some' hsome hsomeUsed
  have hfront := Nat.lt_of_lt_of_le hi.2
    (createPlan_primary h hfirst hsome hsomeUsed)
  have hbehind := Nat.le_trans
    (createPlan_backup h hsecond hsome hsomeUsed).1 hi'.1
  omega

end

/-- Neither call writes into a partition or beyond the device, and the calls
keep clear of each other. -/
theorem replaceGpts_frame (crc32 : List UInt8 → UInt32) (geo : Geometry)
    (disk : Disk) (sectorOffset : UInt64) (gpt : GPT) (mbr : Mbr)
    (hsource : SourceTable crc32 geo disk sectorOffset gpt) :
    (∀ write ∈ written (replaceGpts crc32 (sectorOffset == 1) geo.sectors
        geo.sectorSize gpt mbr),
      ∀ i, write.Covers i → i < geo.size.toNat ∧
        ∀ entry ∈ gpt.entries, Used entry →
          ¬ (firstByte entry geo.oldSectorSize ≤ i ∧
            i < behindByte entry geo.oldSectorSize)) ∧
    (∀ first ∈ written (createNewGpt crc32 1 geo.sectors geo.sectorSize gpt
        mbr),
      ∀ second ∈ written (createNewGpt crc32 (geo.sectors - 1) geo.sectors
          geo.sectorSize gpt mbr),
        ∀ i, first.Covers i → ¬ second.Covers i) := by
  have hlayout := hsource.layout
  have hnonempty := hlayout.nonempty
  obtain ⟨some', hsome, hsomeUsed⟩ := hlayout.exists_used
  have hsomeRange := hlayout.ranged some' hsome hsomeUsed
  have hlast := hlayout.lastUsable
  have hprimary : ∀ write ∈ createPlan crc32 geo gpt mbr 1,
      ∀ i, write.Covers i → ∀ entry ∈ gpt.entries, Used entry →
        i < firstByte entry geo.oldSectorSize := by
    intro write hwrite i hi entry hentry hused
    exact Nat.lt_of_lt_of_le hi.2
      (createPlan_primary hlayout hwrite hentry hused)
  have hbackup : ∀ write ∈ createPlan crc32 geo gpt mbr (geo.sectors - 1),
      ∀ i, write.Covers i → i < geo.size.toNat ∧
        ∀ entry ∈ gpt.entries, Used entry →
          behindByte entry geo.oldSectorSize ≤ i := by
    intro write hwrite i hi
    have hend := (createPlan_backup hlayout hwrite hsome hsomeUsed).2
    refine ⟨Nat.lt_of_lt_of_le hi.2 hend, fun entry hentry hused => ?_⟩
    exact Nat.le_trans
      (createPlan_backup hlayout hwrite hentry hused).1 hi.1
  refine ⟨?_, ?_⟩
  · intro write hwrite i hi
    have hmem : write ∈ createPlan crc32 geo gpt mbr 1 ∨
        write ∈ createPlan crc32 geo gpt mbr (geo.sectors - 1) := by
      have hplan := (appends_replaceGpts hnonempty
        (sectorOffset == 1)).written_within.subset hwrite
      rcases List.mem_append.mp hplan with h | h
      · split at h
        · exact Or.inr h
        · exact Or.inl h
      · split at h
        · exact Or.inl h
        · exact Or.inr h
    rcases hmem with h | h
    · have hfront := hprimary write h i hi
      refine ⟨?_, fun entry hentry hused hinside => ?_⟩
      · have hsomeFront := hfront some' hsome hsomeUsed
        omega
      · have hentryFront := hfront entry hentry hused
        omega
    · obtain ⟨hinside, hbehind⟩ := hbackup write h i hi
      refine ⟨hinside, fun entry hentry hused hpartition => ?_⟩
      have hentryBehind := hbehind entry hentry hused
      omega
  · intro first hfirst second hsecond i hi hi'
    have hfirst' := (appends_createNewGpt hnonempty).written_within.subset
      hfirst
    have hsecond' := (appends_createNewGpt hnonempty).written_within.subset
      hsecond
    exact createPlan_apart hlayout hfirst' hsecond' hi hi'

/-- On the sample device both calls run to their end, apart from each other. -/
theorem replaceGpts_frame_sample :
    (written (replaceGpts zlibCrc32 true sampleGeometry.sectors
      sampleGeometry.sectorSize sampleGpt sampleMbr)).map
        (fun write => (write.offset, write.data.length)) =
      [(20480, 4096), (16384, 4096), (20480, 4096), (0, 4096), (8192, 4096),
        (4096, 4096)] ∧
    ∀ first ∈ written (createNewGpt zlibCrc32 1 sampleGeometry.sectors
        sampleGeometry.sectorSize sampleGpt sampleMbr),
      ∀ second ∈ written (createNewGpt zlibCrc32 (sampleGeometry.sectors - 1)
          sampleGeometry.sectors sampleGeometry.sectorSize sampleGpt
          sampleMbr),
        ∀ i, first.Covers i → ¬ second.Covers i :=
  ⟨by decide +kernel, (replaceGpts_frame zlibCrc32 sampleGeometry sampleDisk 1
    sampleGpt sampleMbr sampleSource).2⟩

end QubesUtils
