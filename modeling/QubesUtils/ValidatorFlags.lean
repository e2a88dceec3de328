/-
How the verdicts of the path validators depend on the flags, and where the
old validators differ from the new ones.
-/
import QubesUtils.PathLanguage

namespace QubesUtils

open Separated

/-- Every bit of `f` is set in `g`. -/
def FlagsIncluded (f g : Flags) : Prop :=
  ∀ i : Fin 32, f[i] = true → g[i] = true

instance (f g : Flags) : Decidable (FlagsIncluded f g) :=
  inferInstanceAs (Decidable (∀ i : Fin 32, f[i] = true → g[i] = true))

theorem hasFlag_iff (flags bit : Flags) :
    hasFlag flags bit = true ↔
      ∃ i : Fin 32, flags[i] = true ∧ bit[i] = true := by
  have hzero : flags &&& bit = 0#32 ↔
      ∀ i : Fin 32, ¬ (flags[i] = true ∧ bit[i] = true) := by
    constructor
    · intro h i
      have hi := congrArg (fun v : Flags => v[i]) h
      simpa using hi
    · intro h
      ext i hi
      have hbit := h ⟨i, hi⟩
      simpa using hbit
  rw [hasFlag, bne_iff_ne, ne_eq, hzero, not_forall]
  simp only [not_not]

theorem hasFlag_mono {f g : Flags} (hfg : FlagsIncluded f g)
    {bit : Flags} (hf : hasFlag f bit = true) : hasFlag g bit = true := by
  rw [hasFlag_iff] at hf ⊢
  obtain ⟨i, hi, hbit⟩ := hf
  exact ⟨i, hfg i hi, hbit⟩

theorem FlagsIncluded.or {f g : Flags} (hfg : FlagsIncluded f g)
    (bits : Flags) : FlagsIncluded (f ||| bits) (g ||| bits) := by
  intro i hi
  simp only [Fin.getElem_fin, BitVec.getElem_or, Bool.or_eq_true] at hi ⊢
  rcases hi with hf | hbits
  · exact Or.inl (hfg i hf)
  · exact Or.inr hbits

theorem flagsIncluded_or (f bits : Flags) : FlagsIncluded f (f ||| bits) := by
  intro i hi
  simp only [Fin.getElem_fin, BitVec.getElem_or, Bool.or_eq_true] at hi ⊢
  exact Or.inl hi

theorem FlagsIncluded.trans {f g h : Flags} (hfg : FlagsIncluded f g)
    (hgh : FlagsIncluded g h) : FlagsIncluded f h :=
  fun i hi => hgh i (hfg i hi)

/-- More flags for the name are more flags for the target. -/
theorem targetFlags_mono {f g : Flags}
    (hfg : FlagsIncluded f g) :
    FlagsIncluded (targetFlags f) (targetFlags g) := by
  refine FlagsIncluded.or ?_ _
  by_cases hf : hasFlag f qubesPureAllowNonCanonicalSymlinks = true
  · rw [if_pos hf, if_pos (hasFlag_mono hfg hf)]
    exact hfg.or _
  · rw [if_neg hf]
    split
    · exact hfg.trans (flagsIncluded_or g _)
    · exact hfg

/-- The language of paths grows with the flags. -/
theorem PathLanguage.mono {table : AllowTable} {path : CString} {n : Nat}
    {f g : Flags} (hfg : FlagsIncluded f g)
    (hpath : PathLanguage table path n f) : PathLanguage table path n g where
  nonempty := fun h => hasFlag_mono hfg (hpath.nonempty h)
  relative := hpath.relative
  noEmpty := fun h => hasFlag_mono hfg (hpath.noEmpty h)
  noDot := fun h => hasFlag_mono hfg (hpath.noDot h)
  noTrailingSlash := fun h => hasFlag_mono hfg (hpath.noTrailingSlash h)
  budget := hpath.budget
  leading := hpath.leading
  characters := by
    intro hg
    apply hpath.characters
    by_contra hf
    exact absurd (hg.symm.trans (hasFlag_mono hfg (by simpa using hf)))
      (by decide)

/-- Permissive flags only widen acceptance. -/
theorem validators_monotone (table : AllowTable) (f g : Flags)
    (hf : flagCheck f = true) (hg : flagCheck g = true)
    (hfg : FlagsIncluded f g) :
    (∀ name, qubesPureValidateFileNameV2 table name f = .ok 0 →
      qubesPureValidateFileNameV2 table name g = .ok 0) ∧
    ∀ name target,
      qubesPureValidateSymbolicLinkV2 table name target f = .ok 0 →
        qubesPureValidateSymbolicLinkV2 table name target g = .ok 0 := by
  constructor
  · intro name haccept
    rw [qubesPureValidateFileNameV2_eq_zero_iff name hf] at haccept
    rw [qubesPureValidateFileNameV2_eq_zero_iff name hg]
    exact ⟨haccept.1.mono hfg, haccept.2⟩
  · intro name target haccept
    rw [qubesPureValidateSymbolicLinkV2_eq_zero_iff name target hf]
      at haccept
    rw [qubesPureValidateSymbolicLinkV2_eq_zero_iff name target hg]
    obtain ⟨hname, hlink⟩ := haccept
    refine ⟨hname.mono hfg, ?_⟩
    rcases hlink with ⟨hlax, hcount⟩ | ⟨hdepth, htarget⟩
    · exact Or.inl ⟨hasFlag_mono hfg hlax, hcount⟩
    · exact Or.inr ⟨hdepth, htarget.mono (targetFlags_mono hfg)⟩

/-- A repeated slash in the target needs the flag for links, and keeps its
acceptance under all flags. -/
theorem validators_monotone_repeatedSlash :
    qubesPureValidateSymbolicLinkV2 committedTable
        ⟨[0x61, slash, 0x62], by decide⟩
        ⟨[0x62, slash, slash, 0x63], by decide⟩
        qubesPureAllowNonCanonicalSymlinks = .ok 0 ∧
      qubesPureValidateSymbolicLinkV2 committedTable
        ⟨[0x61, slash, 0x62], by decide⟩
        ⟨[0x62, slash, slash, 0x63], by decide⟩ 0x1F#32 = .ok 0 := by
  have haccept : qubesPureValidateSymbolicLinkV2 committedTable
      ⟨[0x61, slash, 0x62], by decide⟩
      ⟨[0x62, slash, slash, 0x63], by decide⟩
      qubesPureAllowNonCanonicalSymlinks = .ok 0 := by decide +kernel
  exact ⟨haccept, (validators_monotone committedTable
    qubesPureAllowNonCanonicalSymlinks 0x1F#32 (by decide) (by decide)
    (by decide)).2 _ _ haccept⟩

/-! The old validators. -/

theorem hasFlag_zero (bit : Flags) : hasFlag 0#32 bit = false := by
  simp [hasFlag]

/-- With no flags every component has a name. -/
theorem PathLanguage.nil_not_mem {table : AllowTable} {path : CString}
    {n : Nat} (hpath : PathLanguage table path n 0#32) :
    [] ∉ components path.bytes := by
  have hnone : ∀ bit, hasFlag 0#32 bit ≠ true := by simp [hasFlag_zero]
  intro hmem
  have hne := components_ne_nil path.bytes
  rw [← List.dropLast_append_getLast hne, List.mem_append,
    List.mem_singleton] at hmem
  rcases hmem with hinit | hlast
  · exact hnone _ (hpath.noEmpty hinit)
  have hlast' : (components path.bytes).getLast? = some [] := by
    rw [List.getLast?_eq_some_getLast hne, ← hlast]
  by_cases hlong : 1 < (components path.bytes).length
  · exact hnone _ (hpath.noTrailingSlash
      ((getLast?_eq_sep_iff slash path.bytes).mpr ⟨hlong, hlast'⟩))
  · obtain ⟨piece, pieces, hsplit⟩ := List.exists_cons_of_ne_nil hne
    rw [hsplit, List.length_cons] at hlong
    obtain rfl := List.eq_nil_of_length_eq_zero
      (Nat.le_zero.mp (by omega : pieces.length ≤ 0))
    rw [hsplit, List.getLast?_singleton, Option.some.injEq] at hlast'
    rw [hlast'] at hsplit
    exact hnone _ (hpath.nonempty
      ((splitOn_eq_singleton_nil_iff slash _).mp hsplit))

section

variable {table : AllowTable} {path name : CString}

theorem components_trailing (hname : name.bytes = path.bytes ++ [slash]) :
    components name.bytes = components path.bytes ++ [[]] := by
  rw [hname, components, List.splitOn_append_cons_self, List.splitOn_nil]
  rfl

theorem normalCount_trailing (hname : name.bytes = path.bytes ++ [slash]) :
    normalCount name.bytes = normalCount path.bytes := by
  rw [normalCount, components_trailing hname, List.countP_append]
  simp [normalCount, Normal]

/-- The flag for trailing slashes adds the paths of the language with one
slash behind them. -/
theorem pathLanguage_trailing_iff
    (hname : name.bytes = path.bytes ++ [slash]) (n : Nat) :
    PathLanguage table name n qubesPureAllowTrailingSlash ↔
      PathLanguage table path n 0#32 := by
  have hpieces := components_trailing hname
  have hcanonical : hasFlag qubesPureAllowTrailingSlash
      qubesPureAllowNonCanonicalPaths ≠ true := by decide
  have hsafe : SafeText table name.bytes ↔ SafeText table path.bytes := by
    rw [hname, safeText_append_cons_iff printable_slash]
    exact ⟨fun h => h.1, fun h => ⟨h, safeText_nil table⟩⟩
  constructor
  · intro h
    have hnil : [] ∉ components path.bytes := by
      intro hmem
      refine hcanonical (h.noEmpty ?_)
      rwa [hpieces, List.dropLast_concat]
    have hne : path.bytes ≠ [] := by
      intro hempty
      exact h.relative (by rw [hname, hempty]; rfl)
    refine ⟨fun hempty => absurd hempty hne, ?_, ?_, ?_, ?_, ?_, ?_, ?_⟩
    · intro hhead
      refine h.relative ?_
      rw [hname, List.head?_append_of_ne_nil _ hne, hhead]
    · exact fun hmem => absurd (List.mem_of_mem_dropLast hmem) hnil
    · intro hdot
      refine absurd (h.noDot ?_) hcanonical
      rw [hpieces]
      exact List.mem_append_left _ hdot
    · intro hlast
      exact absurd (List.mem_of_getLast?
        ((getLast?_eq_sep_iff slash path.bytes).mp hlast).2) hnil
    · refine Nat.le_trans ?_ h.budget
      rw [hpieces, List.count_append]
      exact Nat.le_add_right _ _
    · have hleading := h.leading
      rw [hpieces] at hleading
      exact (List.pairwise_append.mp hleading).1
    · exact fun _ => hsafe.mp (h.characters (by decide))
  · intro h
    have hnil := h.nil_not_mem
    have hnone : ∀ bit, hasFlag 0#32 bit ≠ true := by simp [hasFlag_zero]
    have hne : path.bytes ≠ [] := fun hempty => hnone _ (h.nonempty hempty)
    refine ⟨fun hempty => ?_, ?_, ?_, ?_, fun _ => by decide, ?_, ?_, ?_⟩
    · rw [hname] at hempty
      exact absurd hempty (by simp)
    · rw [hname, List.head?_append_of_ne_nil _ hne]
      exact h.relative
    · rw [hpieces, List.dropLast_concat]
      exact fun hmem => absurd hmem hnil
    · rw [hpieces]
      intro hmem
      rcases List.mem_append.mp hmem with hdot | hend
      · exact absurd (h.noDot hdot) (hnone _)
      · exact absurd hend (by decide)
    · rw [hpieces, List.count_append]
      exact h.budget
    · rw [hpieces, List.pairwise_append]
      refine ⟨h.leading, List.pairwise_singleton _ _, ?_⟩
      intro earlier _ later hlater _
      rw [List.mem_singleton.mp hlater]
      decide
    · exact fun _ => hsafe.mpr (h.characters (hasFlag_zero _))

/-- Without a trailing slash the flag changes nothing. -/
theorem pathLanguage_noTrailing_iff
    (hlast : name.bytes.getLast? ≠ some slash) (n : Nat) :
    PathLanguage table name n qubesPureAllowTrailingSlash ↔
      PathLanguage table name n 0#32 := by
  constructor
  · intro h
    exact ⟨fun hempty => absurd (h.nonempty hempty) (by decide), h.relative,
      fun hmem => absurd (h.noEmpty hmem) (by decide),
      fun hmem => absurd (h.noDot hmem) (by decide),
      fun hslash => absurd hslash hlast, h.budget, h.leading,
      fun _ => h.characters (by decide)⟩
  · exact PathLanguage.mono (by decide)

theorem trailing_or_not (name : CString) :
    (∃ path : CString, name.bytes = path.bytes ++ [slash]) ∨
      name.bytes.getLast? ≠ some slash := by
  by_cases hlast : name.bytes.getLast? = some slash
  · obtain ⟨init, hinit⟩ := List.getLast?_eq_some_iff.mp hlast
    have hnul : (0 : UInt8) ∉ init := by
      intro hmem
      exact name.noNul (by rw [hinit]; exact List.mem_append_left _ hmem)
    exact Or.inl ⟨⟨init, hnul⟩, hinit⟩
  · exact Or.inr hlast

theorem qubesPureValidateFileName_iff (name : CString) :
    qubesPureValidateFileName table name = .ok true ↔
      PathLanguage table name 0 qubesPureAllowTrailingSlash ∧
        0 < normalCount name.bytes := by
  obtain ⟨res, hres⟩ := @qubesPureValidateFileNameV2_total table
    qubesPureAllowTrailingSlash name
  rw [← qubesPureValidateFileNameV2_eq_zero_iff name (by decide),
    qubesPureValidateFileName, hres]
  simp [bind, Except.bind]

theorem qubesPureValidateSymbolicLink_iff (name target : CString) :
    qubesPureValidateSymbolicLink table name target = .ok true ↔
      PathLanguage table name 0 qubesPureAllowTrailingSlash ∧
        2 ≤ normalCount name.bytes ∧
          PathLanguage table target (normalCount name.bytes - 2)
            qubesPureAllowTrailingSlash := by
  obtain ⟨res, hres⟩ := @qubesPureValidateSymbolicLinkV2_total table
    qubesPureAllowTrailingSlash name target
  have hsafe : hasFlag qubesPureAllowTrailingSlash
      qubesPureAllowUnsafeSymlinks = false := by decide
  have hflags : targetFlags qubesPureAllowTrailingSlash =
      qubesPureAllowTrailingSlash := by decide
  have hiff := @qubesPureValidateSymbolicLinkV2_eq_zero_iff table
    qubesPureAllowTrailingSlash name target (by decide)
  rw [hflags, hsafe] at hiff
  simp only [Bool.false_eq_true, false_and, false_or] at hiff
  rw [← hiff, qubesPureValidateSymbolicLink, hres]
  simp [bind, Except.bind]

theorem qubesPureValidateSymbolicLinkV2_zero_iff (name target : CString) :
    qubesPureValidateSymbolicLinkV2 table name target 0#32 = .ok 0 ↔
      PathLanguage table name 0 0#32 ∧ 2 ≤ normalCount name.bytes ∧
        PathLanguage table target (normalCount name.bytes - 2)
          qubesPureAllowTrailingSlash := by
  have hflags : targetFlags 0#32 = qubesPureAllowTrailingSlash := by decide
  have hiff := @qubesPureValidateSymbolicLinkV2_eq_zero_iff table 0#32
    name target (by decide)
  rw [hflags] at hiff
  simp only [hasFlag_zero, Bool.false_eq_true, false_and, false_or] at hiff
  exact hiff

end

/-- The name is a path with a property, and one more slash behind it. -/
def FollowedBySlash (name : CString) (property : CString → Prop) : Prop :=
  ∃ path : CString, name.bytes = path.bytes ++ [slash] ∧ property path

/-- File names of the language without flags. -/
def NameLanguage (table : AllowTable) (path : CString) : Prop :=
  PathLanguage table path 0 0#32 ∧ 0 < normalCount path.bytes

/-- Names and targets of links of the language without flags. -/
def LinkLanguage (table : AllowTable) (target path : CString) : Prop :=
  PathLanguage table path 0 0#32 ∧ 2 ≤ normalCount path.bytes ∧
    PathLanguage table target (normalCount path.bytes - 2)
      qubesPureAllowTrailingSlash

def FileNamesAgree (table : AllowTable) (name : CString) : Prop :=
  qubesPureValidateFileName table name = .ok true ↔
    qubesPureValidateFileNameV2 table name 0#32 = .ok 0

def LinksAgree (table : AllowTable) (name target : CString) : Prop :=
  qubesPureValidateSymbolicLink table name target = .ok true ↔
    qubesPureValidateSymbolicLinkV2 table name target 0#32 = .ok 0

/-- The old validators agree with the new ones without flags, but for the
accepted names with a slash behind them. -/
theorem oldValidators_agree_iff (table : AllowTable)
    (name target : CString) :
    (FileNamesAgree table name ↔
      ¬ FollowedBySlash name (NameLanguage table)) ∧
    (LinksAgree table name target ↔
      ¬ FollowedBySlash name (LinkLanguage table target)) := by
  rw [FileNamesAgree, LinksAgree, qubesPureValidateFileName_iff,
    qubesPureValidateSymbolicLink_iff,
    qubesPureValidateSymbolicLinkV2_zero_iff,
    qubesPureValidateFileNameV2_eq_zero_iff name (by decide)]
  rcases trailing_or_not name with ⟨path, hname⟩ | hlast
  · have hrejected : ¬ PathLanguage table name 0 0#32 := by
      intro h
      have hnone := h.noTrailingSlash (by rw [hname]; simp)
      exact absurd hnone (by decide)
    have hpath : ∀ property : CString → Prop,
        FollowedBySlash name property ↔ property path := by
      intro property
      constructor
      · rintro ⟨path', hname', hproperty⟩
        have hbytes : path = path' := by
          cases path
          cases path'
          simpa using List.append_cancel_right (hname.symm.trans hname')
        exact hbytes ▸ hproperty
      · exact fun hproperty => ⟨path, hname, hproperty⟩
    rw [hpath, hpath, NameLanguage, LinkLanguage,
      pathLanguage_trailing_iff hname, normalCount_trailing hname]
    simp only [hrejected, false_and, iff_false, and_self]
  · have hnone : ∀ property : CString → Prop,
        ¬ FollowedBySlash name property := by
      rintro property ⟨path, hname, _⟩
      exact hlast (by rw [hname]; simp)
    rw [pathLanguage_noTrailing_iff hlast]
    simp only [hnone, not_false_eq_true, and_self]

/-- `a/` and, as the name of a link to `c`, `a/b/`. -/
theorem oldValidators_trailingSlash :
    ¬ FileNamesAgree committedTable ⟨[0x61, slash], by decide⟩ ∧
      ¬ LinksAgree committedTable ⟨[0x61, slash, 0x62, slash], by decide⟩
        ⟨[0x63], by decide⟩ := by
  have hfile : qubesPureValidateFileName committedTable
      ⟨[0x61, slash], by decide⟩ = .ok true := by decide +kernel
  have hlink : qubesPureValidateSymbolicLink committedTable
      ⟨[0x61, slash, 0x62, slash], by decide⟩ ⟨[0x63], by decide⟩ =
        .ok true := by decide +kernel
  have hfileV2 : qubesPureValidateFileNameV2 committedTable
      ⟨[0x61, slash], by decide⟩ 0#32 ≠ .ok 0 := by decide +kernel
  have hlinkV2 : qubesPureValidateSymbolicLinkV2 committedTable
      ⟨[0x61, slash, 0x62, slash], by decide⟩ ⟨[0x63], by decide⟩ 0#32 ≠
        .ok 0 := by decide +kernel
  exact ⟨fun h => hfileV2 (h.mp hfile), fun h => hlinkV2 (h.mp hlink)⟩

end QubesUtils
