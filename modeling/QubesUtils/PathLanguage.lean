/-
The language that `validate_path` accepts, stated on the pieces between the
slashes, and the two public validators in its terms.
-/
import QubesUtils.PathComponents

namespace QubesUtils

open Separated

/-- The number of components that are neither empty nor `.` nor `..`. -/
def normalCount (path : List UInt8) : Nat :=
  (components path).countP (fun component => decide (Normal component))

/-- The paths that are accepted with at most `n` leading `..`. -/
structure PathLanguage (table : AllowTable) (path : CString) (n : Nat)
    (flags : Flags) : Prop where
  nonempty : path.bytes = [] →
    hasFlag flags qubesPureAllowNonCanonicalPaths = true
  relative : path.bytes.head? ≠ some slash
  noEmpty : [] ∈ (components path.bytes).dropLast →
    hasFlag flags qubesPureAllowNonCanonicalPaths = true
  noDot : dotComponent ∈ components path.bytes →
    hasFlag flags qubesPureAllowNonCanonicalPaths = true
  noTrailingSlash : path.bytes.getLast? = some slash →
    hasFlag flags qubesPureAllowTrailingSlash = true
  budget : (components path.bytes).count dotdotComponent ≤ n
  leading : (components path.bytes).Pairwise
    (fun earlier later => Normal earlier → later ≠ dotdotComponent)
  characters : hasFlag flags qubesPureAllowUnsafeCharacters = false →
    SafeText table path.bytes

theorem components_ne_nil (path : List UInt8) : components path ≠ [] :=
  List.splitOn_ne_nil slash path

/-- The same on a list of components, with the budget that is left. -/
structure AdmissibleComponents (table : AllowTable) (flags : Flags)
    (allowed : Nat) (pieces : List (List UInt8)) : Prop where
  noEmpty : [] ∈ pieces.dropLast →
    hasFlag flags qubesPureAllowNonCanonicalPaths = true
  noDot : dotComponent ∈ pieces →
    hasFlag flags qubesPureAllowNonCanonicalPaths = true
  noTrailingSlash : pieces.getLast? = some [] →
    hasFlag flags qubesPureAllowTrailingSlash = true
  budget : pieces.count dotdotComponent ≤ allowed
  leading : pieces.Pairwise
    (fun earlier later => Normal earlier → later ≠ dotdotComponent)
  characters : ∀ piece ∈ pieces, CharactersAllowed table flags piece

section

variable {table : AllowTable} {flags : Flags}

theorem charactersAllowed_of_not_normal {component : List UInt8}
    (hnot : ¬ Normal component) : CharactersAllowed table flags component := by
  refine Or.inr ?_
  have hdot : SafeText table [dot] := safeText_singleton (by decide)
  by_cases hempty : component = []
  · exact hempty ▸ safeText_nil table
  by_cases hone : component = dotComponent
  · exact hone ▸ hdot
  by_cases htwo : component = dotdotComponent
  · exact htwo ▸ hdot.append hdot
  · exact absurd ⟨hempty, hone, htwo⟩ hnot

/-- What it takes to admit one component in front of the others. -/
theorem admissible_cons_iff {component : List UInt8}
    {rest : List (List UInt8)} (hrest : rest ≠ []) (allowed : Nat) :
    AdmissibleComponents table flags allowed (component :: rest) ↔
      (component = [] ∨ component = dotComponent →
        hasFlag flags qubesPureAllowNonCanonicalPaths = true) ∧
      CharactersAllowed table flags component ∧
      (component = dotdotComponent → 1 ≤ allowed) ∧
      AdmissibleComponents table flags
        (if Normal component then 0
          else if component = dotdotComponent then allowed - 1
          else allowed) rest := by
  obtain ⟨second, others, rfl⟩ := List.exists_cons_of_ne_nil hrest
  constructor
  · intro h
    have hbudget := h.budget
    rw [List.count_cons] at hbudget
    refine ⟨?_, h.characters _ List.mem_cons_self, ?_, ?_⟩
    · rintro (rfl | rfl)
      · exact h.noEmpty (by simp)
      · exact h.noDot List.mem_cons_self
    · rintro rfl
      simp only [BEq.rfl, if_true] at hbudget
      omega
    · refine ⟨fun hmem => h.noEmpty ?_,
        fun hmem => h.noDot (List.mem_cons_of_mem _ hmem),
        fun hlast => h.noTrailingSlash ?_, ?_,
        (List.pairwise_cons.mp h.leading).2,
        fun piece hpiece => h.characters piece
          (List.mem_cons_of_mem _ hpiece)⟩
      · rw [List.dropLast_cons_of_ne_nil (by simp)]
        exact List.mem_cons_of_mem _ hmem
      · rw [List.getLast?_cons_cons]
        exact hlast
      · split
        · rename_i hnormal
          have hnone : dotdotComponent ∉ second :: others := fun hmem =>
            (List.pairwise_cons.mp h.leading).1 _ hmem hnormal rfl
          rw [List.count_eq_zero_of_not_mem hnone]
        · split
          · rename_i hdotdot
            rw [hdotdot] at hbudget
            simp only [BEq.rfl, if_true] at hbudget
            omega
          · exact Nat.le_trans (Nat.le_add_right _ _) hbudget
  · rintro ⟨hcanonical, hcharacters, hdotdot, h⟩
    have hbudget := h.budget
    refine ⟨fun hmem => ?_, fun hmem => ?_, fun hlast => ?_, ?_, ?_, ?_⟩
    · rw [List.dropLast_cons_of_ne_nil (by simp), List.mem_cons] at hmem
      rcases hmem with rfl | hmem
      · exact hcanonical (Or.inl rfl)
      · exact h.noEmpty hmem
    · rcases List.mem_cons.mp hmem with rfl | hmem
      · exact hcanonical (Or.inr rfl)
      · exact h.noDot hmem
    · rw [List.getLast?_cons_cons] at hlast
      exact h.noTrailingSlash hlast
    · rw [List.count_cons]
      by_cases heq : component = dotdotComponent
      · have hnormal : ¬ Normal component := fun hn => hn.2.2 heq
        have := hdotdot heq
        rw [if_neg hnormal, if_pos heq] at hbudget
        simp only [heq, BEq.rfl, if_true]
        omega
      · simp only [beq_eq_false_iff_ne.mpr heq, Bool.false_eq_true,
          if_false, Nat.add_zero]
        rw [if_neg heq] at hbudget
        refine Nat.le_trans hbudget ?_
        split
        · exact Nat.zero_le _
        · exact Nat.le_refl _
    · refine List.pairwise_cons.mpr ⟨fun later hlater hnormal heq => ?_,
        h.leading⟩
      rw [if_pos hnormal] at hbudget
      subst heq
      exact List.count_eq_zero.mp (Nat.le_zero.mp hbudget) hlater
    · intro piece hpiece
      rcases List.mem_cons.mp hpiece with rfl | hpiece
      · exact hcharacters
      · exact h.characters piece hpiece

/-- The outcome of one component, by the kind of the component. -/
theorem admitComponent_ok_iff (component : List UInt8)
    (allowed count : Nat) (next : Nat × Nat) :
    admitComponent table flags component allowed count = .ok next ↔
      (component = [] ∨ component = dotComponent →
        hasFlag flags qubesPureAllowNonCanonicalPaths = true) ∧
      CharactersAllowed table flags component ∧
      (component = dotdotComponent → 1 ≤ allowed) ∧
      next = (if Normal component then 0
          else if component = dotdotComponent then allowed - 1
          else allowed,
        count + if Normal component then 1 else 0) := by
  rw [admitComponent]
  by_cases hskip : component = [] ∨ component = dotComponent
  · have hnormal : ¬ Normal component := by
      rcases hskip with h | h
      · exact fun hn => hn.1 h
      · exact fun hn => hn.2.1 h
    have hdotdot : component ≠ dotdotComponent := by
      rcases hskip with rfl | rfl <;> decide
    rw [if_pos hskip, if_neg hnormal, if_neg hdotdot, if_neg hnormal,
      Nat.add_zero]
    by_cases hflag : hasFlag flags qubesPureAllowNonCanonicalPaths = true
    · rw [if_pos hflag, Except.ok.injEq]
      constructor
      · rintro rfl
        exact ⟨fun _ => hflag, charactersAllowed_of_not_normal hnormal,
          fun h => absurd h hdotdot, rfl⟩
      · rintro ⟨_, _, _, rfl⟩
        rfl
    · rw [if_neg hflag]
      constructor
      · intro h
        cases h
      · rintro ⟨h, _⟩
        exact absurd (h hskip) hflag
  rw [if_neg hskip]
  by_cases hdotdot : component = dotdotComponent
  · have hnormal : ¬ Normal component := fun hn => hn.2.2 hdotdot
    rw [if_pos hdotdot, if_neg hnormal, if_pos hdotdot, if_neg hnormal,
      Nat.add_zero]
    by_cases hbudget : allowed < 1
    · rw [if_pos hbudget]
      constructor
      · intro h
        cases h
      · rintro ⟨_, _, h, _⟩
        exact absurd (h hdotdot) (Nat.not_le_of_lt hbudget)
    · rw [if_neg hbudget, Except.ok.injEq]
      constructor
      · rintro rfl
        exact ⟨fun h => absurd h hskip,
          charactersAllowed_of_not_normal hnormal,
          fun _ => Nat.le_of_not_lt hbudget, rfl⟩
      · rintro ⟨_, _, _, rfl⟩
        rfl
  · obtain ⟨hempty, hone⟩ := not_or.mp hskip
    have hnormal : Normal component := ⟨hempty, hone, hdotdot⟩
    rw [if_neg hdotdot, if_pos hnormal, if_pos hnormal]
    by_cases hallowed : CharactersAllowed table flags component
    · rw [if_pos hallowed, Except.ok.injEq]
      constructor
      · rintro rfl
        exact ⟨fun h => absurd h hskip, hallowed,
          fun h => absurd h hdotdot, rfl⟩
      · rintro ⟨_, _, _, rfl⟩
        rfl
    · rw [if_neg hallowed]
      constructor
      · intro h
        cases h
      · rintro ⟨_, h, _⟩
        exact absurd h hallowed

theorem admitComponent_error {component : List UInt8}
    {allowed count : Nat} {errno : Int}
    (herror : admitComponent table flags component allowed count =
      .error errno) : errno < 0 := by
  rw [admitComponent] at herror
  split at herror
  · split at herror
    · simp at herror
    · simp only [Except.error.injEq] at herror
      exact herror ▸ by decide
  · split at herror
    · split at herror
      · simp only [Except.error.injEq] at herror
        exact herror ▸ by decide
      · simp at herror
    · split at herror
      · simp at herror
      · simp only [Except.error.injEq] at herror
        exact herror ▸ by decide

theorem admissible_singleton_nil_iff (allowed : Nat) :
    AdmissibleComponents table flags allowed [[]] ↔
      hasFlag flags qubesPureAllowTrailingSlash = true := by
  constructor
  · intro h
    exact h.noTrailingSlash rfl
  · intro h
    refine ⟨by simp, by simp [dotComponent], fun _ => h,
      by simp [dotdotComponent], by simp, ?_⟩
    intro piece hpiece
    exact charactersAllowed_of_not_normal (by simp_all [Normal])

theorem admissible_singleton_iff {component : List UInt8}
    (hne : component ≠ []) (allowed : Nat) :
    AdmissibleComponents table flags allowed [component] ↔
      (component = [] ∨ component = dotComponent →
        hasFlag flags qubesPureAllowNonCanonicalPaths = true) ∧
      CharactersAllowed table flags component ∧
      (component = dotdotComponent → 1 ≤ allowed) := by
  constructor
  · intro h
    refine ⟨?_, h.characters _ (by simp), ?_⟩
    · rintro (rfl | rfl)
      · exact absurd rfl hne
      · exact h.noDot (by simp)
    · rintro rfl
      simpa using h.budget
  · rintro ⟨hcanonical, hcharacters, hdotdot⟩
    refine ⟨by simp, ?_, by simp [hne], ?_, by simp, by simpa using hcharacters⟩
    · intro hmem
      exact hcanonical (Or.inr (by simpa [eq_comm] using hmem))
    · by_cases heq : component = dotdotComponent
      · simpa [heq] using hdotdot heq
      · simp [heq]

/-- The verdict on a list of components is a count exactly when they are
admissible. -/
theorem judgeComponents_nonneg_iff (pieces : List (List UInt8)) :
    pieces ≠ [] → ∀ (allowed count : Nat) (k : Int),
      (judgeComponents table flags pieces allowed count = k ∧ 0 ≤ k) ↔
        AdmissibleComponents table flags allowed pieces ∧
          k = count + pieces.countP
            (fun component => decide (Normal component)) := by
  induction pieces with
  | nil => exact fun h => absurd rfl h
  | cons component rest ih =>
      intro _ allowed count k
      by_cases hlast : component = [] ∧ rest = []
      · obtain ⟨rfl, rfl⟩ := hlast
        rw [admissible_singleton_nil_iff, judgeComponents]
        by_cases hflag : hasFlag flags qubesPureAllowTrailingSlash = true
        · simp only [hflag, if_true, true_and]
          simp only [List.countP_cons, List.countP_nil, Normal]
          constructor
          · rintro ⟨rfl, _⟩
            simp
          · rintro rfl
            simp
        · rw [if_neg hflag]
          constructor
          · rintro ⟨rfl, hk⟩
            exact absurd hk (by decide)
          · rintro ⟨h, _⟩
            exact absurd h hflag
      rw [not_and_or] at hlast
      rw [judgeComponents_cons hlast]
      have hcount : ((component :: rest).countP
          (fun component => decide (Normal component)) : Int) =
          (if Normal component then 1 else 0 : Nat) + rest.countP
            (fun component => decide (Normal component)) := by
        rw [List.countP_cons]
        simp only [decide_eq_true_eq]
        omega
      rw [hcount]
      cases hadmit : admitComponent table flags component allowed count with
      | error errno =>
          have hnegative := admitComponent_error hadmit
          have hnone := fun next =>
            (@admitComponent_ok_iff table flags
              component allowed count next).not.mp (by rw [ hadmit]; simp)
          constructor
          · rintro ⟨h, hk⟩
            have herrno : errno = k := h
            omega
          · rintro ⟨hadmissible, _⟩
            exfalso
            by_cases hrest : rest = []
            · subst hrest
              obtain ⟨h₁, h₂, h₃⟩ := (admissible_singleton_iff
                (by simpa using hlast) allowed).mp hadmissible
              exact hnone _ ⟨h₁, h₂, h₃, rfl⟩
            · obtain ⟨h₁, h₂, h₃, _⟩ :=
                (admissible_cons_iff hrest allowed).mp hadmissible
              exact hnone _ ⟨h₁, h₂, h₃, rfl⟩
      | ok next =>
          obtain ⟨h₁, h₂, h₃, rfl⟩ := (admitComponent_ok_iff component
            allowed count next).mp hadmit
          simp only
          by_cases hrest : rest = []
          · subst hrest
            rw [admissible_singleton_iff (by simpa using hlast), judgeComponents]
            constructor
            · rintro ⟨rfl, _⟩
              exact ⟨⟨h₁, h₂, h₃⟩, by simp⟩
            · rintro ⟨_, rfl⟩
              exact ⟨by simp, by simp; omega⟩
          · rw [ih hrest, admissible_cons_iff hrest]
            constructor
            · rintro ⟨h, rfl⟩
              exact ⟨⟨h₁, h₂, h₃, h⟩, by omega⟩
            · rintro ⟨⟨_, _, _, h⟩, rfl⟩
              exact ⟨h, by omega⟩

/-- Safe text is safe in every component. -/
theorem safeText_iff_components (text : List UInt8) :
    SafeText table text ↔
      ∀ component ∈ components text, SafeText table component := by
  induction text using pieces_induction slash with
  | last piece hfree =>
      rw [components, List.splitOn_eq_singleton hfree]
      simp
  | cons piece rest hfree ih =>
      rw [components, List.splitOn_append_cons_self_of_not_mem hfree,
        safeText_append_cons_iff printable_slash, ih]
      simp [components]

theorem pathLanguage_iff_admissible {path : CString} {n : Nat}
    (hne : path.bytes ≠ []) :
    PathLanguage table path n flags ↔
      path.bytes.head? ≠ some slash ∧
        AdmissibleComponents table flags n (components path.bytes) := by
  have hlast : path.bytes.getLast? = some slash ↔
      (components path.bytes).getLast? = some [] := by
    rw [getLast?_eq_sep_iff]
    refine ⟨fun h => h.2, fun h => ⟨?_, h⟩⟩
    by_contra hlength
    obtain ⟨piece, pieces, hsplit⟩ :=
      exists_splitOn_eq_cons slash path.bytes
    rw [components, hsplit] at h
    rw [hsplit, List.length_cons] at hlength
    have hnil : pieces = [] := List.eq_nil_of_length_eq_zero (by omega)
    subst hnil
    have hpiece : piece = [] := by simpa using h
    subst hpiece
    exact hne ((splitOn_eq_singleton_nil_iff slash _).mp hsplit)
  have hcharacters :
      (hasFlag flags qubesPureAllowUnsafeCharacters = false →
        SafeText table path.bytes) ↔
      ∀ piece ∈ components path.bytes,
        CharactersAllowed table flags piece := by
    rw [safeText_iff_components]
    cases hflag : hasFlag flags qubesPureAllowUnsafeCharacters with
    | false => simp [CharactersAllowed, hflag]
    | true => simp [CharactersAllowed, hflag]
  constructor
  · intro h
    exact ⟨h.relative, h.noEmpty, h.noDot,
      fun hend => h.noTrailingSlash (hlast.mpr hend), h.budget, h.leading,
      hcharacters.mp h.characters⟩
  · rintro ⟨hrelative, h⟩
    exact ⟨fun hempty => absurd hempty hne, hrelative, h.noEmpty, h.noDot,
      fun hend => h.noTrailingSlash (hlast.mp hend), h.budget, h.leading,
      hcharacters.mpr h.characters⟩

/-- `validate_path` on a nonempty relative path. -/
theorem validatePath_eq_judge {path : CString} (hne : path.bytes ≠ [])
    (hrelative : path.bytes.head? ≠ some slash) (n : Nat) :
    validatePath table path n flags =
      .ok (judgeComponents table flags (components path.bytes) n 0) := by
  obtain ⟨byte, rest, hbytes⟩ := List.exists_cons_of_ne_nil hne
  have hread : path.byteAt 0 = .ok byte :=
    @CString.byteAt_of_eq_append path [] _ _ hbytes
  have hzero : byte ≠ 0 := path.ne_zero_of_mem (by simp [hbytes])
  have hslash : byte ≠ slash := by simpa [hbytes] using hrelative
  rw [validatePath, hread]
  simp only [bind, Except.bind]
  rw [if_neg hzero, if_neg hslash]
  exact validatePathLoop_eq_judge path.bytes [] rfl (Or.inl rfl)
    (Or.inr hne) n 0 _ (Nat.lt_succ_self _)

/-- A count is returned exactly on the paths of the language. -/
theorem validatePath_nonneg_iff (path : CString) (n : Nat) (k : Int) :
    (validatePath table path n flags = .ok k ∧ 0 ≤ k) ↔
      PathLanguage table path n flags ∧ k = normalCount path.bytes := by
  by_cases hne : path.bytes = []
  · have hread : path.byteAt 0 = .ok 0 := @CString.byteAt_end path [] hne
    rw [validatePath, hread]
    simp only [bind, Except.bind, if_true, Except.ok.injEq]
    have hpieces : components path.bytes = [[]] := by
      rw [hne]
      exact List.splitOn_nil slash
    by_cases hflag : hasFlag flags qubesPureAllowNonCanonicalPaths = true
    · have hlanguage : PathLanguage table path n flags := by
        refine ⟨fun _ => hflag, by simp [hne], fun _ => hflag,
          fun _ => hflag, by simp [hne], by simp [hpieces, dotdotComponent],
          by simp [hpieces], fun _ => hne ▸ safeText_nil table⟩
      have hzero : normalCount path.bytes = 0 := by
        simp [normalCount, hpieces, Normal]
      simp only [hflag, if_true, hlanguage, hzero, true_and]
      constructor
      · rintro ⟨rfl, _⟩
        rfl
      · rintro rfl
        exact ⟨rfl, by simp⟩
    · rw [if_neg hflag]
      constructor
      · rintro ⟨rfl, hk⟩
        exact absurd hk (by decide)
      · rintro ⟨hlanguage, _⟩
        exact absurd (hlanguage.nonempty hne) hflag
  rw [pathLanguage_iff_admissible hne]
  by_cases hrelative : path.bytes.head? = some slash
  · obtain ⟨byte, rest, hbytes⟩ := List.exists_cons_of_ne_nil hne
    have hread : path.byteAt 0 = .ok byte :=
      @CString.byteAt_of_eq_append path [] _ _ hbytes
    have hslash : byte = slash := by simpa [hbytes] using hrelative
    rw [validatePath, hread, hslash]
    simp only [bind, Except.bind]
    rw [if_neg (by decide), if_pos trivial]
    constructor
    · rintro ⟨h, hk⟩
      simp only [Except.ok.injEq] at h
      exact absurd hk (by rw [← h]; decide)
    · rintro ⟨⟨h, _⟩, _⟩
      exact absurd hrelative h
  · rw [validatePath_eq_judge hne hrelative, Except.ok.injEq,
      judgeComponents_nonneg_iff _ (components_ne_nil _)]
    simp [hrelative, normalCount]

/-- `validate_path` always returns. -/
theorem validatePath_total (path : CString) (n : Nat) :
    ∃ k, validatePath table path n flags = .ok k := by
  by_cases hne : path.bytes = []
  · have hread : path.byteAt 0 = .ok 0 := @CString.byteAt_end path [] hne
    rw [validatePath, hread]
    exact ⟨_, rfl⟩
  by_cases hrelative : path.bytes.head? = some slash
  · obtain ⟨byte, rest, hbytes⟩ := List.exists_cons_of_ne_nil hne
    have hslash : byte = slash := by simpa [hbytes] using hrelative
    have hread : path.byteAt 0 = .ok byte :=
      @CString.byteAt_of_eq_append path [] _ _ hbytes
    rw [validatePath, hread, hslash]
    exact ⟨_, rfl⟩
  · exact ⟨_, validatePath_eq_judge hne hrelative n⟩

/-! Errors. -/

theorem judgeComponents_negative (pieces : List (List UInt8)) :
    ∀ allowed count, judgeComponents table flags pieces allowed count < 0 →
      judgeComponents table flags pieces allowed count = -EILSEQ ∨
        judgeComponents table flags pieces allowed count = -ENOLINK := by
  induction pieces with
  | nil =>
      intro allowed count h
      rw [judgeComponents] at h
      omega
  | cons component rest ih =>
      intro allowed count
      by_cases hlast : component = [] ∧ rest = []
      · obtain ⟨rfl, rfl⟩ := hlast
        rw [judgeComponents]
        by_cases hflag : hasFlag flags qubesPureAllowTrailingSlash = true
        · rw [if_pos hflag]
          omega
        · rw [if_neg hflag]
          exact fun _ => Or.inl rfl
      rw [judgeComponents_cons (by tauto)]
      have hadmit : ∀ errno, admitComponent table flags component allowed
          count = .error errno → errno = -EILSEQ ∨ errno = -ENOLINK := by
        intro errno h
        rw [admitComponent] at h
        split at h
        · split at h
          · cases h
          · exact Or.inl (Except.error.inj h).symm
        · split at h
          · split at h
            · exact Or.inr (Except.error.inj h).symm
            · cases h
          · split at h
            · cases h
            · exact Or.inl (Except.error.inj h).symm
      cases hresult : admitComponent table flags component allowed count with
      | error errno => exact fun _ => hadmit errno hresult
      | ok state => exact ih state.1 state.2

theorem validatePath_negative {path : CString} {n : Nat} {res : Int}
    (h : validatePath table path n flags = .ok res) (hres : res < 0) :
    res = -EILSEQ ∨ res = -ENOLINK := by
  by_cases hne : path.bytes = []
  · have hread : path.byteAt 0 = .ok 0 := @CString.byteAt_end path [] hne
    rw [validatePath, hread] at h
    simp only [bind, Except.bind, if_true, Except.ok.injEq] at h
    split at h
    · omega
    · exact Or.inr h.symm
  by_cases hrelative : path.bytes.head? = some slash
  · obtain ⟨byte, rest, hbytes⟩ := List.exists_cons_of_ne_nil hne
    have hslash : byte = slash := by simpa [hbytes] using hrelative
    have hread : path.byteAt 0 = .ok byte :=
      @CString.byteAt_of_eq_append path [] _ _ hbytes
    rw [validatePath, hread, hslash] at h
    exact Or.inr (Except.ok.inj h).symm
  · rw [validatePath_eq_judge hne hrelative, Except.ok.injEq] at h
    subst h
    exact judgeComponents_negative _ n 0 hres

/-- What the public validators return. -/
def IsVerdict (res : Int) : Prop :=
  res = 0 ∨ res = -EINVAL ∨ res = -EILSEQ ∨ res = -ENOLINK

theorem qubesPureValidateFileNameV2_total (path : CString) :
    ∃ res, qubesPureValidateFileNameV2 table path flags = .ok res := by
  rw [qubesPureValidateFileNameV2]
  split
  · exact ⟨_, rfl⟩
  · obtain ⟨count, hcount⟩ := @validatePath_total table flags path 0
    rw [hcount]
    exact ⟨_, rfl⟩

theorem qubesPureValidateSymbolicLinkV2_total (name target : CString) :
    ∃ res, qubesPureValidateSymbolicLinkV2 table name target flags =
      .ok res := by
  rw [qubesPureValidateSymbolicLinkV2]
  split
  · exact ⟨_, rfl⟩
  obtain ⟨depth, hdepth⟩ := @validatePath_total table flags name 0
  rw [hdepth]
  simp only [bind, Except.bind]
  split
  · exact ⟨_, rfl⟩
  split
  · exact ⟨_, rfl⟩
  split
  · exact ⟨_, rfl⟩
  generalize (if hasFlag flags qubesPureAllowNonCanonicalSymlinks = true
    then flags ||| qubesPureAllowNonCanonicalPaths else flags) |||
      qubesPureAllowTrailingSlash = targetFlags
  obtain ⟨count, hcount⟩ := @validatePath_total table targetFlags target
    (depth - 2).toNat
  rw [hcount]
  exact ⟨_, rfl⟩

/-- The reasons for a rejection, with flags that are known. -/
theorem qubesPureValidateFileNameV2_reason {path : CString} {res : Int}
    (hflags : flagCheck flags = true)
    (h : qubesPureValidateFileNameV2 table path flags = .ok res) :
    res = 0 ∨ res = -EILSEQ := by
  obtain ⟨count, hcount⟩ := @validatePath_total table flags path 0
  rw [qubesPureValidateFileNameV2, hflags, if_neg (by decide), hcount] at h
  simp only [bind, Except.bind, Except.ok.injEq] at h
  split at h
  · exact Or.inl h.symm
  · exact Or.inr h.symm

theorem qubesPureValidateSymbolicLinkV2_reason {name target : CString}
    {res : Int} (hflags : flagCheck flags = true)
    (h : qubesPureValidateSymbolicLinkV2 table name target flags = .ok res) :
    res = 0 ∨ res = -EILSEQ ∨ res = -ENOLINK := by
  obtain ⟨depth, hdepth⟩ := @validatePath_total table flags name 0
  rw [qubesPureValidateSymbolicLinkV2, hflags, if_neg (by decide),
    hdepth] at h
  simp only [bind, Except.bind] at h
  split at h
  · exact Or.inr (Or.inl (Except.ok.inj h).symm)
  split at h
  · rw [Except.ok.injEq] at h
    split at h
    · exact Or.inl h.symm
    · exact Or.inr (Or.inr h.symm)
  split at h
  · exact Or.inr (Or.inr (Except.ok.inj h).symm)
  generalize (if hasFlag flags qubesPureAllowNonCanonicalSymlinks = true
    then flags ||| qubesPureAllowNonCanonicalPaths else flags) |||
      qubesPureAllowTrailingSlash = targetFlags at h
  obtain ⟨count, hcount⟩ := @validatePath_total table targetFlags target
    (depth - 2).toNat
  rw [hcount] at h
  simp only [Except.ok.injEq] at h
  split at h
  · subst h
    rename_i hnegative
    exact Or.inr (validatePath_negative hcount hnegative)
  · exact Or.inl h.symm

theorem qubesPureValidateFileNameV2_verdict {path : CString} {res : Int}
    (h : qubesPureValidateFileNameV2 table path flags = .ok res) :
    IsVerdict res := by
  by_cases hflags : flagCheck flags = true
  · rcases qubesPureValidateFileNameV2_reason hflags h with hres | hres
    · exact Or.inl hres
    · exact Or.inr (Or.inr (Or.inl hres))
  · rw [qubesPureValidateFileNameV2,
      if_pos (Bool.eq_false_iff.mpr hflags)] at h
    exact Or.inr (Or.inl (Except.ok.inj h).symm)

theorem qubesPureValidateSymbolicLinkV2_verdict {name target : CString}
    {res : Int}
    (h : qubesPureValidateSymbolicLinkV2 table name target flags = .ok res) :
    IsVerdict res := by
  by_cases hflags : flagCheck flags = true
  · exact (qubesPureValidateSymbolicLinkV2_reason hflags h).imp_right Or.inr
  · rw [qubesPureValidateSymbolicLinkV2,
      if_pos (Bool.eq_false_iff.mpr hflags)] at h
    exact Or.inr (Or.inl (Except.ok.inj h).symm)

theorem qubesPureValidateFileNameV2_eq_zero_iff (path : CString)
    (hflags : flagCheck flags = true) :
    qubesPureValidateFileNameV2 table path flags = .ok 0 ↔
      PathLanguage table path 0 flags ∧ 0 < normalCount path.bytes := by
  obtain ⟨k, hk⟩ := @validatePath_total table flags
    path 0
  have hlanguage := @validatePath_nonneg_iff table flags
    path 0 k
  rw [qubesPureValidateFileNameV2, hflags, hk]
  simp only [hk, true_and] at hlanguage
  simp only [bind, Except.bind, Bool.true_eq_false, if_false,
    Except.ok.injEq]
  constructor
  · intro h
    by_cases hpos : 0 < k
    · obtain ⟨hpath, rfl⟩ := hlanguage.mp (by omega)
      exact ⟨hpath, by omega⟩
    · rw [if_neg hpos] at h
      exact absurd h (by decide)
  · rintro ⟨hpath, hcount⟩
    have hvalue := ((validatePath_nonneg_iff path 0 _).mpr ⟨hpath, rfl⟩).1
    rw [hk, Except.ok.injEq] at hvalue
    rw [if_pos (by omega)]

/-- The accepted paths and the count returned for them, for the flags that
the public validators let through. -/
theorem validatePath_language (path : CString)
    (hflags : flagCheck flags = true) :
    (∀ (n : Nat) (k : Int),
      (validatePath table path n flags = .ok k ∧ 0 ≤ k) ↔
        PathLanguage table path n flags ∧ k = normalCount path.bytes) ∧
    (qubesPureValidateFileNameV2 table path flags = .ok 0 ↔
      PathLanguage table path 0 flags ∧ 0 < normalCount path.bytes) :=
  ⟨validatePath_nonneg_iff path,
    qubesPureValidateFileNameV2_eq_zero_iff path hflags⟩

/-- The flags under which the target of a link is checked. -/
def targetFlags (flags : Flags) : Flags :=
  (if hasFlag flags qubesPureAllowNonCanonicalSymlinks = true
    then flags ||| qubesPureAllowNonCanonicalPaths else flags) |||
      qubesPureAllowTrailingSlash

theorem validatePath_count {path : CString} {n : Nat} {k : Int}
    (hk : validatePath table path n flags = .ok k) (hnonneg : 0 ≤ k) :
    PathLanguage table path n flags ∧ k = normalCount path.bytes :=
  (validatePath_nonneg_iff path n k).mp ⟨hk, hnonneg⟩

theorem validatePath_of_language {path : CString} {n : Nat}
    (hpath : PathLanguage table path n flags) :
    validatePath table path n flags = .ok (normalCount path.bytes : Int) :=
  ((validatePath_nonneg_iff path n _).mpr ⟨hpath, rfl⟩).1

theorem qubesPureValidateSymbolicLinkV2_eq_zero_iff (name target : CString)
    (hflags : flagCheck flags = true) :
    qubesPureValidateSymbolicLinkV2 table name target flags = .ok 0 ↔
      PathLanguage table name 0 flags ∧
        ((hasFlag flags qubesPureAllowUnsafeSymlinks = true ∧
            0 < normalCount name.bytes) ∨
          (2 ≤ normalCount name.bytes ∧
            PathLanguage table target (normalCount name.bytes - 2)
              (targetFlags flags))) := by
  obtain ⟨depth, hdepth⟩ := @validatePath_total table flags name 0
  rw [qubesPureValidateSymbolicLinkV2, hflags, hdepth]
  simp only [bind, Except.bind, Bool.true_eq_false, if_false]
  by_cases hnegative : depth < 0
  · rw [if_pos hnegative]
    constructor
    · intro h
      exact absurd (Except.ok.inj h) (by decide)
    · rintro ⟨hname, _⟩
      rw [validatePath_of_language hname, Except.ok.injEq] at hdepth
      omega
  rw [if_neg hnegative]
  obtain ⟨hname, rfl⟩ := validatePath_count hdepth (by omega)
  by_cases hlax : hasFlag flags qubesPureAllowUnsafeSymlinks = true
  · rw [if_pos hlax, Except.ok.injEq]
    by_cases hcount : 0 < normalCount name.bytes
    · rw [if_pos (by omega)]
      exact ⟨fun _ => ⟨hname, Or.inl ⟨hlax, hcount⟩⟩, fun _ => rfl⟩
    · rw [if_neg (by omega)]
      constructor
      · intro h
        exact absurd h (by decide)
      · rintro ⟨_, ⟨_, h⟩ | ⟨h, _⟩⟩
        · exact absurd h hcount
        · omega
  rw [if_neg hlax]
  by_cases hshallow : normalCount name.bytes < 2
  · rw [if_pos (by omega)]
    constructor
    · intro h
      exact absurd (Except.ok.inj h) (by decide)
    · rintro ⟨_, ⟨h, _⟩ | ⟨h, _⟩⟩
      · exact absurd h hlax
      · omega
  have hbudget : ((normalCount name.bytes : Int) - 2).toNat =
      normalCount name.bytes - 2 := by omega
  obtain ⟨res, hres⟩ := @validatePath_total table (targetFlags flags) target
    (normalCount name.bytes - 2)
  have hrun := hres
  rw [targetFlags] at hrun
  rw [if_neg (by omega), hbudget, hrun]
  simp only [Except.ok.injEq]
  by_cases hrefused : res < 0
  · rw [if_pos hrefused]
    constructor
    · intro h
      omega
    · rintro ⟨_, ⟨h, _⟩ | ⟨_, htarget⟩⟩
      · exact absurd h hlax
      · rw [validatePath_of_language htarget, Except.ok.injEq] at hres
        omega
  · rw [if_neg hrefused]
    have htarget := (validatePath_count hres (by omega)).1
    exact ⟨fun _ => ⟨hname, Or.inr ⟨by omega, htarget⟩⟩, fun _ => rfl⟩

end

/-- `a/b` under the committed table. -/
theorem validatePath_language_canonical :
    flagCheck 0#32 = true ∧
    (qubesPureValidateFileNameV2 committedTable
        ⟨[0x61, slash, 0x62], by decide⟩ 0#32 = .ok 0 ↔
      PathLanguage committedTable ⟨[0x61, slash, 0x62], by decide⟩ 0 0#32 ∧
        0 < normalCount [0x61, slash, 0x62]) :=
  ⟨by decide, (validatePath_language _ (by decide)).2⟩

end QubesUtils
