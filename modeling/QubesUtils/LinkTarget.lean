/-
What `qubes_pure_validate_symbolic_link_v2` guarantees: resolving the target
by its components, from the directory of the link, never climbs above the
first component of the name.
-/
import QubesUtils.PathLanguage
import QubesUtils.Walk

namespace QubesUtils

open Walk

/-- A component as a step of a path resolution. -/
def moveOf (component : List UInt8) : Move (List UInt8) :=
  if component = [] ∨ component = dotComponent then .stay
  else if component = dotdotComponent then .up
  else .down component

/-- The position after resolving components by their names alone. -/
def resolve (position : List (List UInt8)) (pieces : List (List UInt8)) :
    List (List UInt8) :=
  follow position (pieces.map moveOf)

/-- The components that are neither empty nor `.`. -/
def namedComponents (path : List UInt8) : List (List UInt8) :=
  (components path).filter fun component =>
    decide (component ≠ [] ∧ component ≠ dotComponent)

theorem moveOf_eq_up_iff {component : List UInt8} :
    moveOf component = .up ↔ component = dotdotComponent := by
  rw [moveOf]
  by_cases hskip : component = [] ∨ component = dotComponent
  · rw [if_pos hskip]
    constructor
    · intro h
      cases h
    · rintro rfl
      exact absurd hskip (by decide)
  · rw [if_neg hskip]
    by_cases hdotdot : component = dotdotComponent
    · simp [hdotdot]
    · simp [hdotdot]

theorem moveOf_of_normal {component : List UInt8}
    (hnormal : Normal component) : moveOf component = .down component := by
  rw [moveOf, if_neg (not_or.mpr ⟨hnormal.1, hnormal.2.1⟩),
    if_neg hnormal.2.2]

/-- A `..` budget that the validator accepts bounds the walk. -/
theorem bounded_of_budget (pieces : List (List UInt8)) :
    ∀ height : Nat, pieces.count dotdotComponent ≤ height →
      pieces.Pairwise (fun earlier later =>
        Normal earlier → later ≠ dotdotComponent) →
      Bounded height (pieces.map moveOf) := by
  induction pieces with
  | nil => exact fun _ _ _ => trivial
  | cons component pieces ih =>
      intro height hbudget hleading
      rw [List.count_cons] at hbudget
      obtain ⟨hfirst, hrest⟩ := List.pairwise_cons.mp hleading
      rw [List.map_cons]
      by_cases hskip : component = [] ∨ component = dotComponent
      · rw [moveOf, if_pos hskip]
        exact ih height (by omega) hrest
      by_cases hdotdot : component = dotdotComponent
      · rw [moveOf_eq_up_iff.mpr hdotdot]
        simp only [hdotdot, BEq.rfl, if_true] at hbudget
        cases height with
        | zero => omega
        | succ height => exact ih height (by omega) hrest
      · have hnormal : Normal component :=
          ⟨fun h => hskip (Or.inl h), fun h => hskip (Or.inr h), hdotdot⟩
        rw [moveOf_of_normal hnormal]
        intro hup
        obtain ⟨later, hlater, heq⟩ := List.mem_map.mp hup
        exact hfirst later hlater hnormal (moveOf_eq_up_iff.mp heq)

theorem not_mem_of_budget_zero {table : AllowTable} {path : CString}
    {flags : Flags} (hpath : PathLanguage table path 0 flags) :
    dotdotComponent ∉ components path.bytes :=
  List.count_eq_zero.mp (Nat.le_zero.mp hpath.budget)

theorem length_namedComponents {path : List UInt8}
    (hdotdot : dotdotComponent ∉ components path) :
    (namedComponents path).length = normalCount path := by
  rw [namedComponents, normalCount, ← List.countP_eq_length_filter]
  refine List.countP_congr fun component hcomponent => ?_
  have hne : component ≠ dotdotComponent :=
    fun h => hdotdot (h ▸ hcomponent)
  simp [Normal, hne]

/-- The target of a link that is accepted without the unsafe flag is a
bounded walk, two levels less than the depth of the link. -/
theorem accepted_link {table : AllowTable} {name target : CString}
    {flags : Flags}
    (hsafe : hasFlag flags qubesPureAllowUnsafeSymlinks = false)
    (haccept : qubesPureValidateSymbolicLinkV2 table name target flags =
      .ok 0) :
    PathLanguage table name 0 flags ∧ 2 ≤ normalCount name.bytes ∧
      target.bytes.head? ≠ some slash ∧
      Bounded (normalCount name.bytes - 2)
        ((components target.bytes).map moveOf) := by
  have hflags : flagCheck flags = true := by
    by_contra hcheck
    rw [qubesPureValidateSymbolicLinkV2, if_pos (by simpa using hcheck),
      Except.ok.injEq] at haccept
    exact absurd haccept (by decide)
  obtain ⟨hname, ⟨hlax, _⟩ | ⟨hdepth, htarget⟩⟩ :=
    (qubesPureValidateSymbolicLinkV2_eq_zero_iff name target hflags).mp
      haccept
  · exact absurd (hsafe.symm.trans hlax) (by decide)
  · exact ⟨hname, hdepth, htarget.relative,
      bounded_of_budget _ _ htarget.budget htarget.leading⟩

/-- Lexical safety of an accepted link. -/
theorem qubesPureValidateSymbolicLinkV2_confined (table : AllowTable)
    (name target : CString) (flags : Flags)
    (hsafe : hasFlag flags qubesPureAllowUnsafeSymlinks = false)
    (haccept : qubesPureValidateSymbolicLinkV2 table name target flags =
      .ok 0) :
    2 ≤ (namedComponents name.bytes).length ∧
      dotdotComponent ∉ namedComponents name.bytes ∧
      target.bytes.head? ≠ some slash ∧
      ∀ part, part <+: components target.bytes →
        (resolve (namedComponents name.bytes).dropLast part).head? =
          (namedComponents name.bytes).head? := by
  obtain ⟨hname, hdepth, hrelative, hbounded⟩ := accepted_link hsafe haccept
  have hdotdot := not_mem_of_budget_zero hname
  have hlength := length_namedComponents hdotdot
  refine ⟨by omega, fun h => hdotdot (List.mem_of_mem_filter h), hrelative,
    fun part hpart => ?_⟩
  have hpart' : Bounded (normalCount name.bytes - 2) (part.map moveOf) :=
    hbounded.of_prefix (hpart.map moveOf)
  generalize namedComponents name.bytes = names at hlength
  obtain ⟨top, second, names, rfl⟩ :
      ∃ top second rest, names = top :: second :: rest := by
    match names with
    | [] => simp at hlength; omega
    | [_] => simp at hlength; omega
    | top :: second :: rest => exact ⟨top, second, rest, rfl⟩
  obtain ⟨below, hbelow⟩ := hpart'.prefix_follow [top]
    (second :: names).dropLast (by
      rw [List.length_dropLast]
      simp only [List.length_cons] at hlength ⊢
      omega)
  have hstart : follow (top :: (second :: names).dropLast)
      (part.map moveOf) = top :: below := hbelow.symm
  rw [resolve, List.dropLast_cons_of_ne_nil (by simp), hstart]
  rfl

/-- `a/b -> c` is accepted, and stays in `a`. -/
theorem qubesPureValidateSymbolicLinkV2_confined_sibling :
    hasFlag 0#32 qubesPureAllowUnsafeSymlinks = false ∧
    qubesPureValidateSymbolicLinkV2 committedTable
      ⟨[0x61, slash, 0x62], by decide⟩ ⟨[0x63], by decide⟩ 0#32 = .ok 0 ∧
    2 ≤ (namedComponents [0x61, slash, 0x62]).length :=
  ⟨by decide, by decide,
    (qubesPureValidateSymbolicLinkV2_confined committedTable
      ⟨[0x61, slash, 0x62], by decide⟩ ⟨[0x63], by decide⟩ 0#32
      (by decide) (by decide)).1⟩

end QubesUtils
