/-
Runs of a predicate on numbers, found from left to right: closed runs, and
possibly one that has begun and is not closed yet.
-/
import Mathlib.Data.List.Basic

namespace RunLength

/-- A run from its first to its last number. -/
abbrev Run := Nat × Nat

/-- What has been found. -/
structure Scan where
  closed : List Run
  start : Option Nat

/-- The next number satisfies the predicate, or not. -/
def Scan.step (scan : Scan) (v : Nat) (holds : Bool) : Scan :=
  match scan.start with
  | none => if holds then { scan with start := some v } else scan
  | some first =>
      if holds then scan
      else { closed := scan.closed ++ [(first, v - 1)], start := none }

def Covered (runs : List Run) (n : Nat) : Prop :=
  ∃ run ∈ runs, run.1 ≤ n ∧ n ≤ run.2

/-- Each run is one, and a gap is between any two. -/
structure Spaced (runs : List Run) : Prop where
  ordered : ∀ run ∈ runs, run.1 ≤ run.2
  gaps : runs.Pairwise fun left right => left.2 + 1 < right.1

/-- The runs of the numbers from the first one on, in front of another. -/
structure Found (p : Nat → Bool) (low v : Nat) (scan : Scan) : Prop where
  spaced : Spaced scan.closed
  behind : ∀ run ∈ scan.closed, run.2 + 1 < scan.start.getD v
  begun : ∀ first ∈ scan.start, first < v
  covers : ∀ n, Covered scan.closed n ∨ (∃ first ∈ scan.start, first ≤ n ∧
    n < v) ↔ low ≤ n ∧ n < v ∧ p n = true

section

variable {p : Nat → Bool} {low v : Nat} {scan : Scan} {runs : List Run}

theorem covered_append_singleton {run : Run} {n : Nat} :
    Covered (runs ++ [run]) n ↔ Covered runs n ∨ (run.1 ≤ n ∧ n ≤ run.2) := by
  constructor
  · rintro ⟨other, hother, hn⟩
    rcases List.mem_append.mp hother with hruns | hlast
    · exact Or.inl ⟨other, hruns, hn⟩
    · rw [List.mem_singleton.mp hlast] at hn
      exact Or.inr hn
  · rintro (⟨other, hother, hn⟩ | hn)
    · exact ⟨other, List.mem_append_left _ hother, hn⟩
    · exact ⟨run, by simp, hn⟩

theorem Spaced.append_singleton (h : Spaced runs) {run : Run}
    (hrun : run.1 ≤ run.2) (hgap : ∀ other ∈ runs, other.2 + 1 < run.1) :
    Spaced (runs ++ [run]) where
  ordered := by
    intro other hother
    rcases List.mem_append.mp hother with hruns | hlast
    · exact h.ordered other hruns
    · rw [List.mem_singleton.mp hlast]
      exact hrun
  gaps := by
    apply List.pairwise_append.mpr
    refine ⟨h.gaps, List.pairwise_singleton _ _, fun other hother last hlast => ?_⟩
    rw [List.mem_singleton.mp hlast]
    exact hgap other hother

theorem Found.start (p : Nat → Bool) (low : Nat) :
    Found p low low ⟨[], none⟩ where
  spaced := ⟨fun _ h => absurd h List.not_mem_nil, List.Pairwise.nil⟩
  behind := fun _ h => absurd h List.not_mem_nil
  begun := fun _ h => by cases h
  covers := by
    intro n
    constructor
    · rintro (⟨run, hrun, _⟩ | ⟨first, hfirst, _⟩)
      · exact absurd hrun List.not_mem_nil
      · cases hfirst
    · rintro ⟨hlow, hhigh, _⟩
      omega

/-- Outside a run, or inside one, the scan goes on by a number. -/
theorem Found.step (h : Found p low v scan) (hlow : low ≤ v) :
    Found p low (v + 1) (scan.step v (p v)) := by
  obtain ⟨closed, start⟩ := scan
  obtain ⟨hspaced, hbehind, hbegun, hcovers⟩ := h
  have hnext : ∀ n, low ≤ n ∧ n < v + 1 ∧ p n = true ↔
      (low ≤ n ∧ n < v ∧ p n = true) ∨ (n = v ∧ p v = true) := by
    intro n
    constructor
    · rintro ⟨hfrom, hto, hp⟩
      by_cases hn : n = v
      · exact Or.inr ⟨hn, hn ▸ hp⟩
      · exact Or.inl ⟨hfrom, by omega, hp⟩
    · rintro (⟨hfrom, hto, hp⟩ | ⟨rfl, hp⟩)
      · exact ⟨hfrom, by omega, hp⟩
      · exact ⟨hlow, Nat.lt_succ_self _, hp⟩
  cases start with
  | none =>
      simp only [Option.getD_none, Option.not_mem_none, false_and,
        exists_false, or_false] at hbehind hcovers
      cases hp : p v with
      | false =>
          refine ⟨hspaced, fun run hrun => ?_, by simp [Scan.step], fun n => ?_⟩
          · exact Nat.lt_succ_of_lt (hbehind run hrun)
          · rw [hnext, ← hcovers]
            simp [Scan.step, hp]
      | true =>
          refine ⟨hspaced, hbehind, ?_, fun n => ?_⟩
          · intro first hfirst
            cases hfirst
            exact Nat.lt_succ_self v
          · rw [hnext, ← hcovers]
            simp only [Scan.step, if_true, Option.mem_def, Option.some.injEq,
              exists_eq_left', hp, and_true]
            constructor
            · rintro (hclosed | ⟨hfrom, hto⟩)
              · exact Or.inl hclosed
              · exact Or.inr (by omega)
            · rintro (hclosed | rfl)
              · exact Or.inl hclosed
              · exact Or.inr ⟨Nat.le_refl _, Nat.lt_succ_self _⟩
  | some first =>
      have hfirst : first < v := hbegun first rfl
      simp only [Option.getD_some, Option.mem_def, Option.some.injEq,
        exists_eq_left'] at hbehind hcovers
      cases hp : p v with
      | true =>
          refine ⟨hspaced, hbehind, ?_, fun n => ?_⟩
          · intro other hother
            cases hother
            exact Nat.lt_succ_of_lt hfirst
          · rw [hnext, ← hcovers]
            simp only [Scan.step, if_true, Option.mem_def, Option.some.injEq,
              exists_eq_left', hp, and_true]
            constructor
            · rintro (hclosed | ⟨hfrom, hto⟩)
              · exact Or.inl (Or.inl hclosed)
              · by_cases hn : n = v
                · exact Or.inr hn
                · exact Or.inl (Or.inr ⟨hfrom, by omega⟩)
            · rintro ((hclosed | ⟨hfrom, hto⟩) | rfl)
              · exact Or.inl hclosed
              · exact Or.inr ⟨hfrom, by omega⟩
              · exact Or.inr ⟨by omega, Nat.lt_succ_self _⟩
      | false =>
          have hrun : first ≤ v - 1 := by omega
          refine ⟨hspaced.append_singleton hrun hbehind, ?_,
            by simp [Scan.step], fun n => ?_⟩
          · intro run hrun'
            rcases List.mem_append.mp hrun' with hclosed | hlast
            · have hgap := hbehind run hclosed
              change run.2 + 1 < v + 1
              omega
            · rw [List.mem_singleton.mp hlast]
              change v - 1 + 1 < v + 1
              omega
          · rw [hnext, ← hcovers]
            simp only [Scan.step, Bool.false_eq_true, if_false,
              covered_append_singleton, Option.not_mem_none, false_and,
              exists_false, or_false, hp, and_false]
            constructor
            · rintro (hclosed | ⟨hfrom, hto⟩)
              · exact Or.inl hclosed
              · exact Or.inr ⟨hfrom, by omega⟩
            · rintro (hclosed | ⟨hfrom, hto⟩)
              · exact Or.inl hclosed
              · exact Or.inr ⟨hfrom, by omega⟩

/-- All runs are closed where the predicate fails at last. -/
theorem Found.closed (h : Found p low v scan) (hstart : scan.start = none) :
    Spaced scan.closed ∧
      ∀ n, Covered scan.closed n ↔ low ≤ n ∧ n < v ∧ p n = true := by
  refine ⟨h.spaced, fun n => ?_⟩
  rw [← h.covers, hstart]
  simp

end

end RunLength
