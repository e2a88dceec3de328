/-
Lists cut at a separator: recursion on the pieces of `List.splitOn`, and what
the pieces say about the list.  Everything here is generic in the element
type.
-/
import Mathlib.Data.List.Infix

namespace Separated

universe u

variable {α : Type u}

/-- A list is free of the separator, or it has a first piece. -/
theorem free_or_first_piece [DecidableEq α] (sep : α) (l : List α) :
    sep ∉ l ∨ ∃ piece rest, l = piece ++ sep :: rest ∧ sep ∉ piece := by
  induction l with
  | nil => exact Or.inl (by simp)
  | cons head tail ih =>
      by_cases hhead : head = sep
      · subst head
        exact Or.inr ⟨[], tail, rfl, by simp⟩
      · rcases ih with hfree | ⟨piece, rest, rfl, hpiece⟩
        · exact Or.inl (by simp [hfree, Ne.symm hhead])
        · exact Or.inr ⟨head :: piece, rest, rfl,
            by simp [hpiece, Ne.symm hhead]⟩

/-- Recursion on the pieces: a last piece, or a piece, a separator and a
shorter list. -/
theorem pieces_induction [DecidableEq α] (sep : α) {P : List α → Prop}
    (last : ∀ piece, sep ∉ piece → P piece)
    (cons : ∀ piece rest, sep ∉ piece → P rest → P (piece ++ sep :: rest))
    (l : List α) : P l := by
  induction hn : l.length using Nat.strong_induction_on generalizing l with
  | h n ih =>
      rcases free_or_first_piece sep l with hfree | ⟨piece, rest, rfl, hpiece⟩
      · exact last l hfree
      · refine cons piece rest hpiece (ih rest.length ?_ rest rfl)
        rw [← hn]
        simp only [List.length_append, List.length_cons]
        omega

theorem exists_splitOn_eq_cons [BEq α] (sep : α) (l : List α) :
    ∃ piece pieces, l.splitOn sep = piece :: pieces :=
  List.exists_cons_of_ne_nil (List.splitOn_ne_nil sep l)

theorem not_mem_of_mem_splitOn [DecidableEq α] {sep : α} {l piece : List α}
    (hpiece : piece ∈ l.splitOn sep) : sep ∉ piece := by
  induction l using pieces_induction sep with
  | last whole hfree =>
      rw [List.splitOn_eq_singleton hfree, List.mem_singleton] at hpiece
      exact hpiece ▸ hfree
  | cons first rest hfree ih =>
      rw [List.splitOn_append_cons_self_of_not_mem hfree,
        List.mem_cons] at hpiece
      rcases hpiece with rfl | hrest
      · exact hfree
      · exact ih hrest

/-- Only the empty list has a single empty piece. -/
theorem splitOn_eq_singleton_nil_iff [DecidableEq α] (sep : α) (l : List α) :
    l.splitOn sep = [[]] ↔ l = [] := by
  constructor
  · intro hsplit
    have hjoin := @List.intercalate_splitOn _ l _ _ sep
    rw [hsplit] at hjoin
    simpa using hjoin.symm
  · rintro rfl
    exact List.splitOn_nil sep

/-- The list ends in a separator exactly when it has an earlier piece and its
last piece is empty. -/
theorem getLast?_eq_sep_iff [DecidableEq α] (sep : α) (l : List α) :
    l.getLast? = some sep ↔
      1 < (l.splitOn sep).length ∧ (l.splitOn sep).getLast? = some [] := by
  induction l using pieces_induction sep with
  | last piece hfree =>
      rw [List.splitOn_eq_singleton hfree]
      constructor
      · intro hlast
        exact absurd (List.mem_of_getLast? hlast) hfree
      · rintro ⟨hlength, _⟩
        simp at hlength
  | cons piece rest hfree ih =>
      obtain ⟨first, pieces, hsplit⟩ := exists_splitOn_eq_cons sep rest
      rw [List.splitOn_append_cons_self_of_not_mem hfree, hsplit,
        List.getLast?_append_of_ne_nil _ (by simp)]
      rw [hsplit] at ih
      cases rest with
      | nil =>
          rw [List.splitOn_nil, List.cons.injEq] at hsplit
          simp [← hsplit.1, ← hsplit.2]
      | cons head tail =>
          rw [List.getLast?_cons_cons, ih]
          cases pieces with
          | nil =>
              have hfirst : first ≠ [] := by
                rintro rfl
                have := (splitOn_eq_singleton_nil_iff sep _).mp hsplit
                simp at this
              simp [hfirst]
          | cons second others => simp

end Separated
