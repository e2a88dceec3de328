/-
Stores that are written in patches.  A crash may stop a sequence of patches
anywhere, and leave the patch in progress half written.
-/
import Mathlib.Data.List.Basic

namespace Store

universe u

variable {β : Type u}

/-- Consecutive values and the address of the first. -/
structure Patch (β : Type u) where
  offset : Nat
  data : List β

def Patch.Covers (patch : Patch β) (i : Nat) : Prop :=
  patch.offset ≤ i ∧ i < patch.offset + patch.data.length

def Patch.apply (patch : Patch β) (store : Nat → β) (i : Nat) : β :=
  if patch.offset ≤ i then
    (patch.data[i - patch.offset]?).getD (store i)
  else
    store i

def applyAll (patches : List (Patch β)) (store : Nat → β) : Nat → β :=
  patches.foldl (fun store patch => patch.apply store) store

/-- `count` values from an address on. -/
def read (store : Nat → β) (offset count : Nat) : List β :=
  (List.range count).map fun i => store (offset + i)

@[simp] theorem length_read (store : Nat → β) (offset count : Nat) :
    (read store offset count).length = count := by
  simp [read]

theorem Patch.apply_of_not_covers {patch : Patch β} {i : Nat}
    (hnot : ¬ patch.Covers i) (store : Nat → β) :
    patch.apply store i = store i := by
  rw [Patch.apply]
  split
  · rename_i hle
    have hlength : patch.data.length ≤ i - patch.offset := by
      by_contra h
      exact hnot ⟨hle, by omega⟩
    rw [List.getElem?_eq_none hlength]
    rfl
  · rfl

theorem applyAll_of_not_covers {patches : List (Patch β)} {i : Nat}
    (hnot : ∀ patch ∈ patches, ¬ patch.Covers i) (store : Nat → β) :
    applyAll patches store i = store i := by
  induction patches generalizing store with
  | nil => rfl
  | cons patch patches ih =>
      have hrest : ∀ patch ∈ patches, ¬ patch.Covers i := fun p hp =>
        hnot p (List.mem_cons_of_mem _ hp)
      have hfirst := hnot patch List.mem_cons_self
      rw [applyAll, List.foldl_cons]
      have := ih hrest (patch.apply store)
      rw [applyAll] at this
      rw [this, patch.apply_of_not_covers hfirst]

theorem applyAll_append (first second : List (Patch β)) (store : Nat → β) :
    applyAll (first ++ second) store =
      applyAll second (applyAll first store) := by
  rw [applyAll, applyAll, applyAll, List.foldl_append]

/-- What the second patches keep clear of is as the first have left it. -/
theorem applyAll_append_of_not_covers {first second : List (Patch β)}
    {i : Nat} (hnot : ∀ patch ∈ second, ¬ patch.Covers i)
    (store : Nat → β) :
    applyAll (first ++ second) store i = applyAll first store i := by
  rw [applyAll_append, applyAll_of_not_covers hnot]

theorem read_congr {left right : Nat → β} {offset count : Nat}
    (hagree : ∀ i, offset ≤ i → i < offset + count → left i = right i) :
    read left offset count = read right offset count := by
  apply List.map_congr_left
  intro i hi
  rw [List.mem_range] at hi
  exact hagree _ (Nat.le_add_right _ _) (by omega)

/-- A patch is read back. -/
theorem read_apply (patch : Patch β) (store : Nat → β) :
    read (patch.apply store) patch.offset patch.data.length =
      patch.data := by
  apply List.ext_getElem?
  intro i
  by_cases hi : i < patch.data.length
  · simp [read, Patch.apply, hi]
  · have hout := Nat.le_of_not_lt hi
    rw [List.getElem?_eq_none hout, List.getElem?_eq_none (by simpa using hout)]

/-- A patch is read back as long as the later ones keep clear of it. -/
theorem read_applyAll {patch : Patch β} {before after : List (Patch β)}
    (hclear : ∀ later ∈ after, ∀ i, patch.Covers i → ¬ later.Covers i)
    (store : Nat → β) :
    read (applyAll (before ++ patch :: after) store) patch.offset
      patch.data.length = patch.data := by
  have hread := read_apply patch (applyAll before store)
  rw [applyAll_append, applyAll, List.foldl_cons]
  refine Eq.trans (read_congr fun i hlow hhigh => ?_) hread
  exact applyAll_of_not_covers
    (fun later hlater => hclear later hlater i ⟨hlow, hhigh⟩) _

/-- The stores that a crash can leave behind while the patches are applied in
order. -/
inductive Crash : List (Patch β) → (Nat → β) → (Nat → β) → Prop
  | stop (patches : List (Patch β)) (store : Nat → β) :
      Crash patches store store
  | torn (patch : Patch β) (patches : List (Patch β))
      (store left : Nat → β)
      (hmixed : ∀ i, left i = store i ∨ left i = patch.apply store i) :
      Crash (patch :: patches) store left
  | next (patch : Patch β) (patches : List (Patch β))
      (store left : Nat → β)
      (hcrash : Crash patches (patch.apply store) left) :
      Crash (patch :: patches) store left

/-- What no patch covers survives a crash. -/
theorem Crash.eq_of_not_covers {patches : List (Patch β)}
    {store left : Nat → β} (hcrash : Crash patches store left) {i : Nat}
    (hnot : ∀ patch ∈ patches, ¬ patch.Covers i) : left i = store i := by
  induction hcrash with
  | stop => rfl
  | torn patch patches store left hmixed =>
      have hfirst := hnot patch List.mem_cons_self
      rcases hmixed i with h | h
      · exact h
      · rw [h, patch.apply_of_not_covers hfirst]
  | next patch patches store left hcrash ih =>
      have hfirst := hnot patch List.mem_cons_self
      rw [ih fun p hp => hnot p (List.mem_cons_of_mem _ hp),
        patch.apply_of_not_covers hfirst]

/-- A crash in two sequences happens in the first, or in the second behind
the whole first. -/
theorem Crash.append {first second : List (Patch β)} {store left : Nat → β}
    (hcrash : Crash (first ++ second) store left) :
    Crash first store left ∨ Crash second (applyAll first store) left := by
  induction first generalizing store with
  | nil => exact Or.inr hcrash
  | cons patch first ih =>
      cases hcrash with
      | stop => exact Or.inl (.stop _ _)
      | torn _ _ _ _ hmixed => exact Or.inl (.torn _ _ _ _ hmixed)
      | next _ _ _ _ hcrash =>
          rcases ih hcrash with h | h
          · exact Or.inl (.next _ _ _ _ h)
          · exact Or.inr h

end Store
