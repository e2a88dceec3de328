/-
Crashes of a device with sectors: what is being written when it stops is there
in some sectors and missing in the others.
-/
import QubesUtils.Store

namespace Store

universe u

variable {β : Type u}

def InSector (size s i : Nat) : Prop :=
  s * size ≤ i ∧ i < (s + 1) * size

theorem inSector_div {size : Nat} (hsize : 0 < size) (i : Nat) :
    InSector size (i / size) i := by
  refine ⟨Nat.div_mul_le_self i size, ?_⟩
  rw [Nat.add_mul, Nat.one_mul]
  exact Nat.lt_div_mul_add hsize

/-- The stores that can be left when the patches are cut off: in each sector
so many have been applied, or one more. -/
def Torn (size : Nat) (patches : List (Patch β)) (store left : Nat → β) :
    Prop :=
  ∃ n, ∀ s,
    (∀ i, InSector size s i → left i = applyAll (patches.take n) store i) ∨
    ∀ i, InSector size s i → left i = applyAll (patches.take (n + 1)) store i

variable {size : Nat} {patches first second : List (Patch β)}
  {store left : Nat → β}

theorem Torn.whole (size : Nat) (patches : List (Patch β))
    (store : Nat → β) : Torn size patches store (applyAll patches store) := by
  refine ⟨patches.length, fun s => Or.inl fun i _ => ?_⟩
  rw [List.take_length]

/-- Each place has what some of the patches leave there. -/
theorem Torn.place (hsize : 0 < size) (h : Torn size patches store left)
    (i : Nat) : ∃ n, left i = applyAll (patches.take n) store i := by
  obtain ⟨n, hn⟩ := h
  rcases hn (i / size) with hleft | hleft
  · exact ⟨n, hleft i (inSector_div hsize i)⟩
  · exact ⟨n + 1, hleft i (inSector_div hsize i)⟩

theorem Torn.of_not_covers (hsize : 0 < size)
    (h : Torn size patches store left) {i : Nat}
    (hnot : ∀ patch ∈ patches, ¬ patch.Covers i) : left i = store i := by
  obtain ⟨n, hn⟩ := h.place hsize i
  rw [hn, applyAll_of_not_covers]
  exact fun patch hpatch => hnot patch (List.mem_of_mem_take hpatch)

theorem Torn.nil (hsize : 0 < size) (h : Torn size [] store left) :
    left = store := by
  funext i
  apply h.of_not_covers hsize
  intro patch hpatch
  cases hpatch

/-- Two sequences are cut off in the first, or in the second when the first is
complete. -/
theorem Torn.append (h : Torn size (first ++ second) store left) :
    Torn size first store left ∨
      Torn size second (applyAll first store) left := by
  obtain ⟨n, hn⟩ := h
  by_cases hlength : n < first.length
  · refine Or.inl ⟨n, fun s => ?_⟩
    have hall := hn s
    rw [List.take_append_of_le_length (Nat.le_of_lt hlength),
      List.take_append_of_le_length hlength] at hall
    exact hall
  · have hle := Nat.le_of_not_lt hlength
    have htake : first.take n = first := List.take_of_length_le hle
    have hnext : first.take (n + 1) = first :=
      List.take_of_length_le (Nat.le_succ_of_le hle)
    refine Or.inr ⟨n - first.length, fun s => ?_⟩
    have hall := hn s
    rw [List.take_append, List.take_append, htake, hnext, applyAll_append,
      applyAll_append, Nat.sub_add_comm hle] at hall
    exact hall

/-- A patch of one sector is there or missing. -/
theorem Torn.concat (hsize : 0 < size) {last : Patch β} {s : Nat}
    (hoffset : last.offset = s * size) (hlength : last.data.length = size)
    (h : Torn size (patches ++ [last]) store left) :
    left = applyAll (patches ++ [last]) store ∨
      Torn size patches store left := by
  rcases h.append with hfirst | ⟨n, hn⟩
  · exact Or.inr hfirst
  -- The last patch has reached its own sector, or no sector at all.
  have hmissing : applyAll (List.take n [last]) (applyAll patches store) =
        applyAll patches store ∨
      applyAll (List.take n [last]) (applyAll patches store) =
        applyAll (patches ++ [last]) store := by
    cases n with
    | zero => exact Or.inl rfl
    | succ n =>
        rw [List.take_succ_cons, List.take_nil, applyAll_append]
        exact Or.inr rfl
  have hnext : applyAll (List.take (n + 1) [last]) (applyAll patches store) =
      applyAll (patches ++ [last]) store := by
    rw [List.take_succ_cons, List.take_nil, applyAll_append]
  have hother : ∀ i, ¬ InSector size s i →
      applyAll (patches ++ [last]) store i = applyAll patches store i := by
    intro i hi
    apply applyAll_append_of_not_covers
    intro patch hpatch hcovers
    rw [List.mem_singleton.mp hpatch] at hcovers
    apply hi
    rw [Patch.Covers, hoffset, hlength] at hcovers
    refine ⟨hcovers.1, ?_⟩
    rw [Nat.add_mul, Nat.one_mul]
    exact hcovers.2
  rw [hnext] at hn
  rcases hmissing with hmissing | hmissing
  · rw [hmissing] at hn
    have heither : ∀ i, left i = applyAll patches store i ∨
        left i = applyAll (patches ++ [last]) store i := by
      intro i
      rcases hn (i / size) with hleft | hleft
      · exact Or.inl (hleft i (inSector_div hsize i))
      · exact Or.inr (hleft i (inSector_div hsize i))
    rcases hn s with hleft | hleft
    · have hall : left = applyAll patches store := by
        funext i
        by_cases hi : InSector size s i
        · exact hleft i hi
        · rcases heither i with heq | heq
          · exact heq
          · exact heq.trans (hother i hi)
      exact Or.inr (hall ▸ Torn.whole size patches store)
    · refine Or.inl (funext fun i => ?_)
      by_cases hi : InSector size s i
      · exact hleft i hi
      · rcases heither i with heq | heq
        · exact heq.trans (hother i hi).symm
        · exact heq
  · rw [hmissing] at hn
    refine Or.inl (funext fun i => ?_)
    rcases hn (i / size) with hleft | hleft
    · exact hleft i (inSector_div hsize i)
    · exact hleft i (inSector_div hsize i)

/-- The patch fills the sector with a value. -/
def Patch.Fills (size s : Nat) (value : β) (patch : Patch β) : Prop :=
  ∀ (store : Nat → β) i, InSector size s i → patch.apply store i = value

/-- A sector that is only filled with a value is as it was, or filled. -/
theorem applyAll_sector {s : Nat} {value : β}
    (hpatches : ∀ patch ∈ patches,
      (∀ i, InSector size s i → ¬ patch.Covers i) ∨
        patch.Fills size s value) :
    (∀ i, InSector size s i → applyAll patches store i = store i) ∨
      ∀ i, InSector size s i → applyAll patches store i = value := by
  induction patches generalizing store with
  | nil => exact Or.inl fun i _ => rfl
  | cons patch patches ih =>
      have hrest := @ih (patch.apply store)
        fun other hother => hpatches other (List.mem_cons_of_mem _ hother)
      rcases hrest with hsame | hvalue
      · rcases hpatches patch List.mem_cons_self with hclear | hfills
        · exact Or.inl fun i hi => (hsame i hi).trans
            (patch.apply_of_not_covers (hclear i hi) store)
        · exact Or.inr fun i hi => (hsame i hi).trans (hfills store i hi)
      · exact Or.inr hvalue

theorem Torn.sector {s : Nat} {value : β}
    (h : Torn size patches store left)
    (hpatches : ∀ patch ∈ patches,
      (∀ i, InSector size s i → ¬ patch.Covers i) ∨
        patch.Fills size s value) :
    (∀ i, InSector size s i → left i = store i) ∨
      ∀ i, InSector size s i → left i = value := by
  obtain ⟨n, hn⟩ := h
  have hall : ∀ m, (∀ i, InSector size s i →
        applyAll (patches.take m) store i = store i) ∨
      ∀ i, InSector size s i →
        applyAll (patches.take m) store i = value :=
    fun m => applyAll_sector fun patch hpatch =>
      hpatches patch (List.mem_of_mem_take hpatch)
  have hpick : ∀ m, (∀ i, InSector size s i →
      left i = applyAll (patches.take m) store i) →
      (∀ i, InSector size s i → left i = store i) ∨
        ∀ i, InSector size s i → left i = value := by
    intro m hleft
    rcases hall m with hsame | hvalue
    · exact Or.inl fun i hi => (hleft i hi).trans (hsame i hi)
    · exact Or.inr fun i hi => (hleft i hi).trans (hvalue i hi)
  rcases hn s with hleft | hleft
  · exact hpick n hleft
  · exact hpick (n + 1) hleft

end Store
