/-
Runs of `parse`: what is handed to the memory manager, and what the static
variables remember of it.  The block for the swap never remembers anything.
-/
import Mathlib.Algebra.Order.Group.Int
import QubesUtils.Meminfo

namespace QubesUtils.Meminfo

/-! Runs. -/

/-- One call: the static variables behind it, and what has been handed out. -/
def call (threshold : Int) (run : Writer × List UsedMem) (reading : Reading) :
    Writer × List UsedMem :=
  ((publish threshold reading run.1).1,
    run.2 ++ [(publish threshold reading run.1).2])

/-- The calls for some readings, from the start of the process. -/
def calls (threshold : Int) (readings : List Reading) :
    Writer × List UsedMem :=
  readings.foldl (call threshold) (⟨0, 0⟩, [])

/-- The last value of some, or 0. -/
def lastValue (values : List (Option Int)) : Int :=
  values.foldl (fun last value => value.getD last) 0

def handedMem (threshold : Int) (readings : List Reading) : Int :=
  lastValue ((calls threshold readings).2.map UsedMem.mem)

def handedSwap (threshold : Int) (readings : List Reading) : Int :=
  lastValue ((calls threshold readings).2.map UsedMem.swap)

/-- The memory is nearly full, and less of it is free than before. -/
def NearFull (threshold : Int) (reading : Reading) (last : Int) : Prop :=
  last < reading.usedMem ∧ threshold < 2 * (reading.usedMem - last) ∧
    (wrap (reading.memTotal + 12)).tdiv 13 < reading.usedMem / 10

instance (threshold : Int) (reading : Reading) (last : Int) :
    Decidable (NearFull threshold reading last) :=
  inferInstanceAs (Decidable (_ ∧ _ ∧ _))

/-- A value is worth to be handed out. -/
def Due (threshold used last : Int) : Prop :=
  threshold < |used - last| ∨ last = 0

instance (threshold used last : Int) : Decidable (Due threshold used last) :=
  inferInstanceAs (Decidable (_ ∨ _))

/-- What a call should do behind some others. -/
structure Hysteresis (threshold : Int) (before : List Reading)
    (reading : Reading) : Prop where
  prevMem : (calls threshold (before ++ [reading])).1.prevUsedMem =
    handedMem threshold (before ++ [reading])
  prevSwap : (calls threshold (before ++ [reading])).1.prevUsedSwap =
    handedSwap threshold (before ++ [reading])
  mem : (publish threshold reading (calls threshold before).1).2.mem =
    if Due threshold reading.usedMem (handedMem threshold before) ∨
        NearFull threshold reading (handedMem threshold before)
      then some reading.usedMem else none
  swap : (publish threshold reading (calls threshold before).1).2.swap =
    if Due threshold reading.usedSwap (handedSwap threshold before)
      then some reading.usedSwap else none
  closeMem :
    |reading.usedMem - handedMem threshold (before ++ [reading])| ≤ threshold
  closeSwap :
    |reading.usedSwap - handedSwap threshold (before ++ [reading])| ≤ threshold
  again : reading.usedMem ≠ 0 → reading.usedSwap ≠ 0 →
    (publish threshold reading (calls threshold (before ++ [reading])).1).2 =
      ⟨none, none⟩

theorem calls_concat (threshold : Int) (before : List Reading)
    (reading : Reading) :
    calls threshold (before ++ [reading]) =
      call threshold (calls threshold before) reading :=
  List.foldl_concat _ _ _ _

theorem lastValue_concat (values : List (Option Int)) (value : Option Int) :
    lastValue (values ++ [value]) = value.getD (lastValue values) :=
  List.foldl_concat _ _ _ _

theorem handedMem_concat (threshold : Int) (before : List Reading)
    (reading : Reading) :
    handedMem threshold (before ++ [reading]) =
      (publish threshold reading (calls threshold before).1).2.mem.getD
        (handedMem threshold before) := by
  rw [handedMem, calls_concat, call, List.map_append, List.map_singleton,
    lastValue_concat, handedMem]

theorem handedSwap_concat (threshold : Int) (before : List Reading)
    (reading : Reading) :
    handedSwap threshold (before ++ [reading]) =
      (publish threshold reading (calls threshold before).1).2.swap.getD
        (handedSwap threshold before) := by
  rw [handedSwap, calls_concat, call, List.map_append, List.map_singleton,
    lastValue_concat, handedSwap]

/-! Numbers. -/

theorem wrap_bounds (n : Int) : -2 ^ 63 ≤ wrap n ∧ wrap n < 2 ^ 63 := by
  rw [wrap]
  omega

theorem wrap_of_bounds {n : Int} (hlow : -2 ^ 63 ≤ n) (hhigh : n < 2 ^ 63) :
    wrap n = n := by
  rw [wrap]
  omega

theorem absDiff_eq {used prev : Int} (hused : 0 ≤ used ∧ used < 2 ^ 63)
    (hprev : 0 ≤ prev ∧ prev < 2 ^ 63) : absDiff used prev = |used - prev| := by
  have hdiff : wrap (used - prev) = used - prev :=
    wrap_of_bounds (by omega) (by omega)
  rw [absDiff, hdiff]
  split
  · rename_i hneg
    rw [wrap_of_bounds (by omega) (by omega), abs_of_neg hneg]
  · rename_i hpos
    rw [abs_of_nonneg (not_lt.mp hpos)]

/-! The memory. -/

section

variable {threshold : Int} {reading : Reading} {w : Writer}

theorem Reading.usedMem_bounds (h : 0 ≤ reading.usedMem) :
    0 ≤ reading.usedMem ∧ reading.usedMem < 2 ^ 63 :=
  ⟨h, (wrap_bounds _).2⟩

theorem publishMem_eq (hthreshold : 0 < threshold)
    (hused : 0 ≤ reading.usedMem)
    (hprev : 0 ≤ w.prevUsedMem ∧ w.prevUsedMem < 2 ^ 63) :
    publishMem threshold reading w =
      if Due threshold reading.usedMem w.prevUsedMem ∨
          NearFull threshold reading w.prevUsedMem
        then ({ w with prevUsedMem := reading.usedMem }, some reading.usedMem)
        else (w, none) := by
  have hdiff := absDiff_eq (Reading.usedMem_bounds hused) hprev
  have hiff : (reading.usedMem ≥ 0 ∧
      (absDiff reading.usedMem w.prevUsedMem > threshold ∨
        w.prevUsedMem = 0 ∨ (reading.usedMem > w.prevUsedMem ∧
          reading.usedMem.tdiv 10 >
            (wrap (reading.memTotal + 12)).tdiv 13 ∧
          absDiff reading.usedMem w.prevUsedMem > threshold.tdiv 2))) ↔
      (Due threshold reading.usedMem w.prevUsedMem ∨
        NearFull threshold reading w.prevUsedMem) := by
    rw [hdiff, Int.tdiv_eq_ediv_of_nonneg hused,
      Int.tdiv_eq_ediv_of_nonneg (Int.le_of_lt hthreshold), Due, NearFull,
      or_assoc]
    constructor
    · rintro ⟨_, hlarge | hzero | ⟨hmore, hfull, hhalf⟩⟩
      · exact Or.inl hlarge
      · exact Or.inr (Or.inl hzero)
      · rw [abs_of_pos (Int.sub_pos.mpr hmore)] at hhalf
        exact Or.inr (Or.inr ⟨hmore, by omega, hfull⟩)
    · rintro (hlarge | hzero | ⟨hmore, hhalf, hfull⟩)
      · exact ⟨hused, Or.inl hlarge⟩
      · exact ⟨hused, Or.inr (Or.inl hzero)⟩
      · rw [abs_of_pos (Int.sub_pos.mpr hmore)]
        exact ⟨hused, Or.inr (Or.inr ⟨hmore, hfull, by omega⟩)⟩
  rw [publishMem]
  by_cases hdue : Due threshold reading.usedMem w.prevUsedMem ∨
      NearFull threshold reading w.prevUsedMem
  · exact (if_pos (hiff.mpr hdue)).trans (if_pos hdue).symm
  · exact (if_neg (mt hiff.mp hdue)).trans (if_neg hdue).symm

theorem publishMem_swap : (publishMem threshold reading w).1.prevUsedSwap =
    w.prevUsedSwap := by
  rw [publishMem]
  split
  · rfl
  · rfl

end

section

variable {threshold : Int} {readings before : List Reading} {reading : Reading}

/-- What is remembered of the memory is what was handed out. -/
theorem calls_mem (hthreshold : 0 < threshold)
    (hused : ∀ reading ∈ readings, 0 ≤ reading.usedMem) :
    (calls threshold readings).1.prevUsedMem = handedMem threshold readings ∧
      0 ≤ handedMem threshold readings ∧
      handedMem threshold readings < 2 ^ 63 := by
  induction readings using List.reverseRecOn with
  | nil =>
      have hnone : handedMem threshold [] = 0 := rfl
      rw [hnone]
      exact ⟨rfl, by decide, by decide⟩
  | append_singleton before reading ih =>
      have hreading := hused reading (by simp)
      obtain ⟨hprev, hbounds⟩ :=
        ih fun reading h => hused reading (List.mem_append_left _ h)
      rw [handedMem_concat, calls_concat, call, publish,
        publishMem_eq hthreshold hreading (by rw [hprev]; exact hbounds)]
      split
      · exact ⟨rfl, Reading.usedMem_bounds hreading⟩
      · exact ⟨hprev, hbounds⟩

theorem publish_mem (hthreshold : 0 < threshold)
    (hbefore : ∀ reading ∈ before, 0 ≤ reading.usedMem)
    (hreading : 0 ≤ reading.usedMem) :
    (publish threshold reading (calls threshold before).1).2.mem =
      if Due threshold reading.usedMem (handedMem threshold before) ∨
          NearFull threshold reading (handedMem threshold before)
        then some reading.usedMem else none := by
  obtain ⟨hprev, hbounds⟩ := calls_mem hthreshold hbefore
  rw [publish, publishMem_eq hthreshold hreading (by rw [hprev]; exact hbounds),
    hprev]
  split
  · rfl
  · rfl

/-- The memory that is used is close to what was handed out. -/
theorem close_mem (hthreshold : 0 < threshold)
    (hbefore : ∀ reading ∈ before, 0 ≤ reading.usedMem)
    (hreading : 0 ≤ reading.usedMem) :
    |reading.usedMem - handedMem threshold (before ++ [reading])| ≤
      threshold := by
  rw [handedMem_concat, publish_mem hthreshold hbefore hreading]
  split
  · rw [Option.getD_some, Int.sub_self, abs_zero]
    exact Int.le_of_lt hthreshold
  · rename_i hdue
    rw [Due, not_or, not_or] at hdue
    exact not_lt.mp hdue.1.1

/-! The swap. -/

/-- Nothing is remembered of the swap. -/
theorem calls_swap (threshold : Int) (readings : List Reading) :
    (calls threshold readings).1.prevUsedSwap = 0 := by
  induction readings using List.reverseRecOn with
  | nil => rfl
  | append_singleton before reading ih =>
      rw [calls_concat, call, publish]
      exact publishMem_swap.trans ih

/-- The swap is handed out each time. -/
theorem publish_swap (hreading : 0 ≤ reading.usedSwap) (before : List Reading) :
    (publish threshold reading (calls threshold before).1).2.swap =
      some reading.usedSwap := by
  rw [publish, publishSwap]
  apply if_pos
  refine ⟨hreading, Or.inr ?_⟩
  exact publishMem_swap.trans (calls_swap threshold before)

theorem handedSwap_zero (hzero : ∀ reading ∈ readings, reading.usedSwap = 0) :
    handedSwap threshold readings = 0 := by
  induction readings using List.reverseRecOn with
  | nil => rfl
  | append_singleton before reading _ =>
      have hreading := hzero reading (by simp)
      rw [handedSwap_concat, publish_swap (by omega), hreading]
      rfl

theorem hysteresis_of_zero (hthreshold : 0 < threshold)
    (hbefore : ∀ reading ∈ before, 0 ≤ reading.usedMem)
    (hreading : 0 ≤ reading.usedMem)
    (hzero : ∀ other ∈ before ++ [reading], other.usedSwap = 0) :
    Hysteresis threshold before reading := by
  have hswap : reading.usedSwap = 0 := hzero reading (by simp)
  have hlast : handedSwap threshold before = 0 :=
    handedSwap_zero fun other h => hzero other (List.mem_append_left _ h)
  have hall : ∀ other ∈ before ++ [reading], 0 ≤ other.usedMem := by
    intro other hother
    rcases List.mem_append.mp hother with hother | hother
    · exact hbefore other hother
    · rw [List.mem_singleton.mp hother]
      exact hreading
  refine ⟨(calls_mem hthreshold hall).1, ?_,
    publish_mem hthreshold hbefore hreading, ?_,
    close_mem hthreshold hbefore hreading, ?_,
    fun _ hne => absurd hswap hne⟩
  · rw [calls_swap, handedSwap_zero hzero]
  · rw [publish_swap (by omega), hlast]
    have hdue : Due threshold reading.usedSwap 0 := Or.inr rfl
    rw [if_pos hdue]
  · rw [handedSwap_zero hzero, hswap, Int.sub_self, abs_zero]
    exact Int.le_of_lt hthreshold

end

/-- Every call does what it should if and only if there is never any swap in
use. -/
theorem calls_hysteresis_iff {threshold : Int} {readings : List Reading}
    (hthreshold : 0 < threshold)
    (hused : ∀ reading ∈ readings,
      0 ≤ reading.usedMem ∧ 0 ≤ reading.usedSwap) :
    (∀ before reading, before ++ [reading] <+: readings →
        Hysteresis threshold before reading) ↔
      ∀ reading ∈ readings, reading.usedSwap = 0 := by
  constructor
  · intro h reading hmem
    obtain ⟨before, after, rfl⟩ := List.append_of_mem hmem
    have hcall := h before reading ⟨after, by simp⟩
    have hprev := hcall.prevSwap
    rw [calls_swap, handedSwap_concat, publish_swap (hused reading hmem).2]
      at hprev
    exact hprev.symm
  · intro hzero before reading hbegins
    have hmem : ∀ other ∈ before ++ [reading], other ∈ readings :=
      fun other hother => hbegins.subset hother
    apply hysteresis_of_zero hthreshold
    · exact fun other hother =>
        (hused other (hmem other (List.mem_append_left _ hother))).1
    · exact (hused reading (hmem reading (by simp))).1
    · exact fun other hother => hzero other (hmem other hother)

/-- No swap at first; then more memory is in use. -/
def swapless : List Reading :=
  [⟨1000, 400, 0, 0, 0, 0⟩, ⟨1000, 395, 0, 0, 0, 0⟩, ⟨1000, 100, 0, 0, 0, 0⟩]

theorem calls_hysteresis_swapless :
    Hysteresis 10 [⟨1000, 400, 0, 0, 0, 0⟩, ⟨1000, 395, 0, 0, 0, 0⟩]
      ⟨1000, 100, 0, 0, 0, 0⟩ :=
  (calls_hysteresis_iff (by decide) (by decide)).mpr
    (by decide : ∀ reading ∈ swapless, _) _ _ List.prefix_rfl

/-- Half of the swap is in use. -/
def swapping : Reading := ⟨1000, 400, 0, 0, 100, 50⟩

/-- The same swap is handed out again. -/
theorem calls_forget_swap :
    0 ≤ swapping.usedMem ∧ 0 ≤ swapping.usedSwap ∧
      (publish 10 swapping (calls 10 [swapping]).1).2 = ⟨none, some 50⟩ ∧
      ¬ Hysteresis 10 [] swapping := by
  refine ⟨by decide, by decide, by decide, fun h => ?_⟩
  exact absurd h.prevSwap (by decide)

end QubesUtils.Meminfo
