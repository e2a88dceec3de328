/-
Functions that are changed on some keys, and folds of changes: where every
change keeps to keys of its own, a fold changes each key as the one change
does that the key belongs to.
-/
import Mathlib.Data.List.Nodup

namespace Overlay

variable {κ α β : Type}

/-- The function with one value on some keys. -/
def overlay [DecidableEq κ] (keys : List κ) (b : β) (f : κ → β) (k : κ) : β :=
  if k ∈ keys then b else f k

section

variable [DecidableEq κ] {keys : List κ} {b : β} {f : κ → β} {k : κ}

theorem overlay_of_mem (h : k ∈ keys) : overlay keys b f k = b :=
  if_pos h

theorem overlay_of_not_mem (h : k ∉ keys) : overlay keys b f k = f k :=
  if_neg h

/-- The value at a key depends on the old value there only. -/
theorem overlay_pointwise {g : κ → β} (h : f k = g k) :
    overlay keys b f k = overlay keys b g k := by
  rw [overlay, overlay, h]

theorem overlay_nil : overlay ([] : List κ) b f = f :=
  funext fun _ => if_neg List.not_mem_nil

theorem overlay_overlay (keys keys' : List κ) (b : β) (f : κ → β) :
    overlay keys' b (overlay keys b f) = overlay (keys ++ keys') b f := by
  funext k
  by_cases hkeys' : k ∈ keys'
  · rw [overlay_of_mem hkeys', overlay_of_mem (List.mem_append_right _ hkeys')]
  · rw [overlay_of_not_mem hkeys']
    by_cases hkeys : k ∈ keys
    · rw [overlay_of_mem hkeys, overlay_of_mem (List.mem_append_left _ hkeys)]
    · rw [overlay_of_not_mem hkeys, overlay_of_not_mem]
      rw [List.mem_append]
      exact not_or.mpr ⟨hkeys, hkeys'⟩

theorem overlay_cons (k : κ) (keys : List κ) (b : β) (f : κ → β) :
    overlay (k :: keys) b f = overlay keys b (overlay [k] b f) :=
  (overlay_overlay [k] keys b f).symm

/-- The order of the keys does not matter. -/
theorem overlay_congr {keys' : List κ} (h : ∀ k, k ∈ keys ↔ k ∈ keys') :
    overlay keys b f = overlay keys' b f := by
  funext k
  by_cases hk : k ∈ keys
  · rw [overlay_of_mem hk, overlay_of_mem ((h k).mp hk)]
  · rw [overlay_of_not_mem hk, overlay_of_not_mem fun hk' => hk ((h k).mpr hk')]

end

/-- Changes that keep to keys of their own, and that change a key by its own
value only. -/
structure Local (keysOf : α → List κ) (change : (κ → β) → α → κ → β) :
    Prop where
  outside : ∀ f a k, k ∉ keysOf a → change f a k = f k
  pointwise : ∀ f g a k, f k = g k → change f a k = change g a k

section

variable {keysOf : α → List κ} {change : (κ → β) → α → κ → β}

theorem Local.foldl_outside (h : Local keysOf change) {k : κ} {items : List α}
    (f : κ → β) (hk : k ∉ items.flatMap keysOf) :
    items.foldl change f k = f k := by
  induction items generalizing f with
  | nil => rfl
  | cons a rest ih =>
      rw [List.flatMap_cons, List.mem_append, not_or] at hk
      rw [List.foldl_cons, ih _ hk.2]
      exact h.outside f a k hk.1

theorem Local.foldl_pointwise (h : Local keysOf change) {k : κ}
    (items : List α) {f g : κ → β} (hk : f k = g k) :
    items.foldl change f k = items.foldl change g k := by
  induction items generalizing f g with
  | nil => exact hk
  | cons a rest ih =>
      rw [List.foldl_cons, List.foldl_cons]
      apply ih
      exact h.pointwise f g a k hk

/-- A key is changed once. -/
theorem Local.foldl_inside (h : Local keysOf change) {k : κ} {a : α}
    {items : List α} (f : κ → β) (hnodup : (items.flatMap keysOf).Nodup)
    (ha : a ∈ items) (hk : k ∈ keysOf a) :
    items.foldl change f k = change f a k := by
  induction items generalizing f with
  | nil => exact absurd ha List.not_mem_nil
  | cons head rest ih =>
      rw [List.flatMap_cons, List.nodup_append] at hnodup
      obtain ⟨_, hrest, hdisjoint⟩ := hnodup
      rw [List.foldl_cons]
      rcases List.mem_cons.mp ha with rfl | ha
      · apply h.foldl_outside
        exact fun hk' => hdisjoint k hk k hk' rfl
      · rw [ih _ hrest ha]
        apply h.pointwise
        apply h.outside
        intro hhead
        exact hdisjoint k hhead k (List.mem_flatMap.mpr ⟨a, ha, hk⟩) rfl

end

end Overlay
