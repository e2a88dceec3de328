/-
What of the host belongs to a backend and the processes that run for it: the
three entries that are published, the transaction, the loop devices that are
claimed and those that were set up, and the lock.
-/
import QubesUtils.HotplugHost

namespace QubesUtils.NotScript

open Numeral Threads

/-! The paths of the entries. -/

/-- The entries that only the script writes. -/
def Entry.managed : Entry → Bool
  | physicalDevice | physicalDevicePath | diskseq => true
  | _ => false

/-- No backend is another one, or below it. -/
def Separate {ι : Type} (path : ι → List UInt8) : Prop :=
  ∀ i j, i ≠ j → ¬ path i ++ [slash] <+: path j ++ [slash]

theorem Entry.slash_notMem (entry : Entry) : slash ∉ entry.text := by
  cases entry <;> decide

theorem Entry.text_injective {left right : Entry}
    (h : left.text = right.text) : left = right := by
  revert h
  cases left <;> cases right <;> decide

theorem key_injective {xsPath : List UInt8} {left right : Entry}
    (h : key xsPath left = key xsPath right) : left = right := by
  have htail := List.append_cancel_left h
  exact Entry.text_injective (List.cons.inj htail).2

theorem key_eq_iff {xsPath : List UInt8} {left right : Entry} :
    key xsPath left = key xsPath right ↔ left = right :=
  ⟨key_injective, fun h => h ▸ rfl⟩

/-- Below an entry there is no other one. -/
theorem below_key_iff {xsPath : List UInt8} {left right : Entry} :
    Below (key xsPath left) (key xsPath right) ↔ left = right := by
  constructor
  · rintro (heq | hbelow)
    · exact (key_injective heq).symm
    · obtain ⟨rest, hrest⟩ := hbelow
      rw [key, key, List.append_assoc, List.append_assoc] at hrest
      have htail := (List.cons.inj (List.append_cancel_left hrest)).2
      have hslash : slash ∈ right.text := by
        rw [← htail]
        exact List.mem_append_right _ List.mem_cons_self
      exact absurd hslash right.slash_notMem
  · rintro rfl
    exact Or.inl rfl

theorem pathPrefix_key (xsPath : List UInt8) (entry : Entry) :
    xsPath ++ [slash] <+: key xsPath entry :=
  ⟨entry.text, by rw [key, List.append_assoc]; rfl⟩

/-- The entries of two backends have nothing to do with each other. -/
theorem Separate.not_below {ι : Type} {path : ι → List UInt8}
    (h : Separate path) {i j : ι} (hij : i ≠ j) (left right : Entry) :
    ¬ Below (key (path i) left) (key (path j) right) := by
  intro hbelow
  have hleft : path i ++ [slash] <+: key (path j) right := by
    rcases hbelow with heq | hbelow
    · rw [heq]
      exact pathPrefix_key _ _
    · exact (pathPrefix_key _ _).trans
        ((List.prefix_append _ _).trans hbelow)
  rcases List.prefix_or_prefix_of_prefix hleft (pathPrefix_key (path j) right)
    with hprefix | hprefix
  · exact h i j hij hprefix
  · exact h j i hij.symm hprefix

theorem Separate.key_ne {ι : Type} {path : ι → List UInt8}
    (h : Separate path) {i j : ι} (hij : i ≠ j) (left right : Entry) :
    key (path i) left ≠ key (path j) right :=
  fun heq => h.not_below hij left right (Or.inl heq.symm)

theorem XenStore.commit_cons (write : List UInt8 × List UInt8)
    (writes : List (List UInt8 × List UInt8)) (store : XenStore) :
    store.commit (write :: writes) =
      XenStore.commit writes (Function.update store write.1 write.2) :=
  rfl

/-- What a key has after all the writes. -/
theorem XenStore.commit_apply (writes : List (List UInt8 × List UInt8))
    (store : XenStore) (other : List UInt8) :
    store.commit writes other = writes.foldl
      (fun value write => if write.1 = other then some write.2 else value)
      (store other) := by
  induction writes generalizing store with
  | nil => rfl
  | cons write writes ih =>
      rw [XenStore.commit_cons, ih, List.foldl_cons]
      congr 1
      by_cases h : write.1 = other
      · subst h
        rw [Function.update_self, if_pos rfl]
      · rw [Function.update_of_ne (Ne.symm h), if_neg h]

/-! Views. -/

/-- What of the host no other backend changes.  A claimed device is given with
the number of its disk, and a disk that was set up with its device. -/
@[ext] structure View where
  entries : Entry → Option (List UInt8)
  pending : List (List UInt8 × List UInt8)
  claimed : UInt32 → Option UInt64
  owned : UInt64 → Option UInt32
  locked : Bool

/-- An entry is gone. -/
def View.withdraw (v : View) (entry : Entry) : View :=
  { v with entries := Function.update v.entries entry none }

theorem View.withdraw_self (v : View) (entry : Entry) :
    (v.withdraw entry).entries entry = none :=
  Function.update_self _ _ _

theorem View.withdraw_ne (v : View) {entry other : Entry}
    (h : other ≠ entry) :
    (v.withdraw entry).entries other = v.entries other :=
  Function.update_of_ne h _ _

section

variable {ι : Type} [DecidableEq ι]

/-- The device of a disk that a backend has set up. -/
def ownedBy (i : ι) : Option (UInt32 × Option ι) → Option UInt32
  | some (n, owner) => if owner = some i then some n else none
  | none => none

def viewOf (path : ι → List UInt8) (i : ι) (host : Host ι) : View where
  entries entry :=
    if entry.managed then host.store (key (path i) entry) else none
  pending := host.pending i
  claimed n :=
    if host.claims n = some i then (host.loops n).map LoopDevice.diskseq
    else none
  owned diskseq := ownedBy i (host.disks diskseq)
  locked := decide (host.lock = some i)

/-- What holds of the host at all times: the number of a disk is known, a
claimed device is there, and a transaction is about the entries of its own
backend. -/
structure Consistent (path : ι → List UInt8) (host : Host ι) : Prop where
  named : ∀ n device, host.loops n = some device →
    ∃ owner, host.disks device.diskseq = some (n, owner)
  there : ∀ n, host.claims n ≠ none → host.loops n ≠ none
  pendingOwn : ∀ i, ∀ write ∈ host.pending i, ∃ entry : Entry,
    entry.managed = true ∧ write.1 = key (path i) entry

variable {path : ι → List UInt8} {i j : ι} {host after : Host ι}

theorem ownedBy_eq_some {disk : Option (UInt32 × Option ι)} {n : UInt32} :
    ownedBy i disk = some n ↔ disk = some (n, some i) := by
  constructor
  · intro h
    rcases disk with _ | ⟨m, owner⟩
    · cases h
    · rw [ownedBy] at h
      split at h
      · rename_i howner
        rw [howner, Option.some.inj h]
      · cases h
  · rintro rfl
    rw [ownedBy, if_pos rfl]

theorem viewOf_entries {entry : Entry} (h : entry.managed = true) :
    (viewOf path i host).entries entry = host.store (key (path i) entry) :=
  if_pos h

theorem viewOf_claimed_of {n : UInt32} (h : host.claims n = some i) :
    (viewOf path i host).claimed n =
      (host.loops n).map LoopDevice.diskseq :=
  if_pos h

theorem viewOf_claimed_not {n : UInt32} (h : host.claims n ≠ some i) :
    (viewOf path i host).claimed n = none :=
  if_neg h

theorem viewOf_claimed {n : UInt32} {diskseq : UInt64}
    (h : (viewOf path i host).claimed n = some diskseq) :
    host.claims n = some i ∧
      ∃ device, host.loops n = some device ∧ device.diskseq = diskseq := by
  simp only [viewOf] at h
  split at h
  · rename_i hclaim
    exact ⟨hclaim, Option.map_eq_some_iff.mp h⟩
  · cases h

theorem viewOf_owned {n : UInt32} {diskseq : UInt64}
    (h : (viewOf path i host).owned diskseq = some n) :
    host.disks diskseq = some (n, some i) :=
  ownedBy_eq_some.mp h

theorem viewOf_locked (h : (viewOf path i host).locked = true) :
    host.lock = some i :=
  of_decide_eq_true h

end

/-! Calls, as far as a view goes. -/

/-- The entry of a call that changes one is one of the backend's own. -/
def Mine (xsPath : List UInt8) : Call → Prop
  | .xsRm path => ∃ entry : Entry, entry.managed = true ∧
      path = key xsPath entry
  | .xsWrite path _ => ∃ entry : Entry, entry.managed = true ∧
      path = key xsPath entry
  | _ => True

/-- What a call makes of the view of the process that makes it. -/
def Spec (xsPath : List UInt8) :
    (c : Call) → View → Answer c → View → Prop
  | .plain _, v, _, v' => v' = v
  | .xsRead path, v, answer, v' => v' = v ∧
      ∀ value, answer = .ok value → ∀ entry : Entry, entry.managed = true →
        path = key xsPath entry → v.entries entry = some value
  | .xsRm path, v, answer, v' =>
      (answer = none → ∀ entry : Entry, path = key xsPath entry →
        v' = v.withdraw entry) ∧
      (answer ≠ none → v' = v)
  | .xsTransactionStart, v, answer, v' =>
      (answer = none → v' = { v with pending := [] }) ∧
      (answer ≠ none → v' = v)
  | .xsWrite path value, v, answer, v' =>
      (answer = none → v' =
        { v with pending := v.pending ++ [(path, value)] }) ∧
      (answer ≠ none → v' = v)
  | .xsTransactionEnd, v, answer, v' =>
      (answer = none → v' = { v with
        entries := fun entry => if entry.managed then
            v.pending.foldl (fun value write =>
              if write.1 = key xsPath entry then some write.2 else value)
              (v.entries entry)
          else none
        pending := [] }) ∧
      (answer ≠ none → v' = { v with pending := [] })
  | .openPath _ _, v, _, v' => v' = v
  | .fstat fd, v, answer, v' => v' = v ∧
      ∀ stat, answer = .ok stat → stat.Describes fd
  | .readDmName _, v, _, v' => v' = v
  | .flock, v, answer, v' =>
      (answer = none → v' = { v with locked := true }) ∧
      (answer ≠ none → v' = v)
  | .closeLock, v, _, v' => v' = { v with locked := false }
  | .loopCtl _, v, _, v' => v' = v
  | .openLoop _ _, v, answer, v' =>
      (∀ object, answer = .ok object → ∃ claimed,
        v' = { v with claimed } ∧
          ∀ n, object = .block loopMajor n → claimed n ≠ none) ∧
      (∀ errno, answer = .error errno → v' = v)
  | .loopConfigure dev _, v, answer, v' =>
      (answer = none → ∃ n diskseq claimed, dev = .block loopMajor n ∧
        v.owned diskseq = none ∧
        v' = { v with
          claimed, owned := Function.update v.owned diskseq (some n) } ∧
        (v.claimed n ≠ none → claimed n = some diskseq)) ∧
      (answer ≠ none → v' = v)
  | .closeLoop _, v, _, v' => ∃ claimed, v' = { v with claimed }
  | .getDiskseq fd, v, answer, v' => v' = v ∧
      ∀ diskseq, answer = .ok diskseq → ∃ major minor,
        fd = .block major minor ∧ (major = loopMajor →
          ∀ known, v.claimed minor = some known → diskseq = known)
  | .loopClrFd _, v, _, v' => ∃ claimed, v' = { v with claimed }
  | .exit, v, _, v' => v' =
      { v with pending := [], claimed := fun _ => none, locked := false }

end QubesUtils.NotScript
