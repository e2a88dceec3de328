/-
A call of a process leaves the views of all other backends alone, and does to
its own view what it is said to do.
-/
import QubesUtils.HotplugViews

namespace QubesUtils.NotScript

open Numeral Threads

section

variable {ι : Type} [DecidableEq ι] {path : ι → List UInt8} {i j : ι}
  {host : Host ι}

/-! The store. -/

theorem viewOf_store {store : XenStore}
    (h : ∀ entry : Entry, entry.managed = true →
      store (key (path j) entry) = host.store (key (path j) entry)) :
    viewOf path j { host with store } = viewOf path j host := by
  ext1
  · funext entry
    simp only [viewOf]
    split
    · rename_i hmanaged
      exact h entry hmanaged
    · rfl
  all_goals rfl

theorem viewOf_remove (hseparate : Separate path) (hij : i ≠ j)
    (entry : Entry) :
    viewOf path j
        { host with store := host.store.remove (key (path i) entry) } =
      viewOf path j host :=
  viewOf_store fun _ _ => if_neg (hseparate.not_below hij _ _)

theorem viewOf_remove_self (entry : Entry) :
    viewOf path i
        { host with store := host.store.remove (key (path i) entry) } =
      (viewOf path i host).withdraw entry := by
  ext1
  · funext other
    by_cases heq : other = entry
    · subst heq
      rw [View.withdraw_self]
      simp [viewOf, XenStore.remove, below_key_iff]
    · rw [View.withdraw_ne _ heq]
      simp only [viewOf, XenStore.remove, below_key_iff]
      rw [if_neg (Ne.symm heq)]
  all_goals rfl

omit [DecidableEq ι] in
/-- A transaction of one backend leaves the entries of the others alone. -/
theorem commit_foreign (hseparate : Separate path) (hij : i ≠ j)
    (entry : Entry) (writes : List (List UInt8 × List UInt8))
    (hown : ∀ write ∈ writes, ∃ own : Entry, own.managed = true ∧
      write.1 = key (path i) own) (store : XenStore) :
    store.commit writes (key (path j) entry) =
      store (key (path j) entry) := by
  induction writes generalizing store with
  | nil => rfl
  | cons write writes ih =>
      obtain ⟨own, _, hkey⟩ := hown write List.mem_cons_self
      have hrest := ih (fun other h => hown other (List.mem_cons_of_mem _ h))
      rw [XenStore.commit_cons, hrest, hkey]
      apply Function.update_of_ne
      exact (hseparate.key_ne hij own entry).symm

/-! The transaction. -/

theorem viewOf_pending (hij : j ≠ i)
    (writes : List (List UInt8 × List UInt8)) :
    viewOf path j { host with
      pending := Function.update host.pending i writes } =
        viewOf path j host := by
  ext1
  case pending => exact Function.update_of_ne hij _ _
  all_goals rfl

theorem viewOf_pending_self (writes : List (List UInt8 × List UInt8)) :
    viewOf path i { host with
      pending := Function.update host.pending i writes } =
        { viewOf path i host with pending := writes } := by
  ext1
  case pending => exact Function.update_self _ _ _
  all_goals rfl

theorem Consistent.pending (h : Consistent path host)
    {writes : List (List UInt8 × List UInt8)}
    (hwrites : ∀ write ∈ writes, ∃ entry : Entry, entry.managed = true ∧
      write.1 = key (path i) entry) :
    Consistent path { host with
      pending := Function.update host.pending i writes } where
  named := h.named
  there := h.there
  pendingOwn := fun k => by
    by_cases hk : k = i
    · subst hk
      simpa only [Function.update_self] using hwrites
    · simpa only [Function.update_of_ne hk] using h.pendingOwn k

omit [DecidableEq ι] in
theorem Consistent.store (h : Consistent path host) (store : XenStore) :
    Consistent path { host with store } :=
  ⟨h.named, h.there, h.pendingOwn⟩

/-! Loop devices that are opened and closed. -/

theorem viewOf_claims {claims : UInt32 → Option ι}
    (h : ∀ n, claims n = some j ↔ host.claims n = some j) :
    viewOf path j { host with claims } = viewOf path j host := by
  ext1
  case claimed =>
    funext n
    simp only [viewOf]
    by_cases hclaim : host.claims n = some j
    · rw [if_pos hclaim, if_pos ((h n).mpr hclaim)]
    · rw [if_neg hclaim, if_neg fun h' => hclaim ((h n).mp h')]
  all_goals rfl

theorem viewOf_claim (hij : j ≠ i) {object : Object}
    (hfree : host.Unclaimed object) :
    viewOf path j (host.claim i object) = viewOf path j host := by
  apply viewOf_claims
  intro n
  by_cases h : object = .block loopMajor n
  · rw [if_pos h, hfree n h]
    exact ⟨fun h' => absurd (Option.some.inj h').symm hij, by simp⟩
  · rw [if_neg h]

theorem viewOf_release (hij : j ≠ i) (object : Object) :
    viewOf path j (host.release i object) = viewOf path j host := by
  apply viewOf_claims
  intro n
  by_cases h : object = .block loopMajor n ∧ host.claims n = some i
  · rw [if_pos h, h.2]
    exact ⟨by simp, fun h' => absurd (Option.some.inj h').symm hij⟩
  · rw [if_neg h]

omit [DecidableEq ι] in
theorem Consistent.claim (h : Consistent path host) {object : Object}
    (hthere : host.There object) : Consistent path (host.claim i object) where
  named := h.named
  there := fun n hclaim => by
    by_cases hobject : object = .block loopMajor n
    · exact hthere n hobject
    · exact h.there n (by simpa only [Host.claim, if_neg hobject] using hclaim)
  pendingOwn := h.pendingOwn

omit [DecidableEq ι] in
theorem Consistent.claims (h : Consistent path host)
    {claims : UInt32 → Option ι}
    (hless : ∀ n, claims n ≠ none → host.claims n ≠ none) :
    Consistent path { host with claims } :=
  ⟨h.named, fun n hn => h.there n (hless n hn), h.pendingOwn⟩

/-! Loop devices that are set up. -/

/-- The disks of a backend are still those that it has set up. -/
theorem owned_renew {n : UInt32} {device : LoopDevice} {owner : Option ι}
    (hunused : host.Unused device.diskseq) (howner : owner ≠ some j) :
    (viewOf path j (host.renew n device owner)).owned =
      (viewOf path j host).owned := by
  funext diskseq
  simp only [viewOf, Host.renew]
  by_cases hdisk : diskseq = device.diskseq
  · subst hdisk
    rw [Function.update_self, hunused, ownedBy, if_neg howner]
    rfl
  · rw [Function.update_of_ne hdisk]

theorem viewOf_renew {n : UInt32} {device : LoopDevice} {owner : Option ι}
    (hunused : host.Unused device.diskseq) (hclaims : host.claims n ≠ some j)
    (howner : owner ≠ some j) :
    viewOf path j (host.renew n device owner) = viewOf path j host := by
  ext1
  case claimed =>
    funext m
    by_cases hclaim : host.claims m = some j
    · have hm : m ≠ n := fun heq => hclaims (heq ▸ hclaim)
      rw [viewOf_claimed_of hclaim,
        viewOf_claimed_of
          (show (host.renew n device owner).claims m = some j from hclaim)]
      simp only [Host.renew, Function.update_of_ne hm]
    · rw [viewOf_claimed_not hclaim,
        viewOf_claimed_not
          (show (host.renew n device owner).claims m ≠ some j from hclaim)]
  case owned => exact owned_renew hunused howner
  all_goals rfl

/-- A device that the process sets up itself. -/
theorem viewOf_renew_self {n : UInt32} {device : LoopDevice}
    (hunused : host.Unused device.diskseq) :
    ∃ claimed, (viewOf path i host).owned device.diskseq = none ∧
      viewOf path i (host.renew n device (some i)) =
        { viewOf path i host with
          claimed
          owned := Function.update (viewOf path i host).owned device.diskseq
            (some n) } ∧
      ((viewOf path i host).claimed n ≠ none →
        claimed n = some device.diskseq) := by
  refine ⟨(viewOf path i (host.renew n device (some i))).claimed, ?_, ?_, ?_⟩
  · simp only [viewOf]
    rw [hunused]
    rfl
  · ext1
    case owned =>
      funext diskseq
      simp only [viewOf, Host.renew]
      by_cases hdisk : diskseq = device.diskseq
      · subst hdisk
        rw [Function.update_self, Function.update_self, ownedBy, if_pos rfl]
      · rw [Function.update_of_ne hdisk, Function.update_of_ne hdisk]
    all_goals rfl
  · intro hclaimed
    have hclaim : host.claims n = some i := by
      by_contra hne
      exact hclaimed (viewOf_claimed_not hne)
    rw [viewOf_claimed_of
      (show (host.renew n device (some i)).claims n = some i from hclaim)]
    simp [Host.renew]

omit [DecidableEq ι] in
theorem Consistent.renew (h : Consistent path host) {n : UInt32}
    {device : LoopDevice} {owner : Option ι}
    (hunused : host.Unused device.diskseq) :
    Consistent path (host.renew n device owner) where
  named := fun m other hloop => by
    simp only [Host.renew] at hloop ⊢
    by_cases hm : m = n
    · subst hm
      rw [Function.update_self] at hloop
      rw [← Option.some.inj hloop, Function.update_self]
      exact ⟨owner, rfl⟩
    · rw [Function.update_of_ne hm] at hloop
      obtain ⟨named, hnamed⟩ := h.named m other hloop
      have hne : other.diskseq ≠ device.diskseq := by
        intro heq
        rw [heq, hunused] at hnamed
        cases hnamed
      rw [Function.update_of_ne hne]
      exact ⟨named, hnamed⟩
  there := fun m hclaim => by
    simp only [Host.renew]
    by_cases hm : m = n
    · subst hm
      rw [Function.update_self]
      exact Option.some_ne_none _
    · rw [Function.update_of_ne hm]
      exact h.there m hclaim
  pendingOwn := h.pendingOwn

/-- Nobody sees that a device is cleared which nobody claims. -/
theorem viewOf_cleared {n : UInt32} {after : Host ι}
    (h : host.Cleared n after) : viewOf path j after = viewOf path j host := by
  obtain ⟨_, hclaims, diskseq, hunused, rfl⟩ := h
  exact viewOf_renew hunused (by simp [hclaims]) (Option.some_ne_none j).symm

omit [DecidableEq ι] in
theorem Consistent.cleared (h : Consistent path host) {n : UInt32}
    {after : Host ι} (hcleared : host.Cleared n after) :
    Consistent path after := by
  obtain ⟨_, _, diskseq, hunused, rfl⟩ := hcleared
  exact h.renew hunused

/-- A flag of a device is not looked at. -/
theorem viewOf_sameDisk {n : UInt32} {device device' : LoopDevice}
    (hloop : host.loops n = some device)
    (hsame : device'.diskseq = device.diskseq) :
    viewOf path j { host with
      loops := Function.update host.loops n (some device') } =
        viewOf path j host := by
  ext1
  case claimed =>
    funext m
    simp only [viewOf]
    by_cases hm : m = n
    · subst hm
      rw [Function.update_self, hloop, Option.map_some, Option.map_some,
        hsame]
    · rw [Function.update_of_ne hm]
  all_goals rfl

omit [DecidableEq ι] in
theorem Consistent.sameDisk (h : Consistent path host) {n : UInt32}
    {device device' : LoopDevice} (hloop : host.loops n = some device)
    (hsame : device'.diskseq = device.diskseq) :
    Consistent path { host with
      loops := Function.update host.loops n (some device') } where
  named := fun m other hother => by
    by_cases hm : m = n
    · subst hm
      simp only [Function.update_self, Option.some.injEq] at hother
      rw [← hother, hsame]
      exact h.named m device hloop
    · simp only [Function.update_of_ne hm] at hother
      exact h.named m other hother
  there := fun m hclaim => by
    by_cases hm : m = n
    · subst hm
      simp
    · simpa only [Function.update_of_ne hm] using h.there m hclaim
  pendingOwn := h.pendingOwn

/-! The lock. -/

theorem viewOf_lock {lock : Option ι}
    (h : lock = some j ↔ host.lock = some j) :
    viewOf path j { host with lock } = viewOf path j host := by
  ext1
  case locked => exact decide_eq_decide.mpr h
  all_goals rfl

theorem unlock_iff (hij : j ≠ i) (lock : Option ι) :
    (if lock = some i then none else lock) = some j ↔ lock = some j := by
  by_cases h : lock = some i
  · rw [if_pos h, h]
    exact ⟨by simp, fun h' => absurd (Option.some.inj h').symm hij⟩
  · rw [if_neg h]

/-! All calls. -/

/-- The host stays consistent, the other backends see nothing of the call, and
its own backend sees what is said of it. -/
structure Refines (path : ι → List UInt8) (i : ι) (c : Call) (host : Host ι)
    (answer : Answer c) (after : Host ι) : Prop where
  consistent : Consistent path after
  others : ∀ j, j ≠ i → viewOf path j after = viewOf path j host
  spec : Spec (path i) c (viewOf path i host) answer (viewOf path i after)

/-- A call that leaves the host alone. -/
theorem Refines.same {c : Call} {answer : Answer c}
    (h : Consistent path host)
    (hspec : Spec (path i) c (viewOf path i host) answer
      (viewOf path i host)) : Refines path i c host answer host :=
  ⟨h, fun _ _ => rfl, hspec⟩

variable {after : Host ι} {c : Call} {answer : Answer c}

/-- Nobody sees what is cleared behind a call. -/
theorem Refines.cleared {after' : Host ι} {n : UInt32}
    (h : Refines path i c host answer after) (hcleared : after.Cleared n after') :
    Refines path i c host answer after' where
  consistent := h.consistent.cleared hcleared
  others j hj := (viewOf_cleared hcleared).trans (h.others j hj)
  spec := by
    rw [viewOf_cleared hcleared]
    exact h.spec

theorem refines_xsRead {key : List UInt8}
    {answer : Except Errno (List UInt8)} (h : Consistent path host)
    (hanswer : Answers i (.xsRead key) host answer after) :
    Refines path i (.xsRead key) host answer after := by
  obtain ⟨rfl, hvalue, _⟩ := hanswer
  refine .same h ⟨rfl, ?_⟩
  rintro value hok entry hmanaged rfl
  rw [viewOf_entries hmanaged]
  exact hvalue value hok

theorem refines_xsRm (hseparate : Separate path) {entry : Entry}
    {answer : Option Errno} (h : Consistent path host)
    (hanswer : Answers i (.xsRm (key (path i) entry)) host answer after) :
    Refines path i (.xsRm (key (path i) entry)) host answer after := by
  cases answer with
  | none =>
      rw [hanswer.1 rfl]
      exact ⟨h.store _, fun j hj => viewOf_remove hseparate hj.symm entry,
        fun _ own hown => by
          obtain rfl := key_injective hown
          exact viewOf_remove_self entry,
        fun hne => absurd rfl hne⟩
  | some errno =>
      rw [hanswer.2 (Option.some_ne_none errno)]
      exact .same h ⟨by simp, fun _ => rfl⟩

theorem refines_xsTransactionStart {answer : Option Errno}
    (h : Consistent path host)
    (hanswer : Answers i .xsTransactionStart host answer after) :
    Refines path i .xsTransactionStart host answer after := by
  cases answer with
  | none =>
      rw [hanswer.1 rfl]
      exact ⟨h.pending (by simp), fun j hj => viewOf_pending hj _,
        fun _ => viewOf_pending_self _, fun hne => absurd rfl hne⟩
  | some errno =>
      rw [hanswer.2 (Option.some_ne_none errno)]
      exact .same h ⟨by simp, fun _ => rfl⟩

theorem refines_xsWrite {entry : Entry} (hmanaged : entry.managed = true)
    {value : List UInt8} {answer : Option Errno} (h : Consistent path host)
    (hanswer : Answers i (.xsWrite (key (path i) entry) value) host answer
      after) :
    Refines path i (.xsWrite (key (path i) entry) value) host answer
      after := by
  cases answer with
  | none =>
      rw [hanswer.1 rfl]
      refine ⟨h.pending ?_, fun j hj => viewOf_pending hj _,
        fun _ => viewOf_pending_self _, fun hne => absurd rfl hne⟩
      intro write hwrite
      rcases List.mem_append.mp hwrite with hold | hnew
      · exact h.pendingOwn i write hold
      · rw [List.mem_singleton.mp hnew]
        exact ⟨entry, hmanaged, rfl⟩
  | some errno =>
      rw [hanswer.2 (Option.some_ne_none errno)]
      exact .same h ⟨by simp, fun _ => rfl⟩

theorem refines_xsTransactionEnd (hseparate : Separate path)
    {answer : Option Errno} (h : Consistent path host)
    (hanswer : Answers i .xsTransactionEnd host answer after) :
    Refines path i .xsTransactionEnd host answer after := by
  cases answer with
  | none =>
      rw [hanswer.1 rfl]
      let committed : Host ι :=
        { host with store := host.store.commit (host.pending i) }
      refine ⟨(h.store _).pending (by simp), fun j hj => ?_, fun _ => ?_,
        fun hne => absurd rfl hne⟩
      · apply (@viewOf_pending ι _ path i j committed hj []).trans
        apply viewOf_store
        intro entry _
        exact commit_foreign hseparate hj.symm entry _ (h.pendingOwn i) _
      · apply (@viewOf_pending_self ι _ path i committed []).trans
        ext1
        · funext entry
          simp only [viewOf]
          split
          · exact XenStore.commit_apply _ _ _
          · rfl
        all_goals rfl
  | some errno =>
      rw [hanswer.2 (Option.some_ne_none errno)]
      exact ⟨h.pending (by simp), fun j hj => viewOf_pending hj _, (by simp),
        fun _ => viewOf_pending_self _⟩

theorem refines_flock {answer : Option Errno} (h : Consistent path host)
    (hanswer : Answers i .flock host answer after) :
    Refines path i .flock host answer after := by
  cases answer with
  | none =>
      obtain ⟨hfree, hafter⟩ := hanswer.1 rfl
      rw [hafter]
      refine ⟨⟨h.named, h.there, h.pendingOwn⟩, fun j hj => viewOf_lock ?_,
        fun _ => ?_, fun hne => absurd rfl hne⟩
      · rw [hfree]
        exact ⟨fun h' => absurd (Option.some.inj h').symm hj, by simp⟩
      · ext1
        case locked => exact decide_eq_true rfl
        all_goals rfl
  | some errno =>
      rw [hanswer.2 (Option.some_ne_none errno)]
      exact .same h ⟨by simp, fun _ => rfl⟩

theorem refines_closeLock {answer : Option Errno} (h : Consistent path host)
    (hanswer : Answers i .closeLock host answer after) :
    Refines path i .closeLock host answer after := by
  obtain rfl := hanswer
  refine ⟨⟨h.named, h.there, h.pendingOwn⟩,
    fun j hj => viewOf_lock (unlock_iff hj host.lock), ?_⟩
  ext1
  case locked =>
    apply decide_eq_false
    by_cases hlock : host.lock = some i
    · rw [if_pos hlock]
      simp
    · rw [if_neg hlock]
      exact hlock
  all_goals rfl

theorem refines_loopCtl {add : Bool} {answer : Except Errno UInt32}
    (h : Consistent path host)
    (hanswer : Answers i (.loopCtl add) host answer after) :
    Refines path i (.loopCtl add) host answer after := by
  cases answer with
  | error errno =>
      rw [hanswer.2 errno rfl]
      exact .same h rfl
  | ok n =>
      rcases hanswer.1 n rfl with ⟨_, rfl, _⟩ | ⟨hnone, diskseq, hunused, rfl⟩
      · exact .same h rfl
      · have hclaims : host.claims n = none := by
          by_contra hclaim
          exact h.there n hclaim hnone
        have hview : ∀ j, viewOf path j (host.renew n
            ⟨diskseq, none, false, false⟩ none) = viewOf path j host :=
          fun j => viewOf_renew hunused (by rw [hclaims]; simp) (by simp)
        exact ⟨h.renew hunused, fun j _ => hview j, hview i⟩

theorem refines_openLoop {devnum : UInt32} {writable : Bool}
    {answer : Except Errno Object} (h : Consistent path host)
    (hanswer : Answers i (.openLoop devnum writable) host answer after) :
    Refines path i (.openLoop devnum writable) host answer after := by
  cases answer with
  | error errno =>
      rw [hanswer.2 errno rfl]
      exact .same h ⟨by simp, fun _ _ => rfl⟩
  | ok object =>
      obtain ⟨_, _, hthere, hfree, rfl⟩ := hanswer.1 object rfl
      refine ⟨h.claim hthere, fun j hj => viewOf_claim hj hfree, ?_, by simp⟩
      intro opened hopened
      cases hopened
      refine ⟨(viewOf path i (host.claim i object)).claimed, rfl, ?_⟩
      intro n hobject
      rw [viewOf_claimed_of (if_pos hobject)]
      exact fun hnone => hthere n hobject (Option.map_eq_none_iff.mp hnone)

omit [DecidableEq ι] in
theorem claims_ne_of_mine {n : UInt32} (hj : j ≠ i)
    (h : host.claims n = none ∨ host.claims n = some i) :
    host.claims n ≠ some j := by
  rcases h with hnone | hmine
  · rw [hnone]
    simp
  · rw [hmine]
    exact fun h' => hj (Option.some.inj h').symm

theorem refines_loopConfigure {dev : Object} {config : LoopConfig}
    {answer : Option Errno} (h : Consistent path host)
    (hanswer : Answers i (.loopConfigure dev config) host answer after) :
    Refines path i (.loopConfigure dev config) host answer after := by
  cases answer with
  | some errno =>
      rw [hanswer.2 (Option.some_ne_none errno)]
      exact .same h ⟨by simp, fun _ => rfl⟩
  | none =>
      obtain ⟨n, ino, device, diskseq, hdev, _, _, _, hclaims, hunused, rfl⟩ :=
        hanswer.1 rfl
      refine ⟨h.renew hunused, fun j hj => ?_, fun _ => ?_,
        fun hne => absurd rfl hne⟩
      · exact viewOf_renew hunused (claims_ne_of_mine hj hclaims)
          fun h' => hj (Option.some.inj h').symm
      · obtain ⟨claimed, hnew, hview, hclaimed⟩ :=
          @viewOf_renew_self ι _ path i host n
            ⟨diskseq, some ino, config.readOnly, config.autoclear⟩ hunused
        exact ⟨n, diskseq, claimed, hdev, hnew, hview, hclaimed⟩

theorem refines_closeLoop {dev : Object} {answer : Option Errno}
    (h : Consistent path host)
    (hanswer : Answers i (.closeLoop dev) host answer after) :
    Refines path i (.closeLoop dev) host answer after := by
  have hrelease : Refines path i (.closeLoop dev) host answer
      (host.release i dev) := by
    refine ⟨h.claims ?_, fun j hj => viewOf_release hj dev,
      (viewOf path i (host.release i dev)).claimed, rfl⟩
    intro n
    split
    · exact fun hne => absurd rfl hne
    · exact id
  rcases hanswer with rfl | ⟨n, _, hcleared⟩
  · exact hrelease
  · exact hrelease.cleared hcleared

theorem refines_getDiskseq {fd : Object} {answer : Except Errno UInt64}
    (h : Consistent path host)
    (hanswer : Answers i (.getDiskseq fd) host answer after) :
    Refines path i (.getDiskseq fd) host answer after := by
  obtain ⟨rfl, hvalue⟩ := hanswer
  refine .same h ⟨rfl, fun diskseq hok => ?_⟩
  obtain ⟨major, minor, hfd, hloop⟩ := hvalue diskseq hok
  refine ⟨major, minor, hfd, fun hmajor known hknown => ?_⟩
  obtain ⟨device, hdevice, hdiskseq⟩ := hloop hmajor
  obtain ⟨_, claimed, hclaimed, hnumber⟩ := viewOf_claimed hknown
  rw [hdevice] at hclaimed
  rw [← hdiskseq, ← hnumber, Option.some.inj hclaimed]

theorem refines_loopClrFd {dev : Object} {answer : Option Errno}
    (h : Consistent path host)
    (hanswer : Answers i (.loopClrFd dev) host answer after) :
    Refines path i (.loopClrFd dev) host answer after := by
  cases answer with
  | some errno =>
      rw [hanswer.2 (Option.some_ne_none errno)]
      exact .same h ⟨_, rfl⟩
  | none =>
      obtain ⟨n, device, _, hloop, _, hafter⟩ := hanswer.1 rfl
      rcases hafter with rfl | ⟨hclaims, diskseq, hunused, rfl⟩
      · exact ⟨h.sameDisk hloop rfl, fun j _ => viewOf_sameDisk hloop rfl, _,
          viewOf_sameDisk hloop rfl⟩
      · refine ⟨h.renew hunused, fun j hj => ?_, (viewOf path i
          (host.renew n ⟨diskseq, none, false, false⟩ none)).claimed, ?_⟩
        · exact viewOf_renew hunused
            (claims_ne_of_mine hj hclaims) (Option.some_ne_none j).symm
        · ext1
          case owned =>
            exact owned_renew hunused (Option.some_ne_none i).symm
          all_goals rfl

theorem refines_ended {answer : Unit} (h : Consistent path host) :
    Refines path i .exit host answer (host.ended i) := by
  have hclaims : ∀ n, (if host.claims n = some i then none
      else host.claims n) ≠ some i := by
    intro n
    split
    · simp
    · assumption
  have hpending : Consistent path { host with
      pending := Function.update host.pending i [] } := h.pending (by simp)
  refine ⟨⟨h.named, fun n => ?_, hpending.pendingOwn⟩, fun j hj => ?_, ?_⟩
  · simp only [Host.ended]
    split
    · exact fun hne => absurd rfl hne
    · exact h.there n
  · ext1
    case pending => exact Function.update_of_ne hj _ _
    case claimed =>
      funext n
      simp only [viewOf, Host.ended, unlock_iff hj]
    case locked => exact decide_eq_decide.mpr (unlock_iff hj host.lock)
    all_goals rfl
  · ext1
    case pending => exact Function.update_self _ _ _
    case claimed =>
      funext n
      exact if_neg (hclaims n)
    case locked =>
      apply decide_eq_false
      simp only [Host.ended]
      by_cases hlock : host.lock = some i
      · rw [if_pos hlock]
        simp
      · rw [if_neg hlock]
        exact hlock
    all_goals rfl

theorem refines_exit {answer : Unit} (h : Consistent path host)
    (hanswer : Answers i .exit host answer after) :
    Refines path i .exit host answer after := by
  induction hanswer with
  | refl => exact refines_ended h
  | tail _ hstep ih =>
      obtain ⟨n, hcleared⟩ := hstep
      exact ih.cleared hcleared

/-- No call of a process is noticed by another backend. -/
theorem answers_refines (hseparate : Separate path) :
    ∀ {c : Call} {answer : Answer c}, Mine (path i) c →
      Consistent path host → Answers i c host answer after →
        Refines path i c host answer after := by
  intro c answer hmine h hanswer
  cases c with
  | plain call => obtain rfl := hanswer; exact .same h rfl
  | xsRead key => exact refines_xsRead h hanswer
  | xsRm key =>
      obtain ⟨entry, _, rfl⟩ := hmine
      exact refines_xsRm hseparate h hanswer
  | xsTransactionStart => exact refines_xsTransactionStart h hanswer
  | xsWrite key value =>
      obtain ⟨entry, hmanaged, rfl⟩ := hmine
      exact refines_xsWrite hmanaged h hanswer
  | xsTransactionEnd => exact refines_xsTransactionEnd hseparate h hanswer
  | openPath path writable =>
      obtain ⟨rfl, _⟩ := hanswer
      exact .same h rfl
  | fstat fd =>
      obtain ⟨rfl, hstat⟩ := hanswer
      exact .same h ⟨rfl, hstat⟩
  | readDmName count =>
      obtain ⟨rfl, _⟩ := hanswer
      exact .same h rfl
  | flock => exact refines_flock h hanswer
  | closeLock => exact refines_closeLock h hanswer
  | loopCtl add => exact refines_loopCtl h hanswer
  | openLoop devnum writable => exact refines_openLoop h hanswer
  | loopConfigure dev config => exact refines_loopConfigure h hanswer
  | closeLoop dev => exact refines_closeLoop h hanswer
  | getDiskseq fd => exact refines_getDiskseq h hanswer
  | loopClrFd dev => exact refines_loopClrFd h hanswer
  | exit => exact refines_exit h hanswer

end

end QubesUtils.NotScript
