/-
The script on `add`, the processes of a backend one after the other, and all
backends at once.
-/
import QubesUtils.HotplugProcess

namespace QubesUtils.NotScript

open Numeral Threads

section

variable {ι : Type} [DecidableEq ι] {path : ι → List UInt8} {i : ι}
  {v : View} {t : Trace}

variable (hseparate : Separate path)
include hseparate

/-! `add` -/

theorem keeps_getOpened {key : List UInt8} {expected : UInt8}
    {post : Bool → View → Trace → Prop}
    (h : ∀ found t', t <+: t' → post found v t') :
    Keeps path i (getOpened key expected) v t post := by
  refine Keeps.request hseparate rfl rfl trivial ?_
  rintro (errno | value) v' t' ht - - ⟨rfl, -⟩
  · simp only
    split
    · trivial
    · exact h false t' ht
  · simp only
    split
    · trivial
    · exact h true t' ht

theorem keeps_getMode {key : List UInt8}
    {post : Bool → View → Trace → Prop}
    (h : ∀ writable t', t <+: t' → post writable v t') :
    Keeps path i (getMode key) v t post := by
  refine Keeps.request hseparate rfl rfl trivial ?_
  rintro (errno | rw) v' t' ht - - ⟨rfl, -⟩
  · simp only
    split
    · trivial
    · exact h false t' ht
  · simp only
    split
    · exact h false t' ht
    · split
      · exact h true t' ht
      · trivial

/-- The entries of the backend after the transaction. -/
theorem keeps_commit {data : List UInt8} {major minor : UInt32}
    {diskseq : UInt64} {next : Option Errno → Script Unit}
    {post : Unit → View → Trace → Prop}
    (hpending : v.pending =
      [(key (path i) .physicalDevice, physDevText major minor),
        (key (path i) .physicalDevicePath, publishedPath data major minor),
        (key (path i) .diskseq, write 16 diskseq.toNat)])
    (hknown : Known (path i) v t data major minor diskseq)
    (hnext : ∀ v' t', Keeps path i (next none) v' t' post)
    (hfailed : ∀ errno v' t', t <+: t' → v'.owned = v.owned →
      Keeps path i (next (some errno)) v' t' post) :
    Keeps path i (NotScript.request .xsTransactionEnd >>= next) v t post := by
  refine meets_call hseparate trivial (fun _ _ _ => trivial) ?_
  rintro (_ | errno) v' hcoherent ⟨hdone, hfailed'⟩
  · obtain rfl := hdone rfl
    refine ⟨?_, hnext _ _⟩
    intro value hvalue
    rw [hpending] at hvalue ⊢
    refine ⟨data, major, minor, diskseq, ?_, ?_, ?_,
      hknown.mono (List.prefix_append _ _) fun _ _ => id⟩
    · simpa [Entry.managed, key_eq_iff] using hvalue.symm
    · simp [Entry.managed, key_eq_iff]
    · simp [Entry.managed, key_eq_iff]
  · obtain rfl := hfailed' (by simp)
    have ht : t <+: t ++ [⟨.xsTransactionEnd, some errno⟩] :=
      List.prefix_append _ _
    exact ⟨hcoherent.mono ht rfl fun _ _ => id, hfailed errno _ _ ht rfl⟩

theorem keeps_xsWrite {entry : Entry} (hmanaged : entry.managed = true)
    {value : List UInt8} {post : Unit → View → Trace → Prop}
    (h : ∀ t', t <+: t' →
      post () { v with
        pending := v.pending ++ [(key (path i) entry, value)] } t') :
    Keeps path i (xsWrite (key (path i) entry) value) v t post := by
  refine Keeps.request hseparate rfl rfl ⟨entry, hmanaged, rfl⟩ ?_
  rintro (_ | errno) v' t' ht - - ⟨hdone, -⟩
  · obtain rfl := hdone rfl
    exact h t' ht
  · trivial

/-- However often the transaction is tried. -/
theorem keeps_publish {data : List UInt8} {major minor : UInt32}
    {diskseq : UInt64} {post : Unit → View → Trace → Prop}
    (h : ∀ v' t', post () v' t') (fuel : Nat) :
    ∀ {v : View} {t : Trace},
      Known (path i) v t data major minor diskseq →
        Keeps path i (publish (path i) ⟨physDevText major minor,
          publishedPath data major minor, write 16 diskseq.toNat⟩ fuel) v t
            post := by
  induction fuel with
  | zero => exact fun _ => trivial
  | succ fuel ih =>
      intro v t hknown
      refine Keeps.request hseparate rfl rfl trivial ?_
      rintro (_ | errno) v' t₁ ht₁ - - ⟨hdone, -⟩
      · obtain rfl := hdone rfl
        refine Keeps.bind (Keeps.orErr fun _ => ?_)
        refine Keeps.bind (keeps_xsWrite hseparate rfl fun t₂ ht₂ => ?_)
        refine Keeps.bind (keeps_xsWrite hseparate rfl fun t₃ ht₃ => ?_)
        refine Keeps.bind (keeps_xsWrite hseparate rfl fun t₄ ht₄ => ?_)
        have ht := ht₁.trans (ht₂.trans (ht₃.trans ht₄))
        refine keeps_commit hseparate rfl (hknown.mono ht fun _ _ => id)
          (fun v' t' => h v' t') ?_
        intro errno v' t' ht' howned
        simp only
        split
        · trivial
        · refine ih (hknown.mono (ht.trans ht') fun _ _ hown => ?_)
          rw [howned]
          exact hown
      · trivial

theorem keeps_awaitOpened {key : List UInt8}
    {post : Unit → View → Trace → Prop} (h : ∀ v' t', post () v' t')
    (fuel : Nat) : ∀ {v : View} {t : Trace},
      Keeps path i (awaitOpened key fuel) v t post := by
  induction fuel with
  | zero => exact trivial
  | succ fuel ih =>
      intro v t
      refine Keeps.bind (keeps_plain hseparate fun t₁ ht₁ => ?_)
      refine Keeps.request hseparate rfl rfl trivial ?_
      rintro a v' t₂ ht₂ - - -
      refine Keeps.bind (Keeps.value fun value _ => ?_)
      split
      · exact h _ _
      · split
        · exact ih
        · trivial

omit hseparate in
theorem Keeps.snprintf {α : Type} {result : Option α}
    {post : α → View → Trace → Prop}
    (h : ∀ a, result = some a → post a v t) :
    Keeps path i (liftSnprintf result) v t post := by
  cases result with
  | some a => exact h a rfl
  | none => trivial

omit [DecidableEq ι] hseparate in
theorem recordOf_eq (data : List UInt8) (major minor : UInt32)
    (diskseq : UInt64) :
    recordOf data (major, minor) diskseq =
      some ⟨physDevText major minor, publishedPath data major minor,
        write 16 diskseq.toNat⟩ := by
  rw [recordOf, (formatPhysDev_eq major minor).1,
    (formatDiskseq_eq diskseq).1]
  rfl

theorem keeps_announce {fuel : Nat} {autoclear : Bool} {data : List UInt8}
    {major minor : UInt32} {diskseq : UInt64}
    {post : Unit → View → Trace → Prop} (h : ∀ v' t', post () v' t')
    (hknown : Known (path i) v t data major minor diskseq) :
    Keeps path i (announce fuel (path i) autoclear ⟨physDevText major minor,
      publishedPath data major minor, write 16 diskseq.toNat⟩) v t post := by
  cases autoclear with
  | true =>
      refine Keeps.bind (keeps_plain hseparate fun t' ht => ?_)
      exact Keeps.bind (keeps_publish hseparate
        (fun _ _ => keeps_awaitOpened hseparate h fuel) fuel
        (hknown.mono ht fun _ _ => id))
  | false => exact Keeps.bind (keeps_publish hseparate h fuel hknown)

theorem keeps_attach {fuel : Nat} {autoclear : Bool}
    {post : Unit → View → Trace → Prop} (h : ∀ v' t', post () v' t') :
    Keeps path i (attach fuel (path i) autoclear) v t post := by
  refine Keeps.request hseparate rfl rfl trivial ?_
  rintro a v' t₁ ht₁ hparams - ⟨rfl, -⟩
  refine Keeps.bind (Keeps.value fun data hok => ?_)
  rw [hok] at hparams
  split
  · trivial
  · split
    · trivial
    · refine Keeps.bind (keeps_getMode hseparate fun writable t₂ ht₂ => ?_)
      refine Keeps.request hseparate rfl rfl trivial ?_
      rintro a v' t₃ ht₃ hopened - rfl
      refine Keeps.bind (Keeps.value fun fd hfd => ?_)
      rw [hfd] at hopened
      refine Keeps.bind (keeps_processBlkDev hseparate
        ((ht₂.trans ht₃).subset hparams) hopened ?_)
      intro major minor diskseq v' t₄ hknown
      refine Keeps.bind (Keeps.snprintf fun record hrecord => ?_)
      rw [recordOf_eq] at hrecord
      obtain rfl := Option.some.inj hrecord
      exact keeps_announce hseparate h hknown

theorem keeps_addDevice {fuel : Nat} {experimental : Bool}
    {post : Unit → View → Trace → Prop} (h : ∀ v' t', post () v' t') :
    Keeps path i (addDevice fuel (path i) experimental) v t post := by
  cases experimental with
  | true =>
      exact Keeps.bind (keeps_getOpened hseparate fun _ _ _ =>
        keeps_attach hseparate h)
  | false => exact keeps_attach hseparate h

/-! The processes of a backend. -/

theorem keeps_redirectStderr {post : Unit → View → Trace → Prop}
    (h : ∀ t', t <+: t' → post () v t') :
    Keeps path i redirectStderr v t post := by
  refine Keeps.request hseparate rfl rfl trivial ?_
  rintro (_ | errno) v' t' ht - - rfl
  · refine Keeps.bind (keeps_plain hseparate fun t₁ ht₁ => ?_)
    exact keeps_plain hseparate fun t₂ ht₂ => h t₂ (ht.trans (ht₁.trans ht₂))
  · simp only
    split
    · exact h t' ht
    · trivial

theorem keeps_main {fuel : Nat} {invocation : Invocation}
    (hpath : ∀ xsPath, invocation.xenbusPath = some xsPath →
      xsPath = path i)
    {post : Unit → View → Trace → Prop} (h : ∀ v' t', post () v' t') :
    Keeps path i (main fuel invocation) v t post := by
  refine Keeps.bind (keeps_redirectStderr hseparate fun t₁ _ => ?_)
  split
  · rename_i command xsPath _ hxenbus
    obtain rfl := hpath xsPath hxenbus
    split
    · refine Keeps.bind (keeps_plain hseparate fun t₂ _ => ?_)
      refine Keeps.bind (keeps_plain hseparate fun t₃ _ => ?_)
      exact keeps_addDevice hseparate h
    · split
      · refine Keeps.bind (keeps_plain hseparate fun t₂ _ => ?_)
        refine Keeps.bind (keeps_plain hseparate fun t₃ _ => ?_)
        exact keeps_removeDevice hseparate h
      · trivial
  · trivial
  · trivial

/-- Whatever the processes of a backend are started with. -/
theorem meets_serve {fuel : Nat} (invocations : List Invocation)
    (hpath : ∀ invocation ∈ invocations, ∀ xsPath,
      invocation.xenbusPath = some xsPath → xsPath = path i) :
    ∀ {v : View} {t : Trace}, Meets (hotplug path) i (fun _ _ _ => True)
      (fun _ _ _ => True) (serve fuel invocations) v t := by
  induction invocations with
  | nil => exact trivial
  | cons invocation rest ih =>
      intro v t
      have hmain : Keeps path i (main fuel invocation) v t
          fun _ _ _ => True :=
        keeps_main hseparate (hpath invocation List.mem_cons_self)
          fun _ _ => trivial
      refine Meets.bind ((Meets.outcome hmain).mono ?_ fun _ _ _ => id)
      intro result v' t' _
      have hnext : Meets (hotplug path) i (fun _ _ _ => True)
          (fun _ _ _ => True) (do
            let _ ← Program.request .exit
            serve fuel rest) v' t' := by
        refine meets_quiet hseparate rfl trivial (fun _ _ _ => trivial) ?_
        rintro a v'' t'' - - - -
        exact ih fun other hother =>
          hpath other (List.mem_cons_of_mem _ hother)
      split
      · trivial
      · exact hnext

end

/-! All backends. -/

section

variable {ι : Type} [DecidableEq ι] {path : ι → List UInt8}

/-- What the rest of the host may do at any time: the entries that the script
writes, its transactions, its lock and its claims are left alone; a claimed
device stays the disk that it is, and another disk has a new number. -/
structure Disturbs (path : ι → List UInt8) (host after : Host ι) : Prop where
  entries : ∀ i (entry : Entry), entry.managed = true →
    after.store (key (path i) entry) = host.store (key (path i) entry)
  pending : after.pending = host.pending
  claims : after.claims = host.claims
  lock : after.lock = host.lock
  disks : ∀ diskseq disk, host.disks diskseq = some disk →
    after.disks diskseq = some disk
  strangers : ∀ diskseq n owner, host.Unused diskseq →
    after.disks diskseq = some (n, owner) → owner = none
  loops : ∀ n device, after.loops n = some device →
    (∃ old, host.loops n = some old ∧ old.diskseq = device.diskseq) ∨
      (host.Unused device.diskseq ∧
        after.disks device.diskseq = some (n, none))
  claimed : ∀ n, host.claims n ≠ none →
    (after.loops n).map LoopDevice.diskseq =
      (host.loops n).map LoopDevice.diskseq

theorem Disturbs.view {host after : Host ι} (h : Disturbs path host after)
    (i : ι) : viewOf path i after = viewOf path i host := by
  ext1
  case entries =>
    funext entry
    simp only [viewOf]
    split
    · rename_i hmanaged
      exact h.entries i entry hmanaged
    · rfl
  case pending => exact congrFun h.pending i
  case claimed =>
    funext n
    by_cases hclaim : host.claims n = some i
    · rw [viewOf_claimed_of hclaim,
        viewOf_claimed_of (by rw [h.claims]; exact hclaim)]
      exact h.claimed n (by rw [hclaim]; simp)
    · rw [viewOf_claimed_not hclaim,
        viewOf_claimed_not (by rw [h.claims]; exact hclaim)]
  case owned =>
    funext diskseq
    simp only [viewOf]
    cases hbefore : host.disks diskseq with
    | some disk => rw [h.disks diskseq disk hbefore]
    | none =>
        rcases hafter : after.disks diskseq with _ | ⟨n, owner⟩
        · rfl
        · rw [h.strangers diskseq n owner hbefore hafter]
          rfl
  case locked => simp only [viewOf, h.lock]

omit [DecidableEq ι] in
theorem Disturbs.consistent {host after : Host ι}
    (h : Disturbs path host after) (hhost : Consistent path host) :
    Consistent path after where
  named := fun n device hloop => by
    rcases h.loops n device hloop with ⟨old, hold, hsame⟩ | ⟨_, hdisk⟩
    · obtain ⟨owner, howner⟩ := hhost.named n old hold
      exact ⟨owner, by rw [← hsame]; exact h.disks _ _ howner⟩
    · exact ⟨none, hdisk⟩
  there := fun n hclaim hnone => by
    rw [h.claims] at hclaim
    have hsame := h.claimed n hclaim
    rw [hnone] at hsame
    exact hhost.there n hclaim (Option.map_eq_none_iff.mp hsame.symm)
  pendingOwn := fun i write hwrite => by
    rw [h.pending] at hwrite
    exact hhost.pendingOwn i write hwrite

theorem disturbs_harmless : Harmless (hotplug path) (Disturbs path) := by
  rintro host after history ⟨hconsistent, hcoherent⟩ h
  refine ⟨⟨h.consistent hconsistent, fun i => ?_⟩, h.view⟩
  rw [h.view i]
  exact hcoherent i

abbrev Backends (ι : Type) := System ι (Host ι) Call Answer Unit Unit

/-- No device is published, and no process has begun. -/
structure Starts (path : ι → List UInt8) (sys : Backends ι) : Prop where
  consistent : Consistent path sys.state
  withdrawn : ∀ i, sys.state.store (key (path i) .physicalDevice) = none
  history : ∀ i, sys.history i = []
  serves : ∀ i, ∃ fuel invocations,
    sys.programs i = serve fuel invocations ∧
      ∀ invocation ∈ invocations, ∀ xsPath,
        invocation.xenbusPath = some xsPath → xsPath = path i

theorem Starts.sound (hseparate : Separate path) {sys : Backends ι}
    (h : Starts path sys) :
    Sound (hotplug path) (fun _ _ _ _ => True) (fun _ _ _ _ => True)
      sys where
  invariant := ⟨h.consistent, fun i value hvalue => by
    have hnone : (viewOf path i sys.state).entries .physicalDevice = none :=
      (viewOf_entries rfl).trans (h.withdrawn i)
    rw [show _ = some value from hvalue] at hnone
    cases hnone⟩
  meets := fun i => by
    obtain ⟨fuel, invocations, hprogram, hpath⟩ := h.serves i
    rw [hprogram]
    exact meets_serve hseparate invocations hpath

/-- What the kernel can see of a backend is a whole record of one device. -/
def PublishedWhole (path : ι → List UInt8) (i : ι) (host : Host ι)
    (t : Trace) : Prop :=
  ∀ value, host.store (key (path i) .physicalDevice) = some value →
    ∃ data major minor diskseq, value = physDevText major minor ∧
      host.store (key (path i) .physicalDevicePath) =
        some (publishedPath data major minor) ∧
      host.store (key (path i) .diskseq) = some (write 16 diskseq.toNat) ∧
      WasRead t (key (path i) .params) data ∧
      (WasOpened t data major minor diskseq ∨
        (major = loopMajor ∧ host.disks diskseq = some (minor, some i)))

variable {sys sys' : Backends ι}

/-- In every interleaving of all processes and of whatever else happens on the
host. -/
theorem published_whole (hseparate : Separate path) (hstart : Starts path sys)
    (hreach : Reachable Answers (Disturbs path) sys sys') (i : ι) :
    PublishedWhole path i sys'.state (sys'.history i) := by
  have hsound :=
    (hstart.sound hseparate).reachable disturbs_harmless hreach
  intro value hvalue
  rw [← viewOf_entries rfl] at hvalue
  obtain ⟨data, major, minor, diskseq, hphysical, hpath, hdiskseq, hread,
    hknown⟩ := hsound.invariant.2 i value hvalue
  refine ⟨data, major, minor, diskseq, hphysical, ?_, ?_, hread,
    hknown.imp_right fun hown => ⟨hown.1, viewOf_owned hown.2⟩⟩
  · rw [← hpath]
    exact (viewOf_entries rfl).symm
  · rw [← hdiskseq]
    exact (viewOf_entries rfl).symm

/-- Whatever a process is about to do to a loop device, it may do. -/
theorem about_permitted (hseparate : Separate path)
    (hstart : Starts path sys)
    (hreach : Reachable Answers (Disturbs path) sys sys') {i : ι} {c : Call}
    {next : Answer c → Program Call Answer Unit Unit}
    (habout : sys'.programs i = .call c next) :
    Permitted path i c sys'.state (sys'.history i) :=
  ((hstart.sound hseparate).reachable disturbs_harmless hreach).permitted
    habout

theorem detaches_own (hseparate : Separate path) (hstart : Starts path sys)
    (hreach : Reachable Answers (Disturbs path) sys sys') {i : ι}
    {dev : Object}
    {next : Answer (.loopClrFd dev) → Program Call Answer Unit Unit}
    (habout : sys'.programs i = .call (.loopClrFd dev) next) :
    MayDetach path i dev sys'.state (sys'.history i) :=
  about_permitted hseparate hstart hreach habout

/-- A loop device is looked for, or configured. -/
def SetsUp : Call → Bool
  | .loopCtl _ | .loopConfigure _ _ => true
  | _ => false

/-- A process that sets up a loop device has the lock, and is the only one
that does. -/
theorem setUp_exclusive (hseparate : Separate path)
    (hstart : Starts path sys)
    (hreach : Reachable Answers (Disturbs path) sys sys') {i : ι} {c : Call}
    {next : Answer c → Program Call Answer Unit Unit}
    (hsets : SetsUp c = true) (habout : sys'.programs i = .call c next) :
    sys'.state.lock = some i ∧
      ∀ j (c' : Call) (next' : Answer c' → Program Call Answer Unit Unit),
        SetsUp c' = true → sys'.programs j = .call c' next' → j = i := by
  have hlocked : ∀ {k : ι} {c : Call}
      {next : Answer c → Program Call Answer Unit Unit}, SetsUp c = true →
        sys'.programs k = .call c next → sys'.state.lock = some k := by
    intro k c next hsets habout
    have hpermitted := about_permitted hseparate hstart hreach habout
    cases c <;> first | exact hpermitted | cases hsets
  refine ⟨hlocked hsets habout, fun j c' next' hsets' habout' => ?_⟩
  have hlock := hlocked hsets' habout'
  rw [hlocked hsets habout] at hlock
  exact (Option.some.inj hlock).symm

end

end QubesUtils.NotScript
