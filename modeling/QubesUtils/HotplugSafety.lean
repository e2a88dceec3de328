/-
Any number of backends, each with one process of the script after the other,
in any interleaving: what is published is whole, a loop device is set up under
the lock, and none is detached that is not the backend's own.
-/
import QubesUtils.HotplugCalls
import QubesUtils.HotplugScript
import QubesUtils.DeviceNumbers

namespace QubesUtils.NotScript

open Numeral Threads

/-! What is published. -/

/-- A value was read from an entry. -/
def WasRead (t : Trace) (key value : List UInt8) : Prop :=
  (⟨.xsRead key, .ok value⟩ : Threads.Event Call Answer) ∈ t

/-- A block device was opened under this path, and its disk had this
number. -/
def WasOpened (t : Trace) (data : List UInt8) (major minor : UInt32)
    (diskseq : UInt64) : Prop :=
  (∃ writable, (⟨.openPath data writable, .ok (.block major minor)⟩ :
    Threads.Event Call Answer) ∈ t) ∧
  (⟨.getDiskseq (.block major minor), .ok diskseq⟩ :
    Threads.Event Call Answer) ∈ t

/-- A device that was found under `params`, or that was set up for the file
that was found there. -/
def Known (xsPath : List UInt8) (v : View) (t : Trace) (data : List UInt8)
    (major minor : UInt32) (diskseq : UInt64) : Prop :=
  WasRead t (key xsPath .params) data ∧
    (WasOpened t data major minor diskseq ∨
      (major = loopMajor ∧ v.owned diskseq = some minor))

def publishedPath (data : List UInt8) (major minor : UInt32) : List UInt8 :=
  if major = loopMajor then loopPath minor else data

/-- While the kernel can see a device, the three entries are about one and the
same. -/
def Coherent (xsPath : List UInt8) (v : View) (t : Trace) : Prop :=
  ∀ value, v.entries .physicalDevice = some value →
    ∃ data major minor diskseq, value = physDevText major minor ∧
      v.entries .physicalDevicePath =
        some (publishedPath data major minor) ∧
      v.entries .diskseq = some (write 16 diskseq.toNat) ∧
      Known xsPath v t data major minor diskseq

section

variable {xsPath : List UInt8} {v v' : View} {t t' : Trace}

theorem Known.mono {data : List UInt8} {major minor : UInt32}
    {diskseq : UInt64} (h : Known xsPath v t data major minor diskseq)
    (ht : t <+: t') (howned : ∀ diskseq n, v.owned diskseq = some n →
      v'.owned diskseq = some n) :
    Known xsPath v' t' data major minor diskseq := by
  refine ⟨ht.subset h.1, ?_⟩
  rcases h.2 with ⟨⟨writable, hopened⟩, hnumber⟩ | ⟨hmajor, hown⟩
  · exact Or.inl ⟨⟨writable, ht.subset hopened⟩, ht.subset hnumber⟩
  · exact Or.inr ⟨hmajor, howned _ _ hown⟩

theorem Coherent.mono (h : Coherent xsPath v t) (ht : t <+: t')
    (hentries : v'.entries = v.entries)
    (howned : ∀ diskseq n, v.owned diskseq = some n →
      v'.owned diskseq = some n) : Coherent xsPath v' t' := by
  intro value hvalue
  rw [hentries] at hvalue ⊢
  obtain ⟨data, major, minor, diskseq, hphysical, hpath, hseq, hknown⟩ :=
    h value hvalue
  exact ⟨data, major, minor, diskseq, hphysical, hpath, hseq,
    hknown.mono ht howned⟩

end

/-! What a process may do. -/

section

variable {ι : Type} [DecidableEq ι]

/-- A loop device that is detached is claimed, and the disk that it is has
been published and withdrawn.  The backend has set it up itself, or was given
it under a name that `params` has no longer. -/
def MayDetach (path : ι → List UInt8) (i : ι) (dev : Object)
    (host : Host ι) (t : Trace) : Prop :=
  ∃ n device data params, dev = .block loopMajor n ∧
    host.loops n = some device ∧ host.claims n = some i ∧
    host.store (key (path i) .physicalDevice) = none ∧
    host.store (key (path i) .diskseq) = none ∧
    WasRead t (key (path i) .params) data ∧
    WasRead t (key (path i) .params) params ∧ params ≠ loopPath n ∧
    (host.disks device.diskseq = some (n, some i) ∨
      WasOpened t data loopMajor n device.diskseq)

def Permitted (path : ι → List UInt8) (i : ι) (c : Call) (host : Host ι)
    (t : Trace) : Prop :=
  match c with
  | .loopCtl _ => host.lock = some i
  | .loopConfigure _ _ => host.lock = some i
  | .loopClrFd dev => MayDetach path i dev host t
  | _ => True

def hotplug (path : ι → List UInt8) :
    Discipline ι (Host ι) View Call Answer where
  handle := Answers
  view := viewOf path
  invariant host history := Consistent path host ∧
    ∀ i, Coherent (path i) (viewOf path i host) (history i)
  permitted := Permitted path

end

/-! One call. -/

section

variable {ι : Type} [DecidableEq ι] {path : ι → List UInt8} {i : ι}
  {ε α β : Type} {post : α → View → Trace → Prop}
  {exit : ε → View → Trace → Prop} {v : View} {t : Trace} {c : Call}

theorem meets_call (hseparate : Separate path)
    {next : Answer c → Program Call Answer ε α} (hmine : Mine (path i) c)
    (hpermitted : ∀ host, Consistent path host → viewOf path i host = v →
      Permitted path i c host t)
    (h : ∀ a v', Coherent (path i) v t → Spec (path i) c v a v' →
      Coherent (path i) v' (t ++ [⟨c, a⟩]) ∧
        Meets (hotplug path) i post exit (next a) v' (t ++ [⟨c, a⟩])) :
    Meets (hotplug path) i post exit (Program.request c >>= next) v t := by
  rintro host history ⟨hconsistent, hcoherent⟩ rfl rfl
  refine ⟨hpermitted host hconsistent rfl, fun a after hanswer => ?_⟩
  obtain ⟨hafter, hothers, hspec⟩ :=
    answers_refines hseparate hmine hconsistent hanswer
  obtain ⟨hself, hnext⟩ := h a (viewOf path i after) (hcoherent i) hspec
  refine ⟨⟨hafter, fun j => ?_⟩, hothers, hnext⟩
  by_cases hj : j = i
  · subst hj
    rw [Function.update_self]
    exact hself
  · rw [Function.update_of_ne hj, hothers j hj]
    exact hcoherent j

/-- The calls that change no entry that the kernel sees. -/
def Quiet : Call → Bool
  | .xsRm _ | .xsTransactionEnd => false
  | _ => true

theorem Spec.quiet {xsPath : List UInt8} {a : Answer c} {v' : View}
    (hquiet : Quiet c = true) (h : Spec xsPath c v a v') :
    v'.entries = v.entries ∧
      ∀ diskseq n, v.owned diskseq = some n → v'.owned diskseq = some n := by
  have same : ∀ {w : View}, w = v → w.entries = v.entries ∧
      ∀ diskseq n, v.owned diskseq = some n → w.owned diskseq = some n := by
    rintro w rfl
    exact ⟨rfl, fun _ _ => id⟩
  have done : ∀ {w w' : View} {answer : Option Errno},
      (answer = none → w' = w) ∧ (answer ≠ none → w' = v) →
      w.entries = v.entries → w.owned = v.owned → w'.entries = v.entries ∧
        ∀ diskseq n, v.owned diskseq = some n →
          w'.owned diskseq = some n := by
    rintro w w' answer ⟨hdone, hfailed⟩ hentries howned
    cases answer with
    | none =>
        rw [hdone rfl, hentries, howned]
        exact ⟨rfl, fun _ _ => id⟩
    | some errno =>
        rw [hfailed (by simp)]
        exact ⟨rfl, fun _ _ => id⟩
  cases c with
  | xsRm path => cases hquiet
  | xsTransactionEnd => cases hquiet
  | plain call => exact same h
  | xsRead path => exact same h.1
  | xsTransactionStart => exact done h rfl rfl
  | xsWrite path value => exact done h rfl rfl
  | openPath path writable => exact same h
  | fstat fd => exact same h.1
  | readDmName count => exact same h
  | flock => exact done h rfl rfl
  | closeLock =>
      obtain rfl := h
      exact ⟨rfl, fun _ _ => id⟩
  | loopCtl add => exact same h
  | openLoop devnum writable =>
      cases a with
      | error errno => exact same (h.2 errno rfl)
      | ok object =>
          obtain ⟨claimed, rfl, _⟩ := h.1 object rfl
          exact ⟨rfl, fun _ _ => id⟩
  | loopConfigure dev config =>
      cases a with
      | some errno => exact same (h.2 (by simp))
      | none =>
          obtain ⟨n, diskseq, claimed, _, hnew, rfl, _⟩ := h.1 rfl
          refine ⟨rfl, fun other m hother => ?_⟩
          have hne : other ≠ diskseq := by
            rintro rfl
            rw [hnew] at hother
            cases hother
          exact (Function.update_of_ne hne _ _).trans hother
  | closeLoop dev =>
      obtain ⟨claimed, rfl⟩ := h
      exact ⟨rfl, fun _ _ => id⟩
  | getDiskseq fd => exact same h.1
  | loopClrFd dev =>
      obtain ⟨claimed, rfl⟩ := h
      exact ⟨rfl, fun _ _ => id⟩
  | exit =>
      obtain rfl := h
      exact ⟨rfl, fun _ _ => id⟩

theorem meets_quiet (hseparate : Separate path)
    {next : Answer c → Program Call Answer ε α} (hquiet : Quiet c = true)
    (hmine : Mine (path i) c)
    (hpermitted : ∀ host, Consistent path host → viewOf path i host = v →
      Permitted path i c host t)
    (h : ∀ a v' t', t <+: t' → ⟨c, a⟩ ∈ t' → Coherent (path i) v' t' →
      Spec (path i) c v a v' →
        Meets (hotplug path) i post exit (next a) v' t') :
    Meets (hotplug path) i post exit (Program.request c >>= next) v t := by
  apply meets_call hseparate hmine hpermitted
  intro a v' hcoherent hspec
  obtain ⟨hentries, howned⟩ := hspec.quiet hquiet
  have ht : t <+: t ++ [⟨c, a⟩] := List.prefix_append _ _
  have hself := hcoherent.mono ht hentries howned
  exact ⟨hself, h a v' _ ht (List.mem_append_right _ List.mem_cons_self)
    hself hspec⟩

end

end QubesUtils.NotScript
