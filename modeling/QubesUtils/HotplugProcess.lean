/-
The script, function by function: a process keeps to what its backend may do.
-/
import QubesUtils.HotplugSafety

namespace QubesUtils.NotScript

open Numeral Threads

section

variable {ι : Type} [DecidableEq ι] {path : ι → List UInt8} {i : ι}
  {α β : Type} {post : α → View → Trace → Prop} {v : View} {t : Trace}

/-- A script, however it is stopped. -/
abbrev Keeps (path : ι → List UInt8) (i : ι) (script : Script α)
    (v : View) (t : Trace) (post : α → View → Trace → Prop) : Prop :=
  Meets (hotplug path) i post (fun _ _ _ => True) script v t

theorem Keeps.bind {script : Script α} {next : α → Script β}
    {post : β → View → Trace → Prop}
    (h : Keeps path i script v t fun a v t =>
      Keeps path i (next a) v t post) :
    Keeps path i (script >>= next) v t post :=
  Meets.bind h

theorem Keeps.value {complaint : Complaint} {answer : Except Errno α}
    (h : ∀ a, answer = .ok a → post a v t) :
    Keeps path i (valueOrErr complaint answer) v t post := by
  cases answer with
  | ok a => exact h a rfl
  | error errno => trivial

theorem Keeps.orErr {complaint : Complaint} {answer : Option Errno}
    {post : Unit → View → Trace → Prop} (h : answer = none → post () v t) :
    Keeps path i (NotScript.orErr complaint answer) v t post := by
  cases answer with
  | none => exact h rfl
  | some errno => trivial

/-- A call that is always permitted. -/
def Free : Call → Bool
  | .loopCtl _ | .loopConfigure _ _ | .loopClrFd _ => false
  | _ => true

omit [DecidableEq ι] in
theorem permitted_of_free {c : Call} (h : Free c = true) (host : Host ι) :
    Permitted path i c host t := by
  cases c <;> trivial

variable (hseparate : Separate path)
include hseparate

theorem Keeps.request {c : Call} {next : Answer c → Script α}
    (hquiet : Quiet c = true) (hfree : Free c = true)
    (hmine : Mine (path i) c)
    (h : ∀ a v' t', t <+: t' → ⟨c, a⟩ ∈ t' → Coherent (path i) v' t' →
      Spec (path i) c v a v' → Keeps path i (next a) v' t' post) :
    Keeps path i (NotScript.request c >>= next) v t post :=
  meets_quiet hseparate hquiet hmine 
    (fun host _ _ => permitted_of_free hfree host) h

theorem keeps_plain {call : Plain} {complaint : Complaint}
    {post : Unit → View → Trace → Prop} (h : ∀ t', t <+: t' → post () v t') :
    Keeps path i (plain call complaint) v t post := by
  refine Keeps.request hseparate rfl rfl trivial ?_
  rintro a v' t' ht - - rfl
  exact Keeps.orErr fun _ => h t' ht

/-! `setup_loop` -/

/-- A loop device that the process has set up and claims. -/
def SetUp (v : View) (n : UInt32) (diskseq : UInt64) : Prop :=
  v.owned diskseq = some n ∧ v.claimed n = some diskseq

theorem keeps_setupLoopPass {fd : Object} {writable autoclear : Bool}
    {retryCount : Nat} {again : Script Object}
    {post : Object → View → Trace → Prop} (hlocked : v.locked = true)
    (hagain : ∀ v' t', v'.locked = true → t <+: t' →
      Keeps path i again v' t' post)
    (hdone : ∀ n diskseq v' t', t <+: t' → SetUp v' n diskseq →
      post (.block loopMajor n) v' t') :
    Keeps path i (setupLoopPass fd writable autoclear retryCount again) v t
      post := by
  refine meets_quiet hseparate rfl trivial ?_ ?_
  · rintro host _ rfl
    exact viewOf_locked hlocked
  rintro status v' t' ht - - rfl
  refine Keeps.bind (Keeps.value fun devnum _ => ?_)
  refine Keeps.request hseparate rfl rfl trivial ?_
  rintro (errno | dev) v' t'' ht' - - ⟨hopened, hfailed⟩
  · obtain rfl := hfailed errno rfl
    simp only
    split
    · trivial
    · exact hagain _ _ hlocked (ht.trans ht')
  · obtain ⟨claimed, rfl, hclaimed⟩ := hopened dev rfl
    refine meets_quiet hseparate rfl trivial ?_ ?_
    · rintro host _ hview
      apply viewOf_locked
      rw [hview]
      exact hlocked
    rintro (_ | errno) v' t''' ht'' - - ⟨hconfigured, hfailed⟩
    · obtain ⟨n, diskseq, claimed', hdev, hnew, rfl, hnumber⟩ :=
        hconfigured rfl
      refine Keeps.request hseparate rfl rfl trivial ?_
      rintro a v' t'''' ht''' - - rfl
      rw [hdev]
      refine hdone n diskseq _ _
        (((ht.trans ht').trans ht'').trans ht''') ⟨?_, ?_⟩
      · exact Function.update_self _ _ _
      · exact hnumber (hclaimed n hdev)
    · obtain rfl := hfailed (by simp)
      simp only
      split
      · trivial
      · refine Keeps.request hseparate rfl rfl trivial ?_
        rintro (_ | errno) v' t'''' ht''' - - ⟨claimed', rfl⟩
        · exact hagain _ _ hlocked
            (((ht.trans ht').trans ht'').trans ht''')
        · trivial

theorem keeps_setupLoopFrom {fd : Object} {writable autoclear : Bool}
    {post : Object → View → Trace → Prop} (left : Nat) :
    ∀ {v : View} {t : Trace}, v.locked = true →
      (∀ n diskseq v' t', t <+: t' → SetUp v' n diskseq →
        post (.block loopMajor n) v' t') →
      Keeps path i (setupLoopFrom fd writable autoclear left) v t post := by
  induction left with
  | zero =>
      intro v t hlocked hdone
      exact keeps_setupLoopPass hseparate hlocked (fun _ _ _ _ => trivial)
        hdone
  | succ left ih =>
      intro v t hlocked hdone
      apply keeps_setupLoopPass hseparate hlocked _ hdone
      intro v' t' hlocked' ht
      exact ih hlocked' fun n diskseq v'' t'' ht' =>
        hdone n diskseq v'' t'' (ht.trans ht')

theorem keeps_setupLoop {fd : Object} {writable autoclear : Bool}
    {post : Object → View → Trace → Prop}
    (hdone : ∀ n diskseq v' t', t <+: t' → SetUp v' n diskseq →
      post (.block loopMajor n) v' t') :
    Keeps path i (setupLoop fd writable autoclear) v t post := by
  refine Keeps.bind (keeps_plain hseparate fun t' ht => ?_)
  refine Keeps.request hseparate rfl rfl trivial ?_
  rintro a v' t'' ht' - - ⟨hlocked, _⟩
  refine Keeps.bind (Keeps.orErr fun hdone' => ?_)
  obtain rfl := hlocked hdone'
  apply keeps_setupLoopFrom hseparate _ rfl
  exact fun n diskseq v' t''' ht'' =>
    hdone n diskseq v' t''' ((ht.trans ht').trans ht'')

/-! `process_blk_dev` -/

theorem keeps_checkDmName {devname : List UInt8} {rdev : UInt32 × UInt32}
    {post : Unit → View → Trace → Prop} (h : ∀ t', t <+: t' → post () v t') :
    Keeps path i (checkDmName devname rdev) v t post := by
  rw [checkDmName]
  split
  · trivial
  · refine Keeps.bind (keeps_plain hseparate fun t' ht => ?_)
    refine Keeps.bind (keeps_plain hseparate fun t'' ht' => ?_)
    refine Keeps.request hseparate rfl rfl trivial ?_
    rintro a v' t''' ht'' - - rfl
    refine Keeps.bind (Keeps.value fun got _ => ?_)
    split
    · trivial
    · exact keeps_plain hseparate fun t'''' ht''' =>
        h t'''' (((ht.trans ht').trans ht'').trans ht''')

/-- The descriptor that is left open is of the device with these numbers. -/
theorem keeps_blkDevOf {fd : Object} {data : List UInt8}
    {writable autoclear : Bool}
    {post : Object × UInt32 × UInt32 → View → Trace → Prop}
    (hfound : ∀ major minor t', fd = .block major minor → t <+: t' →
      post (fd, major, minor) v t')
    (hsetUp : ∀ n diskseq v' t', t <+: t' → SetUp v' n diskseq →
      post (.block loopMajor n, loopMajor, n) v' t') :
    Keeps path i (blkDevOf fd data writable autoclear) v t post := by
  refine Keeps.request hseparate rfl rfl trivial ?_
  rintro a v' t' ht - - ⟨rfl, hstat⟩
  refine Keeps.bind (Keeps.value fun stat hok => ?_)
  have hdescribes := hstat stat hok
  obtain ⟨kind, major, minor⟩ := stat
  cases kind with
  | block =>
      have hfd : fd = .block major minor := by
        cases fd with
        | block major' minor' => cases hdescribes; rfl
        | regular ino => cases hdescribes
        | other => cases hdescribes
      simp only
      split
      · refine Keeps.bind (keeps_checkDmName hseparate fun t'' ht' => ?_)
        exact hfound major minor t'' hfd (ht.trans ht')
      · exact hfound major minor t' hfd ht
  | regular =>
      refine Keeps.bind (keeps_plain hseparate fun t'' ht' => ?_)
      refine Keeps.bind (keeps_setupLoop hseparate
        fun n diskseq v' t''' ht'' hsetup => ?_)
      refine Keeps.bind (keeps_plain hseparate fun t₁ ht₁ => ?_)
      refine Keeps.bind (keeps_plain hseparate fun t₂ ht₂ => ?_)
      refine Keeps.bind (keeps_plain hseparate fun t₃ ht₃ => ?_)
      refine Keeps.request hseparate rfl rfl trivial ?_
      rintro a v' t₄ ht₄ - - ⟨rfl, hstat'⟩
      refine Keeps.bind (Keeps.value fun stat hok' => ?_)
      rw [hstat' stat hok']
      exact hsetUp n diskseq _ t₄ (ht.trans (ht'.trans (ht''.trans
        (ht₁.trans (ht₂.trans (ht₃.trans ht₄)))))) hsetup
  | other => trivial

theorem keeps_processBlkDev {fd : Object} {data : List UInt8}
    {writable autoclear : Bool}
    {post : (UInt32 × UInt32) × UInt64 → View → Trace → Prop}
    (hread : WasRead t (key (path i) .params) data)
    (hopened : (⟨.openPath data writable, .ok fd⟩ :
      Threads.Event Call Answer) ∈ t)
    (h : ∀ major minor diskseq v' t',
      Known (path i) v' t' data major minor diskseq →
        post ((major, minor), diskseq) v' t') :
    Keeps path i (processBlkDev fd data writable autoclear) v t post := by
  refine Keeps.bind (keeps_blkDevOf hseparate ?_ ?_)
  · rintro major minor t' rfl ht
    refine Keeps.request hseparate rfl rfl trivial ?_
    rintro a v' t'' ht' hnumber - ⟨rfl, _⟩
    refine Keeps.bind (Keeps.value fun diskseq hok => ?_)
    rw [hok] at hnumber
    exact h major minor diskseq _ t'' ⟨ht'.subset (ht.subset hread),
      Or.inl ⟨⟨writable, ht'.subset (ht.subset hopened)⟩, hnumber⟩⟩
  · intro n diskseq v' t' ht hsetup
    refine Keeps.request hseparate rfl rfl trivial ?_
    rintro a v'' t'' ht' - - ⟨rfl, hclaimed⟩
    refine Keeps.bind (Keeps.value fun diskseq' hok => ?_)
    obtain ⟨major, minor, hfd, hnumber⟩ := hclaimed diskseq' hok
    cases hfd
    rw [hnumber rfl diskseq hsetup.2]
    exact h loopMajor n diskseq _ t''
      ⟨ht'.subset (ht.subset hread), Or.inr ⟨rfl, hsetup.1⟩⟩

/-! `remove` -/

omit [DecidableEq ι] hseparate in
theorem parsePhysicalDevice_text (major minor : UInt32) :
    parsePhysicalDevice (physDevText major minor) =
      .ok (major.toUInt64, minor.toUInt64) := by
  apply parsePhysicalDevice_iff.mpr
  have hmajor := hexNumeral_write (toUInt64_le major)
  have hminor := hexNumeral_write (toUInt64_le minor)
  rw [UInt32.toNat_toUInt64] at hmajor hminor
  exact ⟨_, _, rfl, hmajor, hminor⟩

omit [DecidableEq ι] hseparate in
theorem parseDiskseq_text (diskseq : UInt64) :
    parseDiskseq (write 16 diskseq.toNat) = .ok diskseq :=
  parseDiskseq_iff.mpr (hexNumeral_write (UInt64.le_iff_toNat_le.mpr
    (Nat.le_of_lt_succ diskseq.toNat_lt)))

omit [DecidableEq ι] hseparate in
theorem loopMajor_of_toUInt64 {major : UInt32}
    (h : major.toUInt64 = LOOP_MAJOR) : major = loopMajor := by
  apply UInt32.toNat_inj.mp
  rw [← UInt32.toNat_toUInt64, h]
  rfl

/-- An entry that is withdrawn. -/
theorem keeps_withdraw {entry : Entry} (hmanaged : entry.managed = true)
    {next : Option Errno → Script α}
    (hhidden : entry = .physicalDevice ∨ v.entries .physicalDevice = none)
    (h : ∀ t', t <+: t' →
      Keeps path i (next none) (v.withdraw entry) t' post)
    (hfailed : ∀ errno v' t', Keeps path i (next (some errno)) v' t' post) :
    Keeps path i
      (NotScript.request (.xsRm (key (path i) entry)) >>= next) v t post := by
  refine meets_call hseparate ⟨entry, hmanaged, rfl⟩
    (fun _ _ _ => trivial) ?_
  rintro (_ | errno) v' hcoherent ⟨hdone, hunchanged⟩
  · obtain rfl := hdone rfl entry rfl
    refine ⟨fun value hvalue => ?_, h _ (List.prefix_append _ _)⟩
    have hnone : (v.withdraw entry).entries .physicalDevice = none := by
      by_cases heq : Entry.physicalDevice = entry
      · rw [← heq, View.withdraw_self]
      · rw [View.withdraw_ne _ heq]
        exact hhidden.resolve_left (Ne.symm heq)
    rw [hnone] at hvalue
    cases hvalue
  · obtain rfl := hunchanged (by simp)
    exact ⟨hcoherent.mono (List.prefix_append _ _) rfl fun _ _ => id,
      hfailed errno _ _⟩

omit hseparate in
theorem Keeps.removal {result : Except RemoveFailure α}
    (h : ∀ a, result = .ok a → post a v t) :
    Keeps path i (liftRemoval result) v t post := by
  cases result with
  | ok a => exact h a rfl
  | error failure => trivial

/-- The loop device of what was published. -/
theorem keeps_clearLoop {data params : List UInt8} {minor : UInt32}
    {diskseq : UInt64} {post : Unit → View → Trace → Prop}
    (hphysical : v.entries .physicalDevice = none)
    (hdiskseq : v.entries .diskseq = none)
    (hknown : Known (path i) v t data loopMajor minor diskseq)
    (hparams : WasRead t (key (path i) .params) params)
    (hname : params ≠ loopPath minor) (h : ∀ v' t', post () v' t') :
    Keeps path i (clearLoop loopMajor.toUInt64 minor.toUInt64 diskseq) v t
      post := by
  refine Keeps.bind (keeps_plain hseparate fun t₁ ht₁ => ?_)
  refine Keeps.request hseparate rfl rfl trivial ?_
  rintro a v' t₂ ht₂ - - ⟨hopened, _⟩
  refine Keeps.bind (Keeps.value fun dev hdev => ?_)
  obtain ⟨claimed, rfl, hclaimed⟩ := hopened dev hdev
  refine Keeps.request hseparate rfl rfl trivial ?_
  rintro a v' t₃ ht₃ - - ⟨rfl, hstat⟩
  refine Keeps.bind (Keeps.value fun stat hok => ?_)
  have hdescribes := hstat stat hok
  split
  · trivial
  · rename_i hrdev
    refine Keeps.request hseparate rfl rfl trivial ?_
    rintro a v' t₄ ht₄ - - ⟨rfl, hnumber⟩
    refine Keeps.bind (Keeps.value fun actual hactual => ?_)
    split
    · trivial
    · rename_i hsame
      obtain ⟨major', minor', rfl, hcurrent⟩ := hnumber actual hactual
      rw [hdescribes, not_not, UInt32.toUInt32_toUInt64,
        UInt32.toUInt32_toUInt64] at hrdev
      obtain ⟨rfl, rfl⟩ := Prod.mk.inj hrdev
      obtain ⟨known, hclaim⟩ :=
        Option.ne_none_iff_exists'.mp (hclaimed minor' rfl)
      obtain rfl := hcurrent rfl known hclaim
      obtain rfl := not_not.mp hsame
      have ht := ht₁.trans (ht₂.trans (ht₃.trans ht₄))
      refine meets_quiet hseparate rfl trivial ?_ ?_
      · intro host _ hview
        have hnow : (viewOf path i host).claimed minor' = some diskseq := by
          rw [hview]
          exact hclaim
        obtain ⟨hmine, device, hloop, hdisk⟩ := viewOf_claimed hnow
        have hgone : ∀ entry : Entry, entry.managed = true →
            v.entries entry = none →
              host.store (key (path i) entry) = none := by
          intro entry hmanaged hnone
          rw [← viewOf_entries hmanaged, hview]
          exact hnone
        refine ⟨minor', device, data, params, rfl, hloop, hmine,
          hgone _ rfl hphysical, hgone _ rfl hdiskseq, ht.subset hknown.1,
          ht.subset hparams, hname, ?_⟩
        rw [hdisk]
        rcases hknown.2 with hwas | ⟨_, hown⟩
        · exact Or.inr ⟨hwas.1.imp fun _ hmem => ht.subset hmem,
            ht.subset hwas.2⟩
        · left
          apply @viewOf_owned ι _ path i host
          rw [hview]
          exact hown
      · rintro answer v' t₅ ht₅ - - ⟨cleared, rfl⟩
        have hrest : Keeps path i (do
            NotScript.orErr .close
              (← NotScript.request (.closeLoop (.block loopMajor minor')))
            plain .closeLoopControl .close)
            { v with claimed := cleared } t₅ post := by
          refine Keeps.request hseparate rfl rfl trivial ?_
          rintro a v' t₆ ht₆ - - -
          refine Keeps.bind (Keeps.orErr fun _ => ?_)
          exact keeps_plain hseparate fun t₇ _ => h _ t₇
        rcases answer with _ | errno
        · exact hrest
        · simp only
          split
          · trivial
          · exact hrest

theorem keeps_removeDevice {post : Unit → View → Trace → Prop}
    (h : ∀ v' t', post () v' t') :
    Keeps path i (removeDevice (path i)) v t post := by
  refine Keeps.request hseparate rfl rfl trivial ?_
  rintro a v' t₁ ht₁ - hcoherent ⟨rfl, hphysical⟩
  refine Keeps.bind (Keeps.value fun physdev hok => ?_)
  obtain ⟨data, major, minor, diskseq, rfl, hpath, hseq, hknown⟩ :=
    hcoherent physdev (hphysical physdev hok .physicalDevice rfl rfl)
  refine keeps_withdraw hseparate rfl (Or.inl rfl) (fun t₂ ht₂ => ?_)
    fun _ _ _ => trivial
  refine Keeps.bind (Keeps.orErr fun _ => ?_)
  refine Keeps.bind (Keeps.removal fun numbers hnumbers => ?_)
  rw [parsePhysicalDevice_text] at hnumbers
  cases hnumbers
  refine Keeps.request hseparate rfl rfl trivial ?_
  rintro a v' t₃ ht₃ - - ⟨rfl, hdiskseq⟩
  refine Keeps.bind (Keeps.value fun diskseqStr hok => ?_)
  have hstr : write 16 diskseq.toNat = diskseqStr := by
    have hread := hdiskseq diskseqStr hok .diskseq rfl rfl
    rw [View.withdraw_ne _ (by decide), hseq] at hread
    exact Option.some.inj hread
  subst hstr
  refine keeps_withdraw hseparate rfl (Or.inr (View.withdraw_self _ _))
    (fun t₄ ht₄ => ?_) fun _ _ _ => trivial
  refine Keeps.bind (Keeps.orErr fun _ => ?_)
  refine Keeps.bind (Keeps.removal fun expected hexpected => ?_)
  rw [parseDiskseq_text] at hexpected
  cases hexpected
  split
  · exact h _ _
  · rename_i hmajor
    obtain rfl := loopMajor_of_toUInt64 (not_not.mp hmajor)
    refine Keeps.request hseparate rfl rfl trivial ?_
    rintro a v' t₅ ht₅ - - ⟨rfl, hdevicePath⟩
    refine Keeps.bind (Keeps.value fun physicalDevicePath hok => ?_)
    have hname : loopPath minor = physicalDevicePath := by
      have hread :=
        hdevicePath physicalDevicePath hok .physicalDevicePath rfl rfl
      rw [View.withdraw_ne _ (by decide), View.withdraw_ne _ (by decide),
        hpath, publishedPath, if_pos rfl] at hread
      exact Option.some.inj hread
    subst hname
    refine Keeps.request hseparate rfl rfl trivial ?_
    rintro a v' t₆ ht₆ hparams - ⟨rfl, -⟩
    refine Keeps.bind (Keeps.value fun params hok => ?_)
    rw [hok] at hparams
    split
    · exact h _ _
    · rename_i hne
      have ht := ht₂.trans (ht₃.trans (ht₄.trans (ht₅.trans ht₆)))
      refine keeps_clearLoop hseparate ?_ (View.withdraw_self _ _)
        (hknown.mono ht fun _ _ => id) hparams hne h
      rw [View.withdraw_ne _ (by decide)]
      exact View.withdraw_self _ _

end

end QubesUtils.NotScript
