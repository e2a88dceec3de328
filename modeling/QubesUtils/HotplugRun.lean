/-
A host with one loop device, on which nothing fails that need not fail.  There
the script publishes a file as the loop device, and takes it down again.
-/
import QubesUtils.HotplugInterleaved

namespace QubesUtils.NotScript

open Numeral Threads

/-! The host that answers. -/

/-- What the kernel is free to choose: the device that it offers, which is the
one that can be opened, the numbers of the disk that it becomes when it is set
up and of the one when it is cleared, and the name of a device-mapper device;
and whether somebody else has the loop device open. -/
structure Choices where
  free : UInt32
  diskseq : UInt64
  cleared : UInt64
  held : Bool
  dmName : List UInt8

/-- The loop device. -/
def Choices.device (choices : Choices) : Object :=
  .block loopMajor choices.free

section

variable {ι : Type} [DecidableEq ι]

def Host.isThere (host : Host ι) : Object → Bool
  | .block major minor => major ≠ loopMajor || (host.loops minor).isSome
  | _ => true

def Host.isUnclaimed (host : Host ι) : Object → Bool
  | .block major minor => major ≠ loopMajor || (host.claims minor).isNone
  | _ => true

def Object.stat : Object → DeviceStat
  | .block major minor => ⟨.block, major, minor⟩
  | .regular _ => ⟨.regular, 0, 0⟩
  | .other => ⟨.other, 0, 0⟩

/-- `LOOP_CONFIGURE` -/
def Host.configure (choices : Choices) (i : ι) (dev : Object)
    (config : LoopConfig) (host : Host ι) : Option (Host ι) :=
  match dev, config.fd with
  | .block major n, .regular ino =>
      match host.loops n with
      | some device =>
          if major = loopMajor ∧ device.backing = none ∧
              (host.claims n = none ∨ host.claims n = some i) ∧
              host.disks choices.diskseq = none then
            some (host.renew n ⟨choices.diskseq, some ino, config.readOnly,
              config.autoclear⟩ (some i))
          else
            none
      | none => none
  | _, _ => none

/-- The loop device is closed: if it is to be cleared, and nobody has it open
any more, it is free again. -/
def Host.closed (choices : Choices) (host : Host ι) : Host ι :=
  if (host.loops choices.free).any LoopDevice.autoclear = true ∧
      host.claims choices.free = none ∧ choices.held = false ∧
      host.disks choices.cleared = none then
    host.renew choices.free ⟨choices.cleared, none, false, false⟩ none
  else
    host

/-- `LOOP_CLR_FD`: the device is cleared when it is closed. -/
def Host.clear (dev : Object) (host : Host ι) : Option (Host ι) :=
  match dev with
  | .block major n =>
      match host.loops n with
      | some device =>
          if major = loopMajor ∧ device.backing ≠ none then
            some { host with
              loops := Function.update host.loops n
                (some { device with autoclear := true }) }
          else
            none
      | none => none
  | _ => none

/-- `BLKGETDISKSEQ` -/
def Host.diskseqOf (fd : Object) (host : Host ι) : Option UInt64 :=
  match fd with
  | .block major minor =>
      if major = loopMajor then
        (host.loops minor).map LoopDevice.diskseq
      else
        some 0
  | _ => none

theorem ENOENT_ne_zero : UInt32.ofNat ENOENT ≠ 0 := by decide

theorem EAGAIN_ne_zero : UInt32.ofNat EAGAIN ≠ 0 := by decide

def found (object : Option Object) : Except Errno Object :=
  object.elim (.error (errnoOf ENOENT ENOENT_ne_zero)) .ok

def reply (choices : Choices) (i : ι) :
    (c : Call) → Host ι → Answer c × Host ι
  | .plain _, host => (none, host)
  | .xsRead key, host =>
      ((host.store key).elim (.error (errnoOf ENOENT ENOENT_ne_zero)) .ok,
        host)
  | .xsRm key, host => (none, { host with store := host.store.remove key })
  | .xsTransactionStart, host =>
      (none, { host with pending := Function.update host.pending i [] })
  | .xsWrite key value, host =>
      (none, { host with
        pending := Function.update host.pending i
          (host.pending i ++ [(key, value)]) })
  | .xsTransactionEnd, host =>
      (none, { host with
        store := host.store.commit (host.pending i)
        pending := Function.update host.pending i [] })
  | .openPath path _, host =>
      (found ((host.paths path).filter host.isThere), host)
  | .fstat fd, host => (.ok fd.stat, host)
  | .readDmName count, host => (.ok (choices.dmName.take count), host)
  | .flock, host =>
      if host.lock = none then (none, { host with lock := some i })
      else (some (errnoOf EAGAIN EAGAIN_ne_zero), host)
  | .closeLock, host =>
      (none, { host with
        lock := if host.lock = some i then none else host.lock })
  | .loopCtl add, host =>
      (if add = false ∧
          (host.loops choices.free).any (·.backing = none) = true then
        .ok choices.free
      else .error (errnoOf EBUSY), host)
  | .openLoop devnum _, host =>
      match ((host.paths (loopPath devnum)).filter host.isThere).filter
          host.isUnclaimed with
      | some object =>
          if host.symlinks (loopPath devnum) = false ∧
              object = choices.device then
            (.ok object, host.claim i object)
          else (.error (errnoOf EBUSY), host)
      | none => (.error (errnoOf EBUSY), host)
  | .loopConfigure dev config, host =>
      match host.configure choices i dev config with
      | some after => (none, after)
      | none => (some (errnoOf EBUSY), host)
  | .closeLoop dev, host =>
      (none, if dev = choices.device then (host.release i dev).closed choices
        else host.release i dev)
  | .getDiskseq fd, host =>
      ((host.diskseqOf fd).elim (.error (errnoOf ENXIO)) .ok, host)
  | .loopClrFd dev, host =>
      match host.clear dev with
      | some after => (none, after)
      | none => (some (errnoOf ENXIO), host)
  | .exit, host =>
      ((), if host.claims choices.free = some i then
          (host.ended i).closed choices
        else host.ended i)

variable {choices : Choices} {i : ι} {host after : Host ι}

omit [DecidableEq ι] in
theorem Host.there_of_isThere {object : Object}
    (h : host.isThere object = true) : host.There object := by
  rintro n rfl hnone
  rw [Host.isThere, hnone] at h
  simp at h

omit [DecidableEq ι] in
theorem Host.unclaimed_of_isUnclaimed {object : Object}
    (h : host.isUnclaimed object = true) : host.Unclaimed object := by
  rintro n rfl
  rw [Host.isUnclaimed] at h
  simpa using h

theorem Host.configure_answers {dev : Object} {config : LoopConfig}
    (h : host.configure choices i dev config = some after) :
    Answers i (.loopConfigure dev config) host none after := by
  refine ⟨fun hdone => ?_, fun hne => absurd rfl hne⟩
  unfold Host.configure at h
  split at h
  · rename_i major n ino hfd
    split at h
    · rename_i device hloop
      split at h
      · rename_i hfree
        obtain ⟨rfl, hbacking, hclaims, hunused⟩ := hfree
        exact ⟨n, ino, device, choices.diskseq, rfl, hfd, hloop, hbacking,
          hclaims, hunused, (Option.some.inj h).symm⟩
      · cases h
    · cases h
  · cases h

theorem Host.clear_answers {dev : Object} (h : host.clear dev = some after) :
    Answers i (.loopClrFd dev) host none after := by
  refine ⟨fun hdone => ?_, fun hne => absurd rfl hne⟩
  unfold Host.clear at h
  split at h
  · rename_i major n
    split at h
    · rename_i device hloop
      split at h
      · rename_i hbound
        obtain ⟨rfl, hbacking⟩ := hbound
        exact ⟨n, device, rfl, hloop, hbacking,
          Or.inl (Option.some.inj h).symm⟩
      · cases h
    · cases h
  · cases h

omit [DecidableEq ι] in
theorem Host.closed_cases :
    host.closed choices = host ∨
      host.Cleared choices.free (host.closed choices) := by
  rw [Host.closed]
  split
  · rename_i hlast
    obtain ⟨hclear, hclaims, _, hunused⟩ := hlast
    exact Or.inr ⟨(Option.any_eq_true _ _).mp hclear, hclaims, choices.cleared,
      hunused, rfl⟩
  · exact Or.inl rfl

/-- The host answers as a host may. -/
theorem reply_answers (choices : Choices) (i : ι) (c : Call)
    (host : Host ι) :
    Answers i c host (reply choices i c host).1 (reply choices i c host).2 := by
  cases c with
  | plain call => rfl
  | xsRead key =>
      refine ⟨rfl, fun value hvalue => ?_, fun errno hnone _ => ?_⟩
      · simp only [reply] at hvalue
        cases hstore : host.store key with
        | none => rw [hstore] at hvalue; cases hvalue
        | some stored =>
            rw [hstore] at hvalue
            exact congrArg some (Except.ok.inj hvalue)
      · simp only [reply] at hnone
        cases hstore : host.store key with
        | none => rfl
        | some stored => rw [hstore] at hnone; cases hnone
  | xsRm key => exact ⟨fun _ => rfl, fun hne => absurd rfl hne⟩
  | xsTransactionStart => exact ⟨fun _ => rfl, fun hne => absurd rfl hne⟩
  | xsWrite key value => exact ⟨fun _ => rfl, fun hne => absurd rfl hne⟩
  | xsTransactionEnd => exact ⟨fun _ => rfl, fun hne => absurd rfl hne⟩
  | openPath path writable =>
      refine ⟨rfl, fun object hobject => ?_⟩
      simp only [reply] at hobject
      cases hpath : (host.paths path).filter host.isThere with
      | none => rw [hpath] at hobject; cases hobject
      | some opened =>
          rw [hpath] at hobject
          obtain rfl := Except.ok.inj hobject
          obtain ⟨hpaths, hthere⟩ := Option.filter_eq_some_iff.mp hpath
          exact ⟨hpaths, Host.there_of_isThere hthere⟩
  | fstat fd =>
      refine ⟨rfl, fun stat hstat => ?_⟩
      obtain rfl := Except.ok.inj hstat
      cases fd <;> rfl
  | readDmName count =>
      refine ⟨rfl, fun bytes hbytes => ?_⟩
      obtain rfl := Except.ok.inj hbytes
      exact List.length_take_le _ _
  | flock =>
      by_cases hlock : host.lock = none
      · simp only [reply, if_pos hlock]
        exact ⟨fun _ => ⟨hlock, rfl⟩, fun hne => absurd rfl hne⟩
      · simp only [reply, if_neg hlock]
        exact ⟨by simp, fun _ => rfl⟩
  | closeLock => rfl
  | loopCtl add =>
      simp only [reply]
      split
      · rename_i hfree
        refine ⟨fun n hn => ?_, by simp⟩
        obtain rfl := Except.ok.inj hn
        obtain ⟨hadd, hany⟩ := hfree
        cases hloop : host.loops choices.free with
        | none => rw [hloop] at hany; cases hany
        | some device =>
            rw [hloop] at hany
            exact Or.inl ⟨hadd, rfl, device, rfl, of_decide_eq_true hany⟩
      · exact ⟨by simp, fun _ _ => rfl⟩
  | openLoop devnum writable =>
      simp only [reply]
      split
      · rename_i object hobject
        obtain ⟨hpath, hfree⟩ := Option.filter_eq_some_iff.mp hobject
        obtain ⟨hpaths, hthere⟩ := Option.filter_eq_some_iff.mp hpath
        split
        · rename_i hlink
          refine ⟨fun opened hopened => ?_, by simp⟩
          obtain rfl := Except.ok.inj hopened
          exact ⟨hpaths, hlink.1, Host.there_of_isThere hthere,
            Host.unclaimed_of_isUnclaimed hfree, rfl⟩
        · exact ⟨by simp, fun _ _ => rfl⟩
      · exact ⟨by simp, fun _ _ => rfl⟩
  | loopConfigure dev config =>
      simp only [reply]
      split
      · rename_i after hafter
        exact Host.configure_answers hafter
      · exact ⟨by simp, fun _ => rfl⟩
  | closeLoop dev =>
      simp only [reply]
      split
      · rename_i hdev
        exact Host.closed_cases.imp_right
          fun hcleared => ⟨choices.free, hdev, hcleared⟩
      · exact Or.inl rfl
  | getDiskseq fd =>
      refine ⟨rfl, fun diskseq hdiskseq => ?_⟩
      cases fd with
      | block major minor =>
          refine ⟨major, minor, rfl, ?_⟩
          rintro rfl
          simp only [reply, Host.diskseqOf] at hdiskseq
          cases hloop : host.loops minor with
          | none => rw [hloop] at hdiskseq; cases hdiskseq
          | some device =>
              rw [hloop] at hdiskseq
              exact ⟨device, rfl, Except.ok.inj hdiskseq⟩
      | regular ino => cases hdiskseq
      | other => cases hdiskseq
  | loopClrFd dev =>
      simp only [reply]
      split
      · rename_i after hafter
        exact Host.clear_answers hafter
      · exact ⟨by simp, fun _ => rfl⟩
  | exit =>
      simp only [reply]
      split
      · rcases @Host.closed_cases ι choices (host.ended i) with
          hsame | hcleared
        · rw [hsame]
          exact .refl
        · exact .single ⟨choices.free, hcleared⟩
      · exact .refl

/-! A file is attached. -/

/-- What is expected of the host when a file is attached: `params` names a
regular file, the device that the kernel offers is free and has its node, and
no process of the backend is there. -/
structure Attachable (xsPath : List UInt8) (choices : Choices) (i : ι)
    (data : List UInt8) (ino : Nat) (writable : Bool) (host : Host ι) :
    Prop where
  params : host.store (key xsPath .params) = some data
  noNul : (0 : UInt8) ∉ data
  absolute : data.head? = some slash
  mode : host.store (key xsPath .mode) = none ∧ writable = false ∨
    host.store (key xsPath .mode) = some (text "r") ∧ writable = false ∨
    host.store (key xsPath .mode) = some (text "w") ∧ writable = true
  file : host.paths data = some (.regular ino)
  free : ∃ device, host.loops choices.free = some device ∧
    device.backing = none
  node : host.paths (loopPath choices.free) =
    some (.block loopMajor choices.free)
  noLink : host.symlinks (loopPath choices.free) = false
  unclaimed : host.claims choices.free = none
  unused : host.Unused choices.diskseq
  unlocked : host.lock = none
  nothingPending : host.pending i = []
  nothingClaimed : ∀ n, host.claims n ≠ some i

/-- Nobody else has the device open, and there is a number for the disk that it
becomes when it is cleared. -/
structure Detachable (choices : Choices) (host : Host ι) : Prop where
  alone : choices.held = false
  unused : host.Unused choices.cleared
  distinct : choices.cleared ≠ choices.diskseq

/-- The free device, set up for a file. -/
def Choices.loop (choices : Choices) (ino : Nat) (writable : Bool) :
    LoopDevice :=
  ⟨choices.diskseq, some ino, !writable, false⟩

variable {xsPath data : List UInt8} {ino : Nat} {writable : Bool}
  {α ε : Type}

theorem run_request_bind {c : Call}
    {f : Answer c → Script α} :
    (request c >>= f).run (reply choices i) host =
      (f (reply choices i c host).1).run (reply choices i)
        (reply choices i c host).2 :=
  rfl

theorem run_pure (a : α) :
    (pure a : Script α).run (reply choices i) host = (.ok a, host) :=
  rfl

theorem pure_bind_script {β : Type} (a : α) (f : α → Script β) :
    (pure a : Script α) >>= f = f a :=
  rfl

theorem plain_bind {call : Plain} {complaint : Complaint}
    {f : Unit → Script α} :
    (plain call complaint >>= f).run (reply choices i) host =
      (f ()).run (reply choices i) host :=
  rfl

theorem reply_loopCtl
    (h : ∃ device, host.loops choices.free = some device ∧
      device.backing = none) :
    reply choices i (.loopCtl false) host = (.ok choices.free, host) := by
  obtain ⟨device, hloop, hbacking⟩ := h
  simp [reply, hloop, hbacking]

theorem reply_openLoop
    (hnode : host.paths (loopPath choices.free) = some choices.device)
    (hlink : host.symlinks (loopPath choices.free) = false)
    (hloop : ∃ device, host.loops choices.free = some device)
    (hclaim : host.claims choices.free = none) :
    reply choices i (.openLoop choices.free writable) host =
      (.ok choices.device, host.claim i choices.device) := by
  obtain ⟨device, hloop⟩ := hloop
  have hthere : host.isThere choices.device = true := by
    simp [Choices.device, Host.isThere, hloop]
  have hfree : host.isUnclaimed choices.device = true := by
    simp [Choices.device, Host.isUnclaimed, hclaim]
  simp [reply, hnode, hlink, Option.filter, hthere, hfree]

/-- The host with the free device claimed, and set up. -/
def Host.withLoop (choices : Choices) (i : ι) (ino : Nat) (writable : Bool)
    (host : Host ι) : Host ι :=
  (host.claim i choices.device).renew choices.free
    (choices.loop ino writable) (some i)

theorem reply_loopConfigure
    (hloop : ∃ device, host.loops choices.free = some device ∧
      device.backing = none) (hunused : host.Unused choices.diskseq) :
    reply choices i (.loopConfigure choices.device
        (loopConfig (.regular ino) writable false))
        (host.claim i choices.device) =
      (none, host.withLoop choices i ino writable) := by
  obtain ⟨device, hloop, hbacking⟩ := hloop
  have hnew : host.disks choices.diskseq = none := hunused
  simp [reply, Host.configure, Choices.device, loopConfig, Host.withLoop,
    Choices.loop, Host.claim, hloop, hbacking, hnew]

/-- A free device is set up at the first try. -/
theorem run_setupLoopPass {again : Script Object}
    (hfree : ∃ device, host.loops choices.free = some device ∧
      device.backing = none)
    (hnode : host.paths (loopPath choices.free) = some choices.device)
    (hlink : host.symlinks (loopPath choices.free) = false)
    (hclaim : host.claims choices.free = none)
    (hunused : host.Unused choices.diskseq) :
    (setupLoopPass (.regular ino) writable false 0 again).run
        (reply choices i) host =
      (.ok choices.device,
        (reply choices i .closeLock
          (host.withLoop choices i ino writable)).2) := by
  have hopen : reply choices i (.openLoop choices.free writable) host =
      (.ok choices.device, host.claim i choices.device) :=
    reply_openLoop hnode hlink (hfree.imp fun _ h => h.1) hclaim
  rw [setupLoopPass, run_request_bind, decide_eq_false (by decide)]
  rw [reply_loopCtl hfree, valueOrErr, pure_bind_script, run_request_bind,
    hopen]
  simp only
  rw [run_request_bind, reply_loopConfigure hfree hunused]
  rfl

theorem run_setupLoop
    (h : Attachable xsPath choices i data ino writable host) :
    (setupLoop (.regular ino) writable false).run (reply choices i) host =
      (.ok choices.device, host.withLoop choices i ino writable) := by
  have hlock : reply choices i .flock host =
      (none, { host with lock := some i }) := if_pos h.unlocked
  rw [setupLoop, plain_bind, run_request_bind, hlock]
  rw [NotScript.orErr, pure_bind_script, retryLimit, setupLoopFrom]
  apply (@run_setupLoopPass ι _ choices i { host with lock := some i } ino
    writable _ h.free h.node h.noLink h.unclaimed h.unused).trans
  simp only [reply, Host.withLoop, Host.claim, Host.renew, h.unlocked]
  simp

/-- A regular file becomes the free loop device. -/
theorem run_processBlkDev
    (h : Attachable xsPath choices i data ino writable host) :
    (processBlkDev (.regular ino) data writable false).run
        (reply choices i) host =
      (.ok ((loopMajor, choices.free), choices.diskseq),
        host.withLoop choices i ino writable) := by
  have hblk : (blkDevOf (.regular ino) data writable false).run
      (reply choices i) host =
        (.ok (choices.device, loopMajor, choices.free),
          host.withLoop choices i ino writable) := by
    have hsetup := run_setupLoop h
    rw [blkDevOf, run_request_bind]
    simp only [reply, Object.stat, valueOrErr, pure_bind_script]
    rw [plain_bind, Program.run_bind hsetup, plain_bind, plain_bind,
      plain_bind]
    rfl
  have hnumber : reply choices i (.getDiskseq choices.device)
      (host.withLoop choices i ino writable) =
        (.ok choices.diskseq, host.withLoop choices i ino writable) := by
    simp [reply, Host.diskseqOf, Choices.device, Host.withLoop, Host.renew,
      Choices.loop]
  rw [processBlkDev, Program.run_bind hblk]
  simp only
  rw [run_request_bind, hnumber]
  rfl

theorem xsWrite_bind {key value : List UInt8} {f : Unit → Script α} :
    (xsWrite key value >>= f).run (reply choices i) host =
      (f ()).run (reply choices i) { host with
        pending := Function.update host.pending i
          (host.pending i ++ [(key, value)]) } :=
  rfl

/-- The transaction that publishes a record. -/
theorem run_publish (record : Record) (fuel : Nat) :
    (publish xsPath record (fuel + 1)).run (reply choices i) host =
      (.ok (), { host with
        store := host.store.commit
          [(key xsPath .physicalDevice, record.physDev),
            (key xsPath .physicalDevicePath, record.physdevPath),
            (key xsPath .diskseq, record.hexDiskseq)]
        pending := Function.update host.pending i [] }) := by
  rw [publish, run_request_bind]
  simp only [reply, NotScript.orErr, pure_bind_script]
  rw [xsWrite_bind, xsWrite_bind, xsWrite_bind, run_request_bind]
  simp only [reply, run_pure, Function.update_self, Function.update_idem,
    List.nil_append, List.cons_append]

/-! The two commands. -/

/-- The script for a backend. -/
def invoke (xsPath : List UInt8) (command : String) : Invocation where
  argv := [text "block", text command]
  xenbusPath := some xsPath
  experimental := false

theorem main_add (fuel : Nat) :
    (main fuel (invoke xsPath "add")).run (reply choices i) host =
      (attach fuel xsPath false).run (reply choices i) host := by
  rfl

theorem main_remove (fuel : Nat) :
    (main fuel (invoke xsPath "remove")).run (reply choices i) host =
      (removeDevice xsPath).run (reply choices i) host := by
  rfl

/-- The host with a file attached. -/
def Host.attached (xsPath : List UInt8) (choices : Choices) (i : ι)
    (ino : Nat) (writable : Bool) (host : Host ι) : Host ι :=
  { host with
    store := host.store.commit
      [(key xsPath .physicalDevice, physDevText loopMajor choices.free),
        (key xsPath .physicalDevicePath, loopPath choices.free),
        (key xsPath .diskseq, write 16 choices.diskseq.toNat)]
    loops := Function.update host.loops choices.free
      (choices.loop ino writable)
    disks := Function.update host.disks choices.diskseq
      (some (choices.free, some i)) }

/-- Without an entry. -/
def Host.without (key : List UInt8) (host : Host ι) : Host ι :=
  { host with store := host.store.remove key }

/-- With a loop device that is to be cleared. -/
def Host.clearing (n : UInt32) (device : LoopDevice) (host : Host ι) :
    Host ι :=
  { host with
    loops := Function.update host.loops n
      (some { device with autoclear := true }) }

/-- The host with the file detached again. -/
def Host.detached (xsPath : List UInt8) (choices : Choices) (i : ι)
    (ino : Nat) (writable : Bool) (host : Host ι) : Host ι :=
  (((host.attached xsPath choices i ino writable).without
    (key xsPath .physicalDevice)).without (key xsPath .diskseq)).renew
      choices.free ⟨choices.cleared, none, false, false⟩ none

theorem run_getMode (h : Attachable xsPath choices i data ino writable host) :
    (getMode (key xsPath .mode)).run (reply choices i) host =
      (.ok writable, host) := by
  rw [getMode, run_request_bind]
  simp only [reply]
  rcases h.mode with ⟨hmode, rfl⟩ | ⟨hmode, rfl⟩ | ⟨hmode, rfl⟩ <;>
    rw [hmode] <;> rfl

theorem run_attach (h : Attachable xsPath choices i data ino writable host)
    (fuel : Nat) :
    (attach (fuel + 1) xsPath false).run (reply choices i) host =
      (.ok (), { host.withLoop choices i ino writable with
        store := (host.attached xsPath choices i ino writable).store
        pending := Function.update host.pending i [] }) := by
  have hread : reply choices i (.xsRead (key xsPath .params)) host =
      (.ok data, host) := by
    simp [reply, h.params]
  have hopen : reply choices i (.openPath data writable) host =
      (.ok (.regular ino), host) := by
    simp [reply, h.file, Option.filter, Host.isThere, found]
  rw [attach, run_request_bind, hread, valueOrErr, pure_bind_script,
    if_neg h.noNul, if_neg (not_not.mpr h.absolute),
    Program.run_bind (run_getMode h), run_request_bind, hopen, valueOrErr,
    pure_bind_script, Program.run_bind (run_processBlkDev h)]
  simp only [recordOf_eq]
  exact run_publish _ fuel

/-! Taking it down. -/

theorem commit_managed {xsPath physDev physdevPath hexDiskseq : List UInt8}
    (store : XenStore) :
    let store' := store.commit
      [(key xsPath .physicalDevice, physDev),
        (key xsPath .physicalDevicePath, physdevPath),
        (key xsPath .diskseq, hexDiskseq)]
    store' (key xsPath .physicalDevice) = some physDev ∧
      store' (key xsPath .physicalDevicePath) = some physdevPath ∧
      store' (key xsPath .diskseq) = some hexDiskseq ∧
      store' (key xsPath .params) = store (key xsPath .params) := by
  simp [XenStore.commit_apply, key_eq_iff]

omit [DecidableEq ι] in
theorem Host.without_store {left right : Entry} (h : left ≠ right) :
    (host.without (key xsPath left)).store (key xsPath right) =
      host.store (key xsPath right) :=
  if_neg fun hbelow => h (below_key_iff.mp hbelow)

theorem read_bind {entry : Entry} {value : List UInt8}
    {complaint : Complaint} {f : List UInt8 → Script α}
    (h : host.store (key xsPath entry) = some value) :
    (do
      let value ← valueOrErr complaint
        (← request (.xsRead (key xsPath entry)))
      f value : Script α).run (reply choices i) host =
        (f value).run (reply choices i) host := by
  rw [run_request_bind]
  simp only [reply, h]
  rfl

theorem rm_bind {path : List UInt8} {complaint : Complaint}
    {rest : Script α} :
    (do
      orErr complaint (← request (.xsRm path))
      rest : Script α).run (reply choices i) host =
        rest.run (reply choices i) (host.without path) :=
  rfl

theorem Host.release_claim {object : Object}
    (h : host.Unclaimed object) :
    (host.claim i object).release i object = host := by
  have hclaims : ((host.claim i object).release i object).claims =
      host.claims := by
    funext n
    by_cases hobject : object = .block loopMajor n
    · simp [Host.claim, Host.release, hobject, h n hobject]
    · simp [Host.claim, Host.release, hobject]
  exact congrArg (fun claims => { host with claims }) hclaims

omit [DecidableEq ι] in
/-- A device that is to be cleared is free when it is closed. -/
theorem Host.closed_clearing {device : LoopDevice}
    (hclaim : host.claims choices.free = none) (halone : choices.held = false)
    (hunused : host.Unused choices.cleared) :
    (host.clearing choices.free device).closed choices =
      host.renew choices.free ⟨choices.cleared, none, false, false⟩ none := by
  have hdisks : host.disks choices.cleared = none := hunused
  simp [Host.closed, Host.clearing, Host.renew, hclaim, halone, hdisks]

/-- The device is claimed, found to be the disk that was published, and given
up. -/
theorem run_clearLoop {device : LoopDevice}
    (hnode : host.paths (loopPath choices.free) = some choices.device)
    (hlink : host.symlinks (loopPath choices.free) = false)
    (hloop : host.loops choices.free = some device)
    (hbound : device.backing ≠ none)
    (hclaim : host.claims choices.free = none) (halone : choices.held = false)
    (hunused : host.Unused choices.cleared) :
    (clearLoop loopMajor.toUInt64 choices.free.toUInt64 device.diskseq).run
        (reply choices i) host =
      (.ok (), host.renew choices.free
        ⟨choices.cleared, none, false, false⟩ none) := by
  let claimed := host.claim i choices.device
  have hopen : reply choices i (.openLoop choices.free false) host =
      (.ok choices.device, claimed) :=
    reply_openLoop hnode hlink ⟨device, hloop⟩ hclaim
  have hstat : reply choices i (.fstat choices.device) claimed =
      (.ok ⟨.block, loopMajor, choices.free⟩, claimed) := rfl
  have hnumber : reply choices i (.getDiskseq choices.device) claimed =
      (.ok device.diskseq, claimed) := by
    simp [reply, Host.diskseqOf, Choices.device, Host.claim, claimed, hloop]
  have hclear : reply choices i (.loopClrFd choices.device) claimed =
      (none, claimed.clearing choices.free device) := by
    simp [reply, Host.clear, Choices.device, Host.claim, claimed, hloop,
      hbound, Host.clearing]
  have hclose : reply choices i (.closeLoop choices.device)
      (claimed.clearing choices.free device) =
        (none, host.renew choices.free
          ⟨choices.cleared, none, false, false⟩ none) := by
    have hfree : host.Unclaimed choices.device := by
      intro n hn
      cases hn
      exact hclaim
    have hrelease : (claimed.clearing choices.free device).release i
        choices.device = host.clearing choices.free device :=
      congrArg (Host.clearing choices.free device) (Host.release_claim hfree)
    simp only [reply, if_pos]
    rw [hrelease, Host.closed_clearing hclaim halone hunused]
  rw [clearLoop, plain_bind, UInt32.toUInt32_toUInt64,
    UInt32.toUInt32_toUInt64, run_request_bind, hopen, valueOrErr,
    pure_bind_script, run_request_bind, hstat, valueOrErr, pure_bind_script]
  simp only [ne_eq, not_true_eq_false, if_false]
  rw [run_request_bind, hnumber, valueOrErr, pure_bind_script]
  simp only [not_true_eq_false, if_false]
  rw [run_request_bind, hclear]
  simp only
  rw [run_request_bind, hclose]
  rfl

theorem run_removeDevice
    (h : Attachable xsPath choices i data ino writable host)
    (hdetach : Detachable choices host) :
    (removeDevice xsPath).run (reply choices i)
        (host.attached xsPath choices i ino writable) =
      (.ok (), host.detached xsPath choices i ino writable) := by
  obtain ⟨hphysical, hpath, hdiskseq, hparams⟩ :=
    @commit_managed xsPath (physDevText loopMajor choices.free)
      (loopPath choices.free) (write 16 choices.diskseq.toNat) host.store
  have hname : data ≠ loopPath choices.free := by
    rintro rfl
    have hboth := h.file.symm.trans h.node
    cases hboth
  let first := (host.attached xsPath choices i ino writable).without
    (key xsPath .physicalDevice)
  let second := first.without (key xsPath .diskseq)
  have hstill : ∀ {entry : Entry}, .physicalDevice ≠ entry →
      .diskseq ≠ entry → second.store (key xsPath entry) =
        (host.attached xsPath choices i ino writable).store
          (key xsPath entry) := by
    intro entry hphysical hdiskseq
    rw [Host.without_store hdiskseq, Host.without_store hphysical]
  have hmajor : ¬ (loopMajor.toUInt64 ≠ LOOP_MAJOR) := by decide
  have hseq : first.store (key xsPath .diskseq) =
      some (write 16 choices.diskseq.toNat) :=
    (Host.without_store (by decide)).trans hdiskseq
  have hdevicePath : second.store (key xsPath .physicalDevicePath) =
      some (loopPath choices.free) :=
    (hstill (by decide) (by decide)).trans hpath
  have hdata : second.store (key xsPath .params) = some data :=
    (hstill (by decide) (by decide)).trans (hparams.trans h.params)
  rw [removeDevice, read_bind hphysical, rm_bind, parsePhysicalDevice_text,
    liftRemoval, pure_bind_script]
  simp only
  rw [read_bind hseq, rm_bind, parseDiskseq_text, liftRemoval,
    pure_bind_script, if_neg hmajor, read_bind hdevicePath, read_bind hdata,
    if_neg hname]
  exact @run_clearLoop ι _ choices i second (choices.loop ino writable)
    h.node h.noLink (Function.update_self _ _ _) (Option.some_ne_none ino)
    h.unclaimed hdetach.alone
    ((Function.update_of_ne hdetach.distinct _ _).trans hdetach.unused)

/-! One after the other. -/

theorem exit_idle (hpending : host.pending i = [])
    (hclaims : ∀ n, host.claims n ≠ some i) (hlock : host.lock = none) :
    (reply choices i .exit host).2 = host := by
  have hpending' : Function.update host.pending i [] = host.pending := by
    rw [← hpending, Function.update_eq_self]
  have hclaims' : (fun n => if host.claims n = some i then none
      else host.claims n) = host.claims :=
    funext fun n => if_neg (hclaims n)
  have hlock' : (if host.lock = some i then none else host.lock) =
      host.lock := by
    rw [hlock]
    rfl
  simp only [reply, if_neg (hclaims choices.free), Host.ended, hpending',
    hclaims', hlock']

/-- The claim and the transaction end with the process. -/
theorem ended_attach
    (h : Attachable xsPath choices i data ino writable host) :
    Host.ended i { host.withLoop choices i ino writable with
      store := (host.attached xsPath choices i ino writable).store
      pending := Function.update host.pending i [] } =
        host.attached xsPath choices i ino writable := by
  have hfree : host.Unclaimed choices.device := by
    intro n hn
    cases hn
    exact h.unclaimed
  have hclaims : (fun n =>
      if (host.claim i choices.device).claims n = some i then none
      else (host.claim i choices.device).claims n) = host.claims := by
    funext n
    by_cases hobject : choices.device = .block loopMajor n
    · simp [Host.claim, hobject, hfree n hobject]
    · simp [Host.claim, hobject, h.nothingClaimed n]
  have hpending : Function.update (Function.update host.pending i []) i [] =
      host.pending := by
    rw [Function.update_idem, ← h.nothingPending, Function.update_eq_self]
  have hlock : (if host.lock = some i then none else host.lock) =
      host.lock := by
    rw [h.unlocked]
    rfl
  calc _ = { host.attached xsPath choices i ino writable with
        pending := Function.update (Function.update host.pending i []) i []
        claims := fun n =>
          if (host.claim i choices.device).claims n = some i then none
          else (host.claim i choices.device).claims n
        lock := if host.lock = some i then none else host.lock } := rfl
    _ = _ := by
      rw [hpending, hclaims, hlock]
      rfl

omit [DecidableEq ι] in
/-- The device stays set up. -/
theorem closed_attached :
    (host.attached xsPath choices i ino writable).closed choices =
      host.attached xsPath choices i ino writable :=
  if_neg (by simp [Host.attached, Choices.loop])

theorem exit_attach (h : Attachable xsPath choices i data ino writable host) :
    (reply choices i .exit { host.withLoop choices i ino writable with
      store := (host.attached xsPath choices i ino writable).store
      pending := Function.update host.pending i [] }).2 =
        host.attached xsPath choices i ino writable := by
  have hclaim : (host.withLoop choices i ino writable).claims choices.free =
      some i := if_pos rfl
  simp only [reply, if_pos hclaim]
  rw [ended_attach h, closed_attached]

/-- A process that comes to its end, and what is behind it. -/
theorem run_serve {fuel : Nat} {invocation : Invocation}
    {rest : List Invocation}
    (h : (main fuel invocation).run (reply choices i) host =
      (.ok (), after)) :
    (serve fuel (invocation :: rest)).run (reply choices i) host =
      (serve fuel rest).run (reply choices i)
        (reply choices i .exit after).2 := by
  rw [serve, Program.run_bind (Program.run_outcome h)]
  rfl

/-- A file is published as a loop device, and nothing else has changed; and
when it is taken down, the loop device is free again, as another disk, and
nothing is left of it but the path. -/
theorem add_then_remove
    (h : Attachable xsPath choices i data ino writable host)
    (hdetach : Detachable choices host) (fuel : Nat) :
    (serve (fuel + 1) [invoke xsPath "add"]).run (reply choices i) host =
        (.ok (), host.attached xsPath choices i ino writable) ∧
      (serve (fuel + 1) [invoke xsPath "add", invoke xsPath "remove"]).run
          (reply choices i) host =
        (.ok (), host.detached xsPath choices i ino writable) := by
  have hadd : ∀ rest, (serve (fuel + 1) (invoke xsPath "add" :: rest)).run
      (reply choices i) host = (serve (fuel + 1) rest).run
        (reply choices i) (host.attached xsPath choices i ino writable) := by
    intro rest
    rw [run_serve ((main_add (fuel + 1)).trans (run_attach h fuel)),
      exit_attach h]
  have hremove := (@main_remove ι _ choices i _ xsPath (fuel + 1)).trans
    (run_removeDevice h hdetach)
  refine ⟨hadd [], ?_⟩
  rw [hadd, run_serve hremove, @exit_idle ι _ choices i
    (host.detached xsPath choices i ino writable) h.nothingPending
      h.nothingClaimed h.unlocked]
  rfl

end

/-! A host with two backends. -/

def smallPath (second : Bool) : List UInt8 :=
  if second then text "/vbd/2" else text "/vbd/1"

def smallChoices : Choices := ⟨0, 2, 3, false, []⟩

/-- Both have a file, and one loop device is free. -/
def smallHost : Host Bool where
  store path :=
    if path = key (smallPath false) .params then some (text "/a")
    else if path = key (smallPath true) .params then some (text "/b")
    else if path = key (smallPath true) .mode then some (text "w")
    else none
  pending _ := []
  paths path :=
    if path = text "/a" then some (.regular 1)
    else if path = text "/b" then some (.regular 2)
    else if path = loopPath 0 then some (.block loopMajor 0)
    else none
  symlinks _ := false
  loops n := if n = 0 then some ⟨1, none, false, false⟩ else none
  disks diskseq := if diskseq = 1 then some (0, none) else none
  claims _ := none
  lock := none

theorem smallHost_attachable :
    Attachable (smallPath true) smallChoices true (text "/b") 2 true
      smallHost where
  params := by decide
  noNul := by decide
  absolute := by decide
  mode := Or.inr (Or.inr ⟨by decide, rfl⟩)
  file := by decide
  free := ⟨⟨1, none, false, false⟩, by decide, rfl⟩
  node := by decide
  noLink := rfl
  unclaimed := rfl
  unused := show smallHost.disks smallChoices.diskseq = none by decide
  unlocked := rfl
  nothingPending := rfl
  nothingClaimed := fun _ => (Option.some_ne_none true).symm

theorem smallHost_detachable : Detachable smallChoices smallHost where
  alone := rfl
  unused := show smallHost.disks smallChoices.cleared = none by decide
  distinct := by decide

theorem add_then_remove_smallHost :
    (serve 1 [invoke (smallPath true) "add"]).run (reply smallChoices true)
        smallHost =
      (.ok (), smallHost.attached (smallPath true) smallChoices true 2
        true) ∧
    (serve 1 [invoke (smallPath true) "add",
      invoke (smallPath true) "remove"]).run (reply smallChoices true)
        smallHost =
      (.ok (), smallHost.detached (smallPath true) smallChoices true 2
        true) :=
  add_then_remove smallHost_attachable smallHost_detachable 0

def smallBackends : Backends Bool where
  state := smallHost
  history _ := []
  programs second :=
    serve 1 [invoke (smallPath second) "add",
      invoke (smallPath second) "remove"]

theorem smallPath_separate : Separate smallPath := by
  intro i j hij
  cases i <;> cases j <;> first | exact absurd rfl hij | decide

theorem smallBackends_starts : Starts smallPath smallBackends where
  consistent :=
    { named := fun n device hloop => by
        simp only [smallBackends, smallHost] at hloop ⊢
        split at hloop
        · rename_i hn
          subst hn
          obtain rfl := Option.some.inj hloop
          exact ⟨none, rfl⟩
        · cases hloop
      there := fun n hclaim => absurd rfl hclaim
      pendingOwn := fun _ _ hwrite => absurd hwrite List.not_mem_nil }
  withdrawn i := by cases i <;> decide
  history _ := rfl
  serves i := ⟨1, _, rfl, fun invocation hmem xsPath hpath => by
    rcases List.mem_cons.mp hmem with rfl | hmem
    · exact (Option.some.inj hpath).symm
    · obtain rfl := List.mem_singleton.mp hmem
      exact (Option.some.inj hpath).symm⟩

/-- So many calls of the second backend. -/
def smallRun (calls : Nat) : Backends Bool :=
  smallBackends.advance (reply smallChoices) true calls

theorem smallRun_reachable (calls : Nat) :
    Reachable Answers (Disturbs smallPath) smallBackends (smallRun calls) :=
  advance_reachable (reply_answers smallChoices) true calls smallBackends

/-- The second backend has added its file. -/
theorem published_whole_smallRun :
    (smallRun 27).state.store (key (smallPath true) .physicalDevice) =
        some (text "7:0") ∧
      PublishedWhole smallPath true (smallRun 27).state
        ((smallRun 27).history true) :=
  ⟨by decide +kernel, published_whole smallPath_separate
    smallBackends_starts (smallRun_reachable 27) true⟩

/-- It looks for a loop device. -/
theorem setUp_exclusive_smallRun :
    (smallRun 12).state.lock = some true ∧
      ∀ j (c : Call) (next : Answer c → Program Call Answer Unit Unit),
        SetsUp c = true → (smallRun 12).programs j = .call c next →
          j = true := by
  have hpending : ((smallRun 12).programs true).pending =
      some (.loopCtl false) := by
    decide +kernel
  obtain ⟨next, habout⟩ := Program.pending_eq_some hpending
  exact setUp_exclusive smallPath_separate smallBackends_starts
    (smallRun_reachable 12) rfl habout

/-- It is about to give the loop device up. -/
theorem detaches_own_smallRun :
    MayDetach smallPath true (.block loopMajor 0) (smallRun 42).state
      ((smallRun 42).history true) := by
  have hpending : ((smallRun 42).programs true).pending =
      some (.loopClrFd (.block loopMajor 0)) := by
    decide +kernel
  obtain ⟨next, habout⟩ := Program.pending_eq_some hpending
  exact detaches_own smallPath_separate smallBackends_starts
    (smallRun_reachable 42) habout

end QubesUtils.NotScript
