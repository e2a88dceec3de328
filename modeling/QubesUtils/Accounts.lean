/-
The limits of a transfer as the receiver checks them: at every point of a run
the counters agree with the exact sums, so that each check decides as it would
with numbers of any size, and what has been let through is within the limits.
-/
import QubesUtils.Points
import QubesUtils.RefusedEntry

namespace QubesUtils

open Hoare Process ByteCodec FileSystem

/-! What is counted at a point. -/

/-- The entries that are handed over at a point. -/
def Point.entries : Point → UInt64
  | .handed _ => 1
  | _ => 0

/-- The size that has been added to the total right in front of a point. -/
def Point.size : Point → UInt64
  | .copying hdr _ _ => hdr.filelen
  | .raised hdr _ => hdr.filelen
  | .reopened _ _ _ size => size
  | _ => 0

/-- The size of what is received from a point on. -/
def Point.content : Point → UInt64
  | .copying hdr _ _ => hdr.filelen
  | .reading hdr _ => hdr.filelen
  | _ => 0

/-- What has been added and not been checked. -/
def Point.unchecked : Point → UInt64
  | .raised hdr _ => hdr.filelen
  | _ => 0

/-- The exact sum of a quantity over the points that were passed. -/
def tally (f : Point → UInt64) : List Point → Nat
  | [] => 0
  | p :: trail => (f p).toNat + tally f trail

theorem tally_concat (f : Point → UInt64) (trail : List Point) (p : Point) :
    tally f (trail ++ [p]) = tally f trail + (f p).toNat := by
  induction trail with
  | nil => exact Nat.add_comm _ _
  | cons first trail ih =>
      rw [List.cons_append, tally, ih, tally, Nat.add_assoc]

/-- Calls of `process_one_file`. -/
def handed (trail : List Point) : Nat := tally Point.entries trail

/-- All sizes that were added to the total. -/
def accounted (trail : List Point) : Nat := tally Point.size trail

/-- The sizes of the files whose copies were started and of the links whose
targets were read. -/
def received (trail : List Point) : Nat := tally Point.content trail

/-! The counters. -/

structure Counters (total files : UInt64) (u : Unpacker) : Prop where
  totalBytes : u.totalBytes = total
  totalFiles : u.totalFiles = files

section

variable {total files : UInt64} {limits : Limits} {flags : Flags}
  {hdr : FileHeader}

theorem perform_counters {α : Type} (call : FileSystem → Outcome →
    Except Errno (α × Effect × FileSystem)) :
    Preserves (OnStatics (Counters total files)) (perform call) :=
  Triple.post_mono (perform_triple fun _ _ _ _ _ h _ => ⟨h.1, h.2⟩)
    fun _ _ h => h.same

theorem openOutput_counters (dir : Path) (segment : Name) (name : CString) :
    Preserves (OnStatics (Counters total files))
      (openOutput dir segment name) := by
  have htmpfile : Preserves (OnStatics (Counters total files))
      (tryTmpfile dir name) := by
    refine .get_bind fun w => .ite ?_ (.ret _)
    refine (perform_counters _).bind fun result => ?_
    cases result with
    | some ino => exact .ret _
    | none =>
        have hset : Preserves (OnStatics (Counters total files))
            (setUseTmpfile false) := .modify fun _ h => ⟨h.1, h.2⟩
        exact .get_bind fun w => .ite (hset.bind fun _ => .ret _)
          (doExitErrno_triple _)
  refine htmpfile.bind fun result => ?_
  cases result with
  | some ino => exact .ret _
  | none =>
      refine (perform_counters _).bind fun result => ?_
      cases result with
      | some ino => exact .ret _
      | none => exact doExitErrno_triple _

theorem openFile_counters (name : CString) :
    Preserves (OnStatics (Counters total files))
      (openFile limits name flags) := by
  refine (liftFault_preserves _).bind fun ret => .ite (doExit_triple _ _) ?_
  refine (strdup_statics name).bind fun _ => .get_bind fun w => ?_
  exact (opendirSafe_statics _ _).bind fun place =>
    (openOutput_counters _ _ _).bind fun fdout => .ret _

theorem statDir_counters (name : CString) :
    Preserves (OnStatics (Counters total files))
      (statDir limits name flags) := by
  refine (liftFault_preserves _).bind fun rc => .ite (doExit_triple _ _) ?_
  refine (strdup_statics name).bind fun _ => .get_bind fun w => ?_
  refine (opendirSafe_statics _ _).bind fun place => ?_
  refine (perform_counters _).bind fun made => ?_
  cases made with
  | some _ => exact .ret _
  | none =>
      refine .get_bind fun w => .ite (doExitErrno_triple _) ?_
      refine (openDir_statics _ _).bind fun opened => ?_
      cases opened with
      | none => exact doExitErrno_triple _
      | some path =>
          refine Preserves.bind attempt_stable fun stat => ?_
          cases stat with
          | none => exact doExitErrno_triple _
          | some stat => exact .ret _

theorem fixTimesAndPerms_counters (object : Object) (name : CString) :
    Preserves (OnStatics (Counters total files))
      (fixTimesAndPerms object hdr name) :=
  fixTimesAndPerms_preserves (fun _ _ _ _ => perform_counters _) hdr name

theorem copyContent_counters (name : List UInt8)
    (output : Nat × Path × Name) :
    Preserves (OnStatics (Counters total files))
      (copyContent hdr name output) := by
  refine (copyFileLoop_preserves retryInterrupted_stable read_stable
    (fun data => addCrc_stable data) (fun data => perform_counters _) _
      _).bind fun status => ?_
  have hcheck : Preserves (OnStatics (Counters total files))
      (checkCopy (CString.ofBuffer name) status) := by
    cases status with
    | ok => exact .ret _
    | readEof => exact doExit_triple _ _
    | readError => exact doExit_triple _ _
    | writeError => exact doExitErrno_triple _
  refine hcheck.bind fun _ => ?_
  have hname : Preserves (OnStatics (Counters total files))
      (nameOrExit (CString.ofBuffer name) output.1 output.2.1 output.2.2) := by
    have hlink : Preserves (OnStatics (Counters total files))
        (nameOutput output.1 output.2.1 output.2.2) :=
      .get_bind fun _ => .ite (perform_counters _) (.ret _)
    refine hlink.bind fun result => ?_
    cases result with
    | none => exact doExitErrno_triple _
    | some _ => exact .ret _
  exact hname.bind fun fdout => fixTimesAndPerms_counters _ _

theorem readTarget_counters (name : List UInt8) :
    Preserves (OnStatics (Counters total files)) (readTarget hdr name) := by
  refine (readAllWithCrc_stable _).bind fun result => ?_
  cases result with
  | none => exact doExit_triple _ _
  | some bytes => exact .ret _

theorem linkTarget_counters (name content : CString) :
    Preserves (OnStatics (Counters total files))
      (linkTarget limits name flags content) := by
  refine (liftFault_preserves _).bind fun rc => .ite (doExit_triple _ _) ?_
  refine (strdup_statics name).bind fun _ => .get_bind fun w => ?_
  refine (opendirSafe_statics _ _).bind fun place => ?_
  refine (perform_counters _).bind fun made => ?_
  cases made with
  | none => exact doExitErrno_triple _
  | some _ => exact .ret _

theorem receiveName_counters :
    Preserves (OnStatics (Counters total files)) (receiveName hdr) := by
  refine .ite (doExit_triple _ _) ?_
  refine (readAllWithCrc_stable _).bind fun result => ?_
  cases result with
  | none => exact doExit_triple _ _
  | some bytes =>
      have hbegin : Preserves (OnStatics (Counters total files))
          (beginEntry (CString.ofBuffer bytes)) :=
        .modify fun _ h => ⟨h.1, h.2⟩
      exact hbegin.bind fun _ => .ret _

/-! From point to point. -/

/-- What has been found out in front of a point, with the counters as they
were. -/
def Passed (limits : Limits) (total files : UInt64) (p : Point) :
    Point → Prop
  | .handed _ => limits.filesLimit ≠ 0 → files + 1 ≤ limits.filesLimit
  | .copying hdr _ _ => ¬ OverQuota limits hdr.filelen total
  | .reading hdr name => p = .raised hdr name ∧
      (limits.bytesLimit ≠ 0 → total ≤ limits.bytesLimit)
  | _ => True

/-- A step of a run: the checks have been passed, and the counters are raised
by what is counted at the next point. -/
def Counted (limits : Limits) (total files : UInt64) (p p' : Point)
    (w : World Unpacker) : Prop :=
  Passed limits total files p p' ∧
    OnStatics (Counters (total + p'.size) (files + p'.entries)) w

theorem addTotalBytes_counters (count : UInt64)
    {E : Exit → World Unpacker → Prop} :
    Triple (OnStatics (Counters total files)) (addTotalBytes count)
      (fun _ => OnStatics (Counters (total + count) files)) E :=
  .modify fun _ h => ⟨congrArg (· + count) h.totalBytes, h.totalFiles⟩

/-- A point at which nothing is counted. -/
theorem Counted.same {p p' : Point} {w : World Unpacker}
    (hpassed : Passed limits total files p p') (hsize : p'.size = 0)
    (hentries : p'.entries = 0) (h : OnStatics (Counters total files) w) :
    Counted limits total files p p' w := by
  refine ⟨hpassed, ?_⟩
  rw [hsize, hentries, UInt64.add_zero, UInt64.add_zero]
  exact h

/-- A point at which a size is counted. -/
theorem Counted.sized {p p' : Point} {w : World Unpacker}
    (hpassed : Passed limits total files p p') (hentries : p'.entries = 0)
    (h : OnStatics (Counters (total + p'.size) files) w) :
    Counted limits total files p p' w := by
  refine ⟨hpassed, ?_⟩
  rw [hentries, UInt64.add_zero]
  exact h

variable {E : Exit → World Unpacker → Prop}

theorem finishEntry_counted {p : Point} (name : List UInt8) :
    Triple (OnStatics (Counters total files)) (finishEntry hdr name)
      (Counted limits total files p) E :=
  (emit_stable _).bind fun _ => .ret fun _ h => .same trivial rfl rfl h

theorem nextHeader_counted :
    Triple (OnStatics (Counters total files)) (nextHeader limits)
      (Counted limits total files .between) fun _ _ => True := by
  refine (readAllWithCrc_stable _).forget_exit.bind fun result => ?_
  cases result with
  | none => exact .ret fun _ h => .same trivial rfl rfl h
  | some bytes =>
      refine .ite (fun _ => (setErrno_stable _).bind fun _ =>
        .ret fun _ h => .same trivial rfl rfl h) fun _ => ?_
      have hcount : Triple (OnStatics (Counters total files)) countFile
          (fun _ => OnStatics (Counters total (files + 1)))
          fun _ _ => True :=
        .modify fun _ h => ⟨h.totalBytes, congrArg (· + 1) h.totalFiles⟩
      refine hcount.bind fun _ => .get_bind fun w hw =>
        .ite (fun _ => (doExit_triple _ _).forget_exit.from_state hw)
          fun hchecked => .ret fun _ h => ⟨fun hlimit => ?_, ?_⟩
      · rw [← hw.totalFiles]
        exact UInt64.not_lt.mp fun hover => hchecked ⟨hlimit, hover⟩
      · rw [h]
        change OnStatics (Counters (total + 0) (files + 1)) w
        rw [UInt64.add_zero]
        exact hw

theorem checkSize_counted (name : List UInt8) (output : Nat × Path × Name) :
    Triple (OnStatics (Counters total files))
      (checkSize limits hdr name output)
      (Counted limits total files (.opened hdr name output))
      fun _ _ => True := by
  have hquota : Triple (OnStatics (Counters total files))
      (checkQuota limits hdr.filelen (CString.ofBuffer name))
      (fun _ w => OnStatics (Counters total files) w ∧
        ¬ OverQuota limits hdr.filelen total) fun _ _ => True := by
    refine .get_bind fun w hw => ?_
    rw [hw.totalBytes]
    refine .ite (fun _ => (doExit_triple _ _).forget_exit.from_state hw)
      fun hfirst => .ite
        (fun _ => (doExit_triple _ _).forget_exit.from_state hw)
        fun hsecond => .ret fun _ h => h ▸ ⟨hw, fun hover => ?_⟩
    exact hsecond ((or_assoc.mpr hover).resolve_left hfirst)
  refine hquota.bind fun _ => Triple.assume (fun _ h => h.2) fun hfits => ?_
  refine ((reserveSpace_statics limits _).forget_exit.pre_mono
    fun _ h => h.1).bind fun _ => ?_
  exact (addTotalBytes_counters _).bind fun _ => .ret fun _ h =>
    .sized hfits rfl h

theorem dispatch_counted (name : List UInt8) :
    Triple (OnStatics (Counters total files)) (dispatch limits flags hdr name)
      (Counted limits total files (.handed hdr)) fun _ _ => True := by
  refine .ite (fun _ => ?_) fun _ => .ite (fun _ => ?_) fun _ =>
    .ite (fun _ => ?_) fun _ => (doExit_triple _ _).forget_exit
  · exact (openFile_counters _).forget_exit.bind fun output =>
      .ret fun _ h => .same trivial rfl rfl h
  · exact .ite (fun _ => (doExit_triple _ _).forget_exit) fun _ =>
      (addTotalBytes_counters _).bind fun _ => .ret fun _ h =>
        .sized trivial rfl h
  · refine (statDir_counters _).forget_exit.bind fun found => ?_
    cases found with
    | none => exact finishEntry_counted name
    | some place =>
        exact (addTotalBytes_counters _).bind fun _ => .ret fun _ h =>
          .sized trivial rfl h

theorem checkTotal_counted (name : List UInt8) :
    Triple (OnStatics (Counters total files)) (checkTotal limits hdr name)
      (Counted limits total files (.raised hdr name)) fun _ _ => True := by
  refine .get_bind fun w hw => .ite
    (fun _ => (doExit_triple _ _).forget_exit.from_state hw)
    fun hchecked => .ret fun _ h => h ▸ .same ⟨rfl, fun hlimit => ?_⟩ rfl rfl hw
  rw [← hw.totalBytes]
  exact UInt64.not_lt.mp fun hover => hchecked ⟨hlimit, hover⟩

/-- From every point the counters go along with what is counted. -/
theorem advance_counted (p : Point) :
    Triple (OnStatics (Counters total files)) (advance limits flags p)
      (Counted limits total files p) fun _ _ => True := by
  cases p with
  | between => exact nextHeader_counted
  | ended seen => exact .ret fun _ h => .same trivial rfl rfl h
  | handed hdr =>
      exact receiveName_counters.forget_exit.bind fun name =>
        dispatch_counted name
  | opened hdr name output => exact checkSize_counted name output
  | copying hdr name output =>
      exact (copyContent_counters name output).forget_exit.bind fun _ =>
        finishEntry_counted name
  | raised hdr name => exact checkTotal_counted name
  | reading hdr name =>
      exact (readTarget_counters name).forget_exit.bind fun content =>
        (linkTarget_counters _ content).forget_exit.bind fun _ =>
          finishEntry_counted name
  | reopened hdr name path size =>
      exact (fixTimesAndPerms_counters _ _).forget_exit.bind fun _ =>
        finishEntry_counted name

end

/-! Checks. -/

/-- The limit on the total decides as it would with numbers of any size, when
the total is exact. -/
theorem overQuota_iff {limits : Limits} {filelen total : UInt64}
    (hlimit : limits.bytesLimit ≠ 0) :
    OverQuota limits filelen total ↔ 2 ^ 63 ≤ filelen.toNat ∨
      limits.bytesLimit.toNat < total.toNat + filelen.toNat := by
  rw [OverQuota, gt_iff_lt, gt_iff_lt, UInt64.lt_iff_toNat_lt,
    UInt64.lt_iff_toNat_lt]
  by_cases hfits : filelen ≤ limits.bytesLimit
  · have hle := UInt64.le_iff_toNat_le.mp hfits
    rw [UInt64.toNat_sub_of_le _ _ hfits]
    simp only [hlimit, ne_eq, not_false_eq_true, true_and]
    omega
  · have hover := UInt64.lt_iff_toNat_lt.mp (UInt64.not_le.mp hfits)
    simp only [hlimit, ne_eq, not_false_eq_true, true_and]
    omega

section

variable {limits : Limits} {flags : Flags} {hdr : FileHeader}
  {w w₁ : World Unpacker}

theorem nextHeader_iff {bytes : List UInt8}
    (hread : (readAllWithCrc fileHeaderCodec.width).run w =
      .ok (some bytes) w₁) (hnamed : (fileHeaderCodec.get bytes).namelen ≠ 0) :
    (∃ w₂, (nextHeader limits).run w =
        .ok (.handed (fileHeaderCodec.get bytes)) w₂) ↔
      (limits.filesLimit ≠ 0 →
        w.statics.totalFiles + 1 ≤ limits.filesLimit) := by
  have hstatics : w₁.statics = w.statics :=
    (readAllWithCrc_stable (I := OnStatics (· = w.statics)) _).run_ok rfl hread
  have hcount : (countFile : Unpack Unit).run w₁ = .ok () { w₁ with
      statics := { w₁.statics with
        totalFiles := w.statics.totalFiles + 1 } } := by
    rw [← hstatics]
    rfl
  rw [nextHeader, EStateM.run_bind, hread]
  simp only [if_neg hnamed]
  rw [EStateM.run_bind, hcount]
  simp only
  rw [EStateM.run_bind, EStateM.run_get]
  simp only
  by_cases hover : limits.filesLimit ≠ 0 ∧
      w.statics.totalFiles + 1 > limits.filesLimit
  · rw [if_pos hover]
    obtain ⟨w₂, hexit, _⟩ := @doExit_ends Point (UInt32.ofNat EDQUOT)
      (some w₁.statics.untrustedNamebuf) { w₁ with
        statics := { w₁.statics with
          totalFiles := w.statics.totalFiles + 1 } }
    rw [hexit]
    constructor
    · rintro ⟨_, h⟩
      cases h
    · intro h
      exact absurd hover.2 (UInt64.not_lt.mpr (h hover.1))
  · rw [if_neg hover]
    exact ⟨fun _ hlimit => UInt64.not_lt.mp fun h => hover ⟨hlimit, h⟩,
      fun _ => ⟨_, rfl⟩⟩

theorem checkSize_iff (name : List UInt8) (output : Nat × Path × Name) :
    (∃ w₂, (checkSize limits hdr name output).run w =
        .ok (.copying hdr name output) w₂) ↔
      ¬ OverQuota limits hdr.filelen w.statics.totalBytes := by
  rw [checkSize, EStateM.run_bind]
  by_cases hover : OverQuota limits hdr.filelen w.statics.totalBytes
  · obtain ⟨w₂, hexit, _⟩ := @doExit_ends Unit (UInt32.ofNat EDQUOT)
      (some (CString.ofBuffer name)) w
    rw [checkQuota_over hover, hexit]
    constructor
    · rintro ⟨_, h⟩
      cases h
    · exact fun h => absurd hover h
  · refine ⟨fun _ => hover, fun _ => ?_⟩
    have hfits : (checkQuota limits hdr.filelen
        (CString.ofBuffer name)).run w = .ok () w := by
      rw [checkQuota, EStateM.run_bind, EStateM.run_get]
      simp only
      rw [if_neg fun h => hover (or_assoc.mp (Or.inl h)),
        if_neg fun h => hover (Or.inr (Or.inr h))]
      rfl
    rw [hfits]
    simp only
    have hrest : Triple (· = w) (reserveSpace limits hdr.filelen >>=
        fun _ => addTotalBytes hdr.filelen >>= fun _ =>
          pure (Point.copying hdr name output))
        (fun p _ => p = .copying hdr name output) fun _ _ => False := by
      have hreserve : Triple (· = w) (reserveSpace limits hdr.filelen)
          (fun _ _ => True) fun _ _ => False :=
        .ite (fun _ => .modify fun _ _ => trivial) fun _ =>
          .ret fun _ _ => trivial
      have hadd : Triple (fun _ => True) (addTotalBytes hdr.filelen)
          (fun _ _ => True) fun _ _ => False := .modify fun _ _ => trivial
      exact hreserve.bind fun _ => hadd.bind fun _ => .ret fun _ _ => rfl
    obtain ⟨p, w₂, hrun, rfl⟩ := hrest.exists_ok rfl
    exact ⟨w₂, hrun⟩

theorem checkTotal_iff (name : List UInt8) :
    (∃ w₂, (checkTotal limits hdr name).run w =
        .ok (.reading hdr name) w₂) ↔
      (limits.bytesLimit ≠ 0 →
        w.statics.totalBytes ≤ limits.bytesLimit) := by
  rw [checkTotal, EStateM.run_bind, EStateM.run_get]
  simp only
  by_cases hover : limits.bytesLimit ≠ 0 ∧
      w.statics.totalBytes > limits.bytesLimit
  · obtain ⟨w₂, hexit, _⟩ := @doExit_ends Point (UInt32.ofNat EDQUOT)
      (some (CString.ofBuffer name)) w
    rw [if_pos hover, hexit]
    constructor
    · rintro ⟨_, h⟩
      cases h
    · intro h
      exact absurd hover.2 (UInt64.not_lt.mpr (h hover.1))
  · rw [if_neg hover]
    exact ⟨fun _ hlimit => UInt64.not_lt.mp fun h => hover ⟨hlimit, h⟩,
      fun _ => ⟨_, rfl⟩⟩

end

/-! Runs. -/

/-- So many entries can be counted: the counter does not wrap around, or the
limit stops it before. -/
def CanCount (limits : Limits) (entries : Nat) : Prop :=
  limits.filesLimit.toNat + 1 < 2 ^ 64 ∨ entries < 2 ^ 64

/-- What has been let through is within the limits, and the counters are the
exact sums. -/
structure Balanced (limits : Limits) (trail : List Point) (u : Unpacker) :
    Prop where
  content : received trail ≤ limits.bytesLimit.toNat
  entries : limits.filesLimit ≠ 0 → handed trail ≤ limits.filesLimit.toNat
  lengths : ∀ hdr name output, Point.copying hdr name output ∈ trail →
    hdr.filelen.toNat < 2 ^ 63
  totalBytes : u.totalBytes.toNat = accounted trail
  totalFiles : limits.filesLimit ≠ 0 → u.totalFiles.toNat = handed trail

/-- The check that comes next decides as it would with numbers of any size. -/
structure DecidesExactly (limits : Limits) (flags : Flags)
    (trail : List Point) (p : Point) (w : World Unpacker) : Prop where
  entry : p = .between → CanCount limits (handed trail + 1) → ∀ bytes w₁,
    (readAllWithCrc fileHeaderCodec.width).run w = .ok (some bytes) w₁ →
    (fileHeaderCodec.get bytes).namelen ≠ 0 →
      ((∃ w₂, (advance limits flags p).run w =
          .ok (.handed (fileHeaderCodec.get bytes)) w₂) ↔
        (limits.filesLimit ≠ 0 →
          handed trail + 1 ≤ limits.filesLimit.toNat))
  file : ∀ hdr name output, p = .opened hdr name output →
    ((∃ w₂, (advance limits flags p).run w =
        .ok (.copying hdr name output) w₂) ↔
      hdr.filelen.toNat < 2 ^ 63 ∧
        accounted trail + hdr.filelen.toNat ≤ limits.bytesLimit.toNat)
  link : ∀ hdr name, p = .raised hdr name →
    ((∃ w₂, (advance limits flags p).run w = .ok (.reading hdr name) w₂) ↔
      accounted trail ≤ limits.bytesLimit.toNat)

section

variable {limits : Limits} {flags : Flags} {w w' : World Unpacker}
  {trail : List Point} {p : Point}

theorem CanCount.mono {n m : Nat} (h : CanCount limits m) (hle : n ≤ m) :
    CanCount limits n :=
  h.imp id fun hm => Nat.lt_of_le_of_lt hle hm

theorem Reaches.counters (h : Reaches limits flags w.started trail p w') :
    OnStatics (Counters (UInt64.ofNat (accounted trail))
      (UInt64.ofNat (handed trail))) w' := by
  induction h with
  | start => exact ⟨rfl, rfl⟩
  | @step trail p p' w₁ w₂ _ hrun ih =>
      obtain ⟨_, hcounters⟩ :=
        (@advance_counted _ _ limits flags p).run_ok ih hrun
      rw [accounted, handed, tally_concat, tally_concat, UInt64.ofNat_add,
        UInt64.ofNat_add, UInt64.ofNat_toNat, UInt64.ofNat_toNat]
      exact hcounters

/-- What the last step has found out. -/
theorem Reaches.passed {p' : Point} {w₂ : World Unpacker}
    (h : Reaches limits flags w.started trail p w')
    (hrun : (advance limits flags p).run w' = .ok p' w₂) :
    Passed limits (UInt64.ofNat (accounted trail))
      (UInt64.ofNat (handed trail)) p p' :=
  ((@advance_counted _ _ limits flags p).run_ok h.counters hrun).1

/-- What is received has been accounted for. -/
theorem Reaches.received_le (h : Reaches limits flags w.started trail p w') :
    received trail + p.unchecked.toNat ≤ accounted trail := by
  induction h with
  | start => exact Nat.le_refl _
  | @step trail p p' w₁ w₂ hreaches hrun ih =>
      have hpassed := hreaches.passed hrun
      rw [received, accounted, tally_concat, tally_concat]
      rw [received, accounted] at ih
      cases p' with
      | copying hdr name output =>
          simp only [Point.content, Point.size, Point.unchecked,
            UInt64.toNat_zero]
          omega
      | raised hdr name =>
          simp only [Point.content, Point.size, Point.unchecked,
            UInt64.toNat_zero]
          omega
      | reading hdr name =>
          obtain ⟨rfl, _⟩ := hpassed
          exact ih
      | _ =>
          simp only [Point.content, Point.size, Point.unchecked,
            UInt64.toNat_zero]
          omega

theorem Reaches.content (h : Reaches limits flags w.started trail p w')
    (hlimit : limits.bytesLimit ≠ 0) (hsum : accounted trail < 2 ^ 64) :
    received trail ≤ limits.bytesLimit.toNat := by
  induction h with
  | start => exact Nat.zero_le _
  | @step trail p p' w₁ w₂ hreaches hrun ih =>
      have hpassed := hreaches.passed hrun
      have hreceived := hreaches.received_le
      rw [accounted, tally_concat] at hsum
      have hbefore : accounted trail < 2 ^ 64 :=
        Nat.lt_of_le_of_lt (Nat.le_add_right _ _) hsum
      have hexact : (UInt64.ofNat (accounted trail)).toNat = accounted trail :=
        UInt64.toNat_ofNat_of_lt' hbefore
      have hkept := ih hbefore
      rw [received, tally_concat]
      rw [received] at hkept hreceived
      cases p' with
      | copying hdr name output =>
          have hfits : ¬ OverQuota limits hdr.filelen
            (UInt64.ofNat (accounted trail)) := hpassed
          rw [overQuota_iff hlimit, hexact] at hfits
          simp only [Point.content]
          omega
      | reading hdr name =>
          obtain ⟨rfl, hchecked⟩ := hpassed
          have hunder := UInt64.le_iff_toNat_le.mp (hchecked hlimit)
          rw [hexact] at hunder
          exact Nat.le_trans hreceived hunder
      | _ => exact hkept

theorem Reaches.entries (h : Reaches limits flags w.started trail p w')
    (hlimit : limits.filesLimit ≠ 0)
    (hcount : CanCount limits (handed trail)) :
    handed trail ≤ limits.filesLimit.toNat := by
  induction h with
  | start => exact Nat.zero_le _
  | @step trail p p' w₁ w₂ hreaches hrun ih =>
      have hpassed := hreaches.passed hrun
      rw [handed, tally_concat] at hcount ⊢
      have hkept := ih (hcount.mono (Nat.le_add_right _ _))
      cases p' with
      | handed hdr =>
          have hunder := UInt64.le_iff_toNat_le.mp (hpassed hlimit)
          have hone : (Point.handed hdr).entries.toNat = 1 := rfl
          rw [hone] at hcount ⊢
          have hnext : handed trail + 1 < 2 ^ 64 :=
            hcount.elim (fun hmax => by omega) id
          have hexact : (UInt64.ofNat (handed trail)).toNat = handed trail :=
            UInt64.toNat_ofNat_of_lt' (Nat.lt_of_succ_lt hnext)
          rw [UInt64.toNat_add, hexact, UInt64.toNat_one,
            Nat.mod_eq_of_lt hnext] at hunder
          exact hunder
      | _ => exact hkept

theorem Reaches.lengths (h : Reaches limits flags w.started trail p w') :
    ∀ hdr name output, Point.copying hdr name output ∈ trail →
      hdr.filelen.toNat < 2 ^ 63 := by
  induction h with
  | start =>
      intro hdr name output hmem
      cases hmem
  | @step trail p p' w₁ w₂ hreaches hrun ih =>
      intro hdr name output hmem
      rcases List.mem_append.mp hmem with hold | hnew
      · exact ih hdr name output hold
      · have hpassed := hreaches.passed hrun
        rw [← List.mem_singleton.mp hnew] at hpassed
        exact Nat.lt_of_not_le fun hlong => hpassed (Or.inl hlong)

theorem Reaches.balanced (h : Reaches limits flags w.started trail p w')
    (hlimit : limits.bytesLimit ≠ 0) (hsum : accounted trail < 2 ^ 64)
    (hcount : CanCount limits (handed trail)) :
    Balanced limits trail w'.statics where
  content := h.content hlimit hsum
  entries hfiles := h.entries hfiles hcount
  lengths := h.lengths
  totalBytes := by
    rw [h.counters.totalBytes]
    exact UInt64.toNat_ofNat_of_lt' hsum
  totalFiles hfiles := by
    rw [h.counters.totalFiles]
    exact UInt64.toNat_ofNat_of_lt' (Nat.lt_of_le_of_lt
      (h.entries hfiles hcount) limits.filesLimit.toNat_lt)

theorem Reaches.decidesExactly
    (h : Reaches limits flags w.started trail p w')
    (hlimit : limits.bytesLimit ≠ 0) (hsum : accounted trail < 2 ^ 64)
    (hcount : CanCount limits (handed trail)) :
    DecidesExactly limits flags trail p w' where
  entry := by
    rintro rfl hnext bytes w₁ hread hnamed
    rw [advance, nextHeader_iff hread hnamed, UInt64.le_iff_toNat_le]
    refine forall_congr' fun hfiles => ?_
    have hbalanced := h.balanced hlimit hsum hcount
    have hunder := hbalanced.entries hfiles
    have hwrap : handed trail + 1 < 2 ^ 64 :=
      hnext.elim (fun hmax => by omega) id
    rw [UInt64.toNat_add, hbalanced.totalFiles hfiles, UInt64.toNat_one,
      Nat.mod_eq_of_lt hwrap]
  file := by
    rintro hdr name output rfl
    rw [advance, checkSize_iff, overQuota_iff hlimit,
      (h.balanced hlimit hsum hcount).totalBytes]
    omega
  link := by
    rintro hdr name rfl
    rw [advance, checkTotal_iff, UInt64.le_iff_toNat_le,
      (h.balanced hlimit hsum hcount).totalBytes]
    exact ⟨fun h => h hlimit, fun h _ => h⟩

end

/-- The limits are kept at every point of a run: the files whose copies were
started and the links that were read have together no more bytes than
`bytes_limit`, no more entries than `files_limit` were handed over, and no
counter and no check wraps around. -/
theorem doUnpackExt_balanced (limits : Limits) (flags : Flags)
    {w w' : World Unpacker} {trail : List Point} {p : Point}
    (htrace : w.trace = []) (h : Reaches limits flags w.started trail p w')
    (hlimit : limits.bytesLimit ≠ 0) (hsum : accounted trail < 2 ^ 64)
    (hcount : CanCount limits (handed trail)) :
    Balanced limits trail w'.statics ∧
      DecidesExactly limits flags trail p w' ∧
      (doUnpackExt limits flags).run w =
        (p.rest limits flags (unpackLoop limits flags (w.stdin.length + 1)) >>=
          finishUnpack).run w' :=
  ⟨h.balanced hlimit hsum hcount, h.decidesExactly hlimit hsum hcount,
    h.run htrace⟩

/-- The points that are passed in so many steps, and the state behind them. -/
def course (limits : Limits) (flags : Flags) :
    Nat → Point → World Unpacker → List Point × Point × World Unpacker
  | 0, p, w => ([], p, w)
  | n + 1, p, w =>
      match (advance limits flags p).run w with
      | .ok p' w' =>
          (p' :: (course limits flags n p' w').1,
            (course limits flags n p' w').2)
      | .error _ _ => ([], p, w)

theorem Reaches.course {limits : Limits} {flags : Flags}
    {w : World Unpacker} (n : Nat) :
    ∀ {trail : List Point} {p : Point} {w' : World Unpacker},
      Reaches limits flags w trail p w' →
      Reaches limits flags w (trail ++ (course limits flags n p w').1)
        (course limits flags n p w').2.1 (course limits flags n p w').2.2 := by
  induction n with
  | zero =>
      intro trail p w' h
      rw [QubesUtils.course, List.append_nil]
      exact h
  | succ n ih =>
      intro trail p w' h
      rw [QubesUtils.course]
      cases hrun : (advance limits flags p).run w' with
      | error e w₁ =>
          rw [List.append_nil]
          exact h
      | ok p' w₁ =>
          have hnext := ih (h.step hrun)
          rw [List.append_assoc] at hnext
          exact hnext

/-- The directory `d`, the file `a` with two bytes, the link `d/l` to `m`, the
directory again, and the file `b` with one byte. -/
def mixedStream : List UInt8 :=
  fileHeaderCodec.put ⟨2, 0x41ED, 0, 0, 0, 0, 0⟩ ++ [0x64, 0] ++
    fileHeaderCodec.put ⟨2, 0x81A4, 2, 0, 0, 0, 0⟩ ++ [0x61, 0] ++ [1, 2] ++
    fileHeaderCodec.put ⟨4, 0xA1FF, 1, 0, 0, 0, 0⟩ ++
    [0x64, 0x2F, 0x6C, 0] ++ [0x6D] ++
    fileHeaderCodec.put ⟨2, 0x41ED, 0, 0, 0, 0, 0⟩ ++ [0x64, 0] ++
    fileHeaderCodec.put ⟨2, 0x81A4, 1, 0, 0, 0, 0⟩ ++ [0x62, 0] ++ [3]

def mixedLimits : Limits := ⟨committedTable, 3, 5, 0⟩

def mixedCourse : List Point × Point × World Unpacker :=
  course mixedLimits 3#32 20 .between (freshWorld mixedStream false).started

/-- The file `a` and the link just fit.  With the size of the directory the
total is above the limit, so that the file `b` is refused. -/
theorem doUnpackExt_balanced_mixed :
    (received mixedCourse.1 = 3 ∧ accounted mixedCourse.1 = 65538 ∧
        handed mixedCourse.1 = 5) ∧
      Balanced mixedLimits mixedCourse.1 mixedCourse.2.2.statics ∧
      DecidesExactly mixedLimits 3#32 mixedCourse.1 mixedCourse.2.1
        mixedCourse.2.2 := by
  have hreaches : Reaches mixedLimits 3#32
      (freshWorld mixedStream false).started ([] ++ mixedCourse.1)
      mixedCourse.2.1 mixedCourse.2.2 := Reaches.start.course 20
  have hvalues : received mixedCourse.1 = 3 ∧
      accounted mixedCourse.1 = 65538 ∧ handed mixedCourse.1 = 5 := by
    decide +kernel
  have hsum : accounted mixedCourse.1 < 2 ^ 64 := by
    rw [hvalues.2.1]
    decide
  obtain ⟨hbalanced, hdecides, _⟩ := doUnpackExt_balanced _ _ rfl hreaches
    (by decide) hsum (Or.inl (by decide))
  exact ⟨hvalues, hbalanced, hdecides⟩

/-! Entries without an end. -/

/-- The next calls have these outcomes, and so much of the input is left. -/
structure Poised (P : Unpacker → Prop) (outcomes : List Outcome)
    (input : List UInt8) (w : World Unpacker) : Prop where
  statics : P w.statics
  outcomes : w.outcomes = outcomes
  stdin : w.stdin = input

section

variable {P Q : Unpacker → Prop} {outcome : Outcome}
  {outcomes : List Outcome} {input : List UInt8}
  {E : Exit → World Unpacker → Prop}

theorem nextOutcome_poised :
    Triple (Poised P (outcome :: outcomes) input) nextOutcome
      (fun result w => result = outcome ∧ Poised P outcomes input w) E := by
  refine .modifyGet fun w h => ?_
  rw [h.outcomes]
  exact ⟨rfl, h.statics, rfl, h.stdin⟩

theorem attempt_poised (herror : outcome.error = none) :
    Triple (Poised P (outcome :: outcomes) input) attempt
      (fun result w => result = some outcome ∧ Poised P outcomes input w)
      E := by
  refine nextOutcome_poised.bind_value ?_
  rw [herror]
  exact .ret fun _ h => ⟨rfl, h⟩

theorem emit_poised (event : Event) :
    Triple (Poised P outcomes input) (emit event)
      (fun _ => Poised P outcomes input) E :=
  .modify fun _ h => ⟨h.statics, h.outcomes, h.stdin⟩

/-- A call that has its effect. -/
theorem perform_poised {α : Type} {call : FileSystem → Outcome →
      Except Errno (α × Effect × FileSystem)} (herror : outcome.error = none)
    (hcall : ∀ u, P u → ∃ result effect fs,
      call u.fs outcome = .ok (result, effect, fs) ∧ P (u.record effect fs)) :
    Triple (Poised P (outcome :: outcomes) input) (perform call)
      (fun result w => result ≠ none ∧ Poised P outcomes input w) E := by
  refine (attempt_poised herror).bind_value (.get_bind fun w hw => ?_)
  obtain ⟨result, effect, fs, hresult, hkept⟩ := hcall _ hw.statics
  rw [hresult]
  have hcommit : Triple (· = w) (commit effect fs)
      (fun _ => Poised P outcomes input) E :=
    .modify fun _ h => h ▸ ⟨hkept, hw.outcomes, hw.stdin⟩
  exact hcommit.bind fun _ => .ret fun _ h => ⟨by simp, h⟩

/-- A call that finds its object there. -/
theorem perform_exists {α : Type} {call : FileSystem → Outcome →
      Except Errno (α × Effect × FileSystem)} {errno : Errno}
    (herror : outcome.error = none)
    (hcall : ∀ u, P u → call u.fs outcome = .error errno) :
    Triple (Poised P (outcome :: outcomes) input) (perform call)
      (fun result w => result = none ∧ w.errno = errno.value ∧
        Poised P outcomes input w) E := by
  refine (attempt_poised herror).bind_value (.get_bind fun w hw => ?_)
  rw [hcall _ hw.statics]
  have hset : Triple (· = w) (setErrno errno.value)
      (fun _ w => w.errno = errno.value ∧ Poised P outcomes input w) E :=
    .modify fun _ h => h ▸ ⟨rfl, hw.statics, hw.outcomes, hw.stdin⟩
  exact hset.bind fun _ => .ret fun _ h => ⟨rfl, h⟩

/-- A read that takes all that it asks for. -/
theorem read_poised {bytes : List UInt8} (hbytes : bytes ≠ [])
    (herror : outcome.error = none) (hempty : outcome.empty = false)
    (hamount : bytes.length ≤ outcome.amount + 1) :
    Triple (Poised P (outcome :: outcomes) (bytes ++ input))
      (read bytes.length)
      (fun result w => result = .data bytes ∧ Poised P outcomes input w)
      E := by
  refine nextOutcome_poised.bind_value ?_
  rw [herror]
  simp only [hempty, Bool.false_eq_true, if_false]
  rw [Nat.min_eq_left hamount]
  refine .get_bind fun w hw => ?_
  have hstdin : w.stdin = bytes ++ input := hw.stdin
  have hne : w.stdin ≠ [] := by
    rw [hstdin]
    exact List.append_ne_nil_of_left_ne_nil hbytes _
  rw [if_neg hne, hstdin, List.take_left]
  have hdrop : Triple (· = w) (modify fun w : World Unpacker => { w with
      stdin := w.stdin.drop bytes.length })
      (fun _ => Poised P outcomes input) E := by
    refine .modify fun _ h => h ▸ ⟨hw.statics, hw.outcomes, ?_⟩
    simp only [hstdin, List.drop_left]
  exact hdrop.bind fun _ => (emit_poised _).bind fun _ =>
    .ret fun _ h => ⟨rfl, h⟩

theorem readAllWithCrc_poised {bytes : List UInt8} (hbytes : bytes ≠ [])
    (herror : outcome.error = none) (hempty : outcome.empty = false)
    (hamount : bytes.length ≤ outcome.amount + 1) :
    Triple (Poised P (outcome :: outcomes) (bytes ++ input))
      (readAllWithCrc bytes.length)
      (fun result w => result = some bytes ∧ Poised P outcomes input w)
      E := by
  have hretry : Triple (Poised P (outcome :: outcomes) (bytes ++ input))
      retryInterrupted
      (fun _ => Poised P (outcome :: outcomes) (bytes ++ input)) E := by
    refine .modify fun w h => ⟨h.statics, ?_, h.stdin⟩
    have hnot : outcome.interrupted = false := by
      rw [Outcome.interrupted, herror]
      rfl
    simp only [h.outcomes, List.dropWhile_cons, hnot, Bool.false_eq_true,
      if_false]
  have hall : Triple (Poised P (outcome :: outcomes) (bytes ++ input))
      (readAll bytes.length)
      (fun result w => result = some bytes ∧ Poised P outcomes input w)
      E := by
    obtain ⟨length, hlength⟩ := Nat.exists_eq_succ_of_ne_zero
      (List.length_pos_iff.mpr hbytes).ne'
    rw [readAll, hlength, readAllLoop, ← hlength]
    refine .ite (fun hnone => absurd hnone (by omega)) fun _ => ?_
    refine hretry.bind fun _ => (read_poised hbytes herror hempty
      hamount).bind_value ?_
    have hblock : Triple (Poised P outcomes input) (blockAfterFirst [])
        (fun _ => Poised P outcomes input) E :=
      .ite (fun _ => .modify fun _ h => ⟨h.statics, h.outcomes, h.stdin⟩)
        fun h => absurd rfl h
    refine hblock.bind fun _ => ?_
    rw [Nat.sub_self, List.nil_append]
    cases length with
    | zero => exact .ret fun _ h => ⟨rfl, h⟩
    | succ _ => exact .ret fun _ h => ⟨rfl, h⟩
  have hadd : Triple (Poised P outcomes input) (addCrc bytes)
      (fun _ => Poised P outcomes input) E :=
    .modify fun _ h => ⟨h.statics, h.outcomes, h.stdin⟩
  refine hall.bind_value ?_
  exact hadd.bind fun _ => .ret fun _ h => ⟨rfl, h⟩

end

/-- The directory `a`. -/
def againHeader : FileHeader := ⟨2, 0x41ED, 0, 0, 0, 0, 0⟩

def againEntry : List UInt8 := fileHeaderCodec.put againHeader ++ [0x61, 0]

/-- The calls for a directory that is there and whose size is 0. -/
def againOutcomes : List Outcome :=
  [.plain, .plain, .plain, .plain, .plain, ⟨none, false, 0, ⟨0, 0⟩⟩, .plain,
    .plain]

/-- The directory is there. -/
structure HasDirectory (u : Unpacker) : Prop where
  current : u.cwd = []
  there : u.fs.isDir [[0x61]] = true

section

variable {limits : Limits} {flags : Flags} {outcomes : List Outcome}
  {input : List UInt8} {E : Exit → World Unpacker → Prop}

/-- No counter exceeds the largest limit. -/
theorem nextHeader_again (hmax : limits.filesLimit.toNat + 1 = 2 ^ 64) :
    Triple (Poised HasDirectory (.plain :: outcomes)
        (fileHeaderCodec.put againHeader ++ input)) (nextHeader limits)
      (fun p w => p = .handed againHeader ∧
        Poised HasDirectory outcomes input w) E := by
  have hread := @readAllWithCrc_poised HasDirectory .plain outcomes input E
    (fileHeaderCodec.put againHeader) (by decide) rfl rfl (by decide)
  rw [fileHeaderCodec.length_put] at hread
  refine hread.bind_value ?_
  simp only [fileHeaderCodec.get_put]
  refine .ite (fun h => absurd h (by decide)) fun _ => ?_
  have hcount : Triple (Poised HasDirectory outcomes input) countFile
      (fun _ => Poised HasDirectory outcomes input) E :=
    .modify fun _ h => ⟨⟨h.statics.current, h.statics.there⟩, h.outcomes,
      h.stdin⟩
  refine hcount.bind fun _ => .get_bind fun w hw => .ite (fun hover => ?_)
    fun _ => .ret fun _ h => ⟨rfl, h ▸ hw⟩
  have hlarger := UInt64.lt_iff_toNat_lt.mp hover.2
  have hcounter := w.statics.totalFiles.toNat_lt
  omega

theorem receiveName_again :
    Triple (Poised HasDirectory (.plain :: outcomes) ([0x61, 0] ++ input))
      (receiveName againHeader)
      (fun name w => name = [0x61, 0] ∧ Poised HasDirectory outcomes input w)
      E := by
  refine .ite (fun h => absurd h (by decide)) fun _ => ?_
  refine (@readAllWithCrc_poised HasDirectory .plain outcomes input E
    [0x61, 0] (by decide) rfl rfl (by decide)).bind_value ?_
  have hbegin : Triple (Poised HasDirectory outcomes input)
      (beginEntry (CString.ofBuffer [0x61, 0]))
      (fun _ => Poised HasDirectory outcomes input) E :=
    .modify fun _ h => ⟨⟨h.statics.current, h.statics.there⟩, h.outcomes,
      h.stdin⟩
  exact hbegin.bind fun _ => .ret fun _ h => ⟨rfl, h⟩

theorem statDir_again {stat : Outcome} (hstat : stat.error = none)
    (hvalid : qubesPureValidateFileNameV2 limits.table
      (CString.ofBuffer [0x61, 0]) (validateFlags flags) = .ok 0) :
    Triple (Poised HasDirectory (.plain :: .plain :: .plain :: stat ::
        outcomes) input)
      (statDir limits (CString.ofBuffer [0x61, 0]) (validateFlags flags))
      (fun found w => found = some ([[0x61]], stat) ∧
        Poised HasDirectory outcomes input w) E := by
  rw [statDir, hvalid]
  change Triple _ (strdup _ >>= _) _ _
  have hstrdup : Triple (Poised HasDirectory (.plain :: .plain :: .plain ::
        stat :: outcomes) input) (strdup (CString.ofBuffer [0x61, 0]))
      (fun _ => Poised HasDirectory (.plain :: .plain :: stat :: outcomes)
        input) E :=
    (attempt_poised rfl).bind_value (.ret fun _ h => h)
  have hcomponents : components (CString.ofBuffer [0x61, 0]).bytes =
      [[0x61]] := by decide
  refine hstrdup.bind fun _ => .get_bind fun w hw => ?_
  rw [hcomponents, hw.statics.current]
  have hexists : Triple (· = w) (makeDir [] [0x61])
      (fun made w => made = none ∧ w.errno = (errnoOf EEXIST).value ∧
        Poised HasDirectory (.plain :: stat :: outcomes) input w) E := by
    refine (perform_exists rfl fun u hu => ?_).from_state hw
    obtain ⟨attributes, htree⟩ := isDir_iff.mp hu.there
    have hthere : u.fs.tree ([] ++ [[0x61]]) ≠ none := by
      rw [List.nil_append, htree]
      exact fun h => by cases h
    rw [mkdirAt, add, if_neg (by decide), if_neg (by decide),
      dif_neg hthere]
    rfl
  change Triple _ (makeDir [] [0x61] >>= _) _ _
  refine hexists.bind_value (.get_bind fun w₁ hw₁ =>
    .ite (fun h => absurd hw₁.1 h) fun _ => ?_)
  have hopen : Triple (· = w₁) (openDir [] [0x61])
      (fun opened w => opened = some [[0x61]] ∧
        Poised HasDirectory (stat :: outcomes) input w) E := by
    refine ((attempt_poised rfl).from_state hw₁.2).bind_value
      (.get_bind fun w₂ hw₂ => ?_)
    have hchild : child [] [0x61] = [[0x61]] := by decide
    rw [openDirAt, if_neg (by decide), hchild,
      if_pos hw₂.statics.there]
    exact .ret fun _ h => ⟨rfl, h ▸ hw₂⟩
  exact hopen.bind_value ((attempt_poised hstat).bind_value
    (.ret fun _ h => ⟨rfl, h⟩))

theorem fixTimesAndPerms_again :
    Triple (Poised HasDirectory (.plain :: .plain :: outcomes) input)
      (fixTimesAndPerms (.dir [[0x61]]) againHeader
        (CString.ofBuffer [0x61, 0]))
      (fun _ => Poised HasDirectory outcomes input) E := by
  have hchange : ∀ (outcomes : List Outcome) (effect : Effect)
      (f : Attributes → Attributes),
      Triple (Poised HasDirectory (.plain :: outcomes) input)
        (perform fun fs _ =>
          .ok ((), effect, fs.change (.dir [[0x61]]) f))
        (fun result w => result ≠ none ∧
          Poised HasDirectory outcomes input w) E := by
    refine fun outcomes effect f => perform_poised rfl fun u hu =>
      ⟨_, _, _, rfl, hu.current, ?_⟩
    obtain ⟨attributes, htree⟩ := isDir_iff.mp hu.there
    refine isDir_iff.mpr ⟨f attributes, ?_⟩
    change (u.fs.setAttributes [[0x61]] f).tree [[0x61]] = _
    rw [setAttributes]
    simp only [if_true, htree]
  change Triple _ (setMode _ _ >>= _) _ _
  have hmode : setMode (.dir [[0x61]]) againHeader =
      fchmod (.dir [[0x61]]) (againHeader.mode &&& 0o7777) :=
    if_neg (by decide)
  rw [hmode]
  refine (hchange _ _ _).bind fun result => ?_
  refine Triple.assume (fun _ h => h.1) fun hmade => ?_
  cases result with
  | none => exact absurd rfl hmade
  | some _ =>
      refine ((hchange _ _ _).pre_mono fun _ h => h.2).bind fun result => ?_
      refine Triple.assume (fun _ h => h.1) fun hmade => ?_
      cases result with
      | none => exact absurd rfl hmade
      | some _ => exact .ret fun _ h => h.2

theorem dispatch_again
    (hflag : hasFlag flags COPY_ALLOW_DIRECTORIES = true)
    (hvalid : qubesPureValidateFileNameV2 limits.table
      (CString.ofBuffer [0x61, 0]) (validateFlags flags) = .ok 0) :
    Triple (Poised HasDirectory (.plain :: .plain :: .plain ::
        ⟨none, false, 0, ⟨0, 0⟩⟩ :: outcomes) input)
      (dispatch limits flags againHeader [0x61, 0])
      (fun p w => p = .reopened againHeader [0x61, 0] [[0x61]] 0 ∧
        Poised HasDirectory outcomes input w) E := by
  have hdir : sIsDir againHeader.mode = true := by decide
  rw [dispatch, if_neg (by decide),
    if_neg fun h => absurd h.1 (by decide), if_pos ⟨hdir, hflag⟩]
  refine (statDir_again rfl hvalid).bind_value ?_
  have hadd : Triple (Poised HasDirectory outcomes input)
      (addTotalBytes (UInt64.ofNat 0))
      (fun _ => Poised HasDirectory outcomes input) E :=
    .modify fun _ h => ⟨⟨h.statics.current, h.statics.there⟩, h.outcomes,
      h.stdin⟩
  exact hadd.bind fun _ => .ret fun _ h => ⟨rfl, h⟩

variable {w w₁ : World Unpacker} {trail : List Point}

/-- One more entry is counted, and nothing is added to the total. -/
theorem Reaches.again (h : Reaches limits flags w trail .between w₁)
    (hw : Poised HasDirectory (againOutcomes ++ outcomes)
      (againEntry ++ input) w₁)
    (hmax : limits.filesLimit.toNat + 1 = 2 ^ 64)
    (hflag : hasFlag flags COPY_ALLOW_DIRECTORIES = true)
    (hvalid : qubesPureValidateFileNameV2 limits.table
      (CString.ofBuffer [0x61, 0]) (validateFlags flags) = .ok 0) :
    ∃ trail' w₂, Reaches limits flags w trail' .between w₂ ∧
      Poised HasDirectory outcomes input w₂ ∧
      handed trail' = handed trail + 1 ∧
      accounted trail' = accounted trail := by
  rw [againEntry, List.append_assoc] at hw
  obtain ⟨_, w₂, hnext, rfl, hnamed⟩ := (nextHeader_again hmax).exists_ok hw
  obtain ⟨_, w₃, hfound, rfl, hreopened⟩ := (receiveName_again.bind_value
    (dispatch_again hflag hvalid)).exists_ok hnamed
  have hfinish : Triple (Poised HasDirectory outcomes input)
      (finishEntry againHeader [0x61, 0])
      (fun p w => p = .between ∧ Poised HasDirectory outcomes input w)
      fun _ _ => False :=
    (emit_poised _).bind fun _ => .ret fun _ h => ⟨rfl, h⟩
  obtain ⟨_, w₄, hfinished, rfl, hlast⟩ :=
    (fixTimesAndPerms_again.bind fun _ => hfinish).exists_ok hreopened
  refine ⟨_, w₄, ((h.step hnext).step hfound).step hfinished, hlast, ?_, ?_⟩
  · rw [handed, tally_concat, tally_concat, tally_concat]
    rfl
  · rw [accounted, tally_concat, tally_concat, tally_concat]
    rfl

/-- So many more entries. -/
theorem Reaches.againMany (hmax : limits.filesLimit.toNat + 1 = 2 ^ 64)
    (hflag : hasFlag flags COPY_ALLOW_DIRECTORIES = true)
    (hvalid : qubesPureValidateFileNameV2 limits.table
      (CString.ofBuffer [0x61, 0]) (validateFlags flags) = .ok 0) (n : Nat) :
    ∀ trail w₁, Reaches limits flags w trail .between w₁ →
      Poised HasDirectory (List.replicate n againOutcomes).flatten
        (List.replicate n againEntry).flatten w₁ →
      ∃ trail' w₂, Reaches limits flags w trail' .between w₂ ∧
        handed trail' = handed trail + n ∧
        accounted trail' = accounted trail := by
  induction n with
  | zero => exact fun trail w₁ h _ => ⟨trail, w₁, h, rfl, rfl⟩
  | succ n ih =>
      intro trail w₁ h hw
      rw [List.replicate_succ, List.replicate_succ, List.flatten_cons,
        List.flatten_cons] at hw
      obtain ⟨trail₁, w₂, hnext, hpoised, hhanded, haccounted⟩ :=
        h.again hw hmax hflag hvalid
      obtain ⟨trail₂, w₃, hlast, hhanded', haccounted'⟩ :=
        ih trail₁ w₂ hnext hpoised
      exact ⟨trail₂, w₃, hlast, by omega, by omega⟩

end

def againFiles : FileSystem :=
  emptyFileSystem.insert [] [0x61] (.dir ⟨0o700, ⟨0, 0⟩, ⟨0, 0⟩⟩) (by decide)
    (by decide) (by decide)

/-- The directory is there, and is sent so many times. -/
def againWorld (n : Nat) : World Unpacker :=
  { freshWorld (List.replicate n againEntry).flatten false with
    outcomes := (List.replicate n againOutcomes).flatten
    statics := { (freshWorld [] false).statics with fs := againFiles } }

def largestLimit : Limits := ⟨committedTable, 1, 18446744073709551615, 0⟩

/-- Under the largest limit the counter of the entries wraps around. -/
theorem entries_unlimited :
    ∃ trail w', Reaches largestLimit 2#32 (againWorld (2 ^ 64)).started trail
        .between w' ∧
      largestLimit.bytesLimit ≠ 0 ∧ accounted trail < 2 ^ 64 ∧
      largestLimit.filesLimit ≠ 0 ∧
      largestLimit.filesLimit.toNat < handed trail := by
  have hthere : againFiles.isDir [[0x61]] = true := by decide +kernel
  have hmany : ∀ n, ∃ trail w', Reaches largestLimit 2#32
        (againWorld n).started trail .between w' ∧
      handed trail = handed [] + n ∧ accounted trail = accounted [] :=
    fun n => Reaches.againMany (by decide) (by decide) (by decide +kernel) n
      [] _ .start ⟨⟨rfl, hthere⟩, rfl, rfl⟩
  obtain ⟨trail, w', hreaches, hhanded, haccounted⟩ := hmany (2 ^ 64)
  have hnone : accounted [] = 0 := rfl
  have hnothing : handed [] = 0 := rfl
  have hmax : largestLimit.filesLimit.toNat + 1 = 2 ^ 64 := by decide
  exact ⟨trail, w', hreaches, by decide, by omega, by decide, by omega⟩

end QubesUtils
