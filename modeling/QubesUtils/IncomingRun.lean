/-
A whole run of the receiver and what it is for: the run ends without an error
if and only if every entry of the input comes in, up to the end marker.
-/
import QubesUtils.IncomingEntry

namespace QubesUtils

open Hoare Process ByteCodec FileSystem

/-! What the input says. -/

/-- What is in front of the input. -/
inductive Front
  | cut
  | refused
  | ended (rest : List UInt8)
  | entry (hdr : FileHeader) (name rest : List UInt8)

/-- What is behind a header. -/
def named (limits : Limits) (totalFiles : UInt64) (hdr : FileHeader)
    (input : List UInt8) : Front :=
  if hdr.namelen = 0 then
    .ended input
  else if (limits.filesLimit ≠ 0 ∧ totalFiles + 1 > limits.filesLimit) ∨
      hdr.namelen.toNat > MAX_PATH_LENGTH - 1 ∨
      input.length < hdr.namelen.toNat then
    .refused
  else
    .entry hdr (input.take hdr.namelen.toNat) (input.drop hdr.namelen.toNat)

def front (limits : Limits) (totalFiles : UInt64) (input : List UInt8) :
    Front :=
  if input.length < fileHeaderCodec.width then
    .cut
  else
    named limits totalFiles
      (fileHeaderCodec.get (input.take fileHeaderCodec.width))
      (input.drop fileHeaderCodec.width)

def Incoming.countFile (st : Incoming) : Incoming :=
  { st with totalFiles := st.totalFiles + 1 }

/-- Entries come in, one after the other; of a directory that is sent again
the size is given. -/
inductive Enters (limits : Limits) (flags : Flags) (cwd : Path)
    (sizes : Nat → UInt64) : Nat → Incoming → List UInt8 →
    List (FileHeader × List UInt8) → Incoming → List UInt8 → Prop
  | nil (n : Nat) (st : Incoming) (input : List UInt8) :
      Enters limits flags cwd sizes n st input [] st input
  | cons {n : Nat} {st st₁ st₂ : Incoming}
      {input middle rest : List UInt8} {last : List UInt8}
      {hdr : FileHeader} {name : List UInt8}
      {done : List (FileHeader × List UInt8)}
      (hfront : front limits st.totalFiles input = .entry hdr name middle)
      (hstore : storeEntry limits flags cwd (sizes n) st.countFile hdr
        (CString.ofBuffer name) middle = some (st₁, rest))
      (hrest : Enters limits flags cwd sizes (n + 1) st₁ rest done st₂ last) :
      Enters limits flags cwd sizes n st input ((hdr, name) :: done) st₂ last

/-- All entries come in, up to the end marker. -/
structure Receives (limits : Limits) (flags : Flags) (cwd : Path)
    (sizes : Nat → UInt64) (n : Nat) (st : Incoming) (input : List UInt8)
    (done : List (FileHeader × List UInt8)) (st' : Incoming)
    (rest : List UInt8) : Prop where
  entries : ∃ marker, Enters limits flags cwd sizes n st input done st'
    marker ∧ front limits st'.totalFiles marker = .ended rest

section

variable {limits : Limits} {flags : Flags} {cwd : Path}
  {sizes : Nat → UInt64}

theorem Receives.ended {n : Nat} {st : Incoming} {input rest : List UInt8}
    (h : front limits st.totalFiles input = .ended rest) :
    Receives limits flags cwd sizes n st input [] st rest :=
  ⟨input, .nil n st input, h⟩

theorem Receives.cons {n : Nat} {st st₁ st₂ : Incoming}
    {input middle rest last : List UInt8} {hdr : FileHeader}
    {name : List UInt8} {done : List (FileHeader × List UInt8)}
    (hfront : front limits st.totalFiles input = .entry hdr name middle)
    (hstore : storeEntry limits flags cwd (sizes n) st.countFile hdr
      (CString.ofBuffer name) middle = some (st₁, rest))
    (hrest : Receives limits flags cwd sizes (n + 1) st₁ rest done st₂ last) :
    Receives limits flags cwd sizes n st input ((hdr, name) :: done) st₂
      last := by
  obtain ⟨marker, henters, hended⟩ := hrest.entries
  exact ⟨marker, .cons hfront hstore henters, hended⟩

/-- What all of the input says is said in front first. -/
theorem Receives.cases {n : Nat} {st st' : Incoming}
    {input rest : List UInt8} {done : List (FileHeader × List UInt8)}
    (h : Receives limits flags cwd sizes n st input done st' rest) :
    (done = [] ∧ st' = st ∧ front limits st.totalFiles input = .ended rest) ∨
      ∃ hdr name middle st₁ rest₁ done', done = (hdr, name) :: done' ∧
        front limits st.totalFiles input = .entry hdr name middle ∧
        storeEntry limits flags cwd (sizes n) st.countFile hdr
          (CString.ofBuffer name) middle = some (st₁, rest₁) ∧
        Receives limits flags cwd sizes (n + 1) st₁ rest₁ done' st' rest := by
  obtain ⟨marker, henters, hended⟩ := h.entries
  cases henters with
  | nil => exact Or.inl ⟨rfl, rfl, hended⟩
  | cons hfront hstore hrest =>
      exact Or.inr ⟨_, _, _, _, _, _, rfl, hfront, hstore,
        ⟨marker, hrest, hended⟩⟩

/-- What comes in behind entries that have come in. -/
theorem Receives.behind {n : Nat} {st st₁ st' : Incoming}
    {input middle rest : List UInt8} {done all : List (FileHeader × List UInt8)}
    (henters : Enters limits flags cwd sizes n st input done st₁ middle)
    (h : Receives limits flags cwd sizes n st input all st' rest) :
    ∃ more, all = done ++ more ∧ Receives limits flags cwd sizes
      (n + done.length) st₁ middle more st' rest := by
  induction henters generalizing all with
  | nil n st input => exact ⟨all, rfl, h⟩
  | cons hfront hstore _ ih =>
      rcases h.cases with ⟨_, _, hended⟩ |
        ⟨_, _, _, _, _, _, rfl, hfront', hstore', hrest⟩
      · rw [hfront] at hended
        cases hended
      · rw [hfront] at hfront'
        cases hfront'
        rw [hstore] at hstore'
        cases hstore'
        obtain ⟨more, rfl, hmore⟩ := ih hrest
        refine ⟨more, rfl, ?_⟩
        rw [List.length_cons, Nat.add_comm _ 1, ← Nat.add_assoc]
        exact hmore

/-- The input decides what comes in. -/
theorem Receives.unique {n : Nat} {st st₁ st₂ : Incoming}
    {input rest₁ rest₂ : List UInt8}
    {done₁ done₂ : List (FileHeader × List UInt8)}
    (h₁ : Receives limits flags cwd sizes n st input done₁ st₁ rest₁)
    (h₂ : Receives limits flags cwd sizes n st input done₂ st₂ rest₂) :
    done₁ = done₂ ∧ st₁ = st₂ ∧ rest₁ = rest₂ := by
  obtain ⟨marker, henters, hended⟩ := h₁.entries
  obtain ⟨more, rfl, hmore⟩ := Receives.behind henters h₂
  rcases hmore.cases with ⟨rfl, rfl, hended'⟩ |
    ⟨_, _, _, _, _, _, _, hfront, _⟩
  · rw [hended] at hended'
    cases hended'
    exact ⟨(List.append_nil _).symm, rfl, rfl⟩
  · rw [hended] at hfront
    cases hfront

/-! Passes. -/

variable {calm : Prop} {st : Incoming} {input : List UInt8}

/-- What the first part of a pass finds in front. -/
def PassFound (calm : Prop) (limits : Limits) (cwd : Path) (st : Incoming)
    (input : List UInt8) : PassStart → World Unpacker → Prop
  | .ended true, w => w.errno = 0 ∧ ∃ rest,
      front limits st.totalFiles input = .ended rest ∧
        At calm (Holds cwd st) rest w
  | .ended false, _ => calm → front limits st.totalFiles input = .cut
  | .entry hdr name, w => ∃ rest,
      front limits st.totalFiles input = .entry hdr name rest ∧
        At calm (Holds cwd st.countFile) rest w

theorem countFile_at {E : Exit → World Unpacker → Prop} :
    Triple (At calm (Holds cwd st) input) countFile
      (fun _ => At calm (Holds cwd st.countFile) input) E := by
  refine .modify fun w h => ⟨?_, h.stdin, h.undisturbed⟩
  refine ⟨h.statics.current, h.statics.shows, h.statics.totalBytes, ?_⟩
  change w.statics.totalFiles + 1 = st.totalFiles + 1
  rw [h.statics.totalFiles]

theorem beginEntry_at {name : CString} {E : Exit → World Unpacker → Prop} :
    Triple (At calm (Holds cwd st) input) (beginEntry name)
      (fun _ => At calm (Holds cwd st) input) E :=
  .modify fun _ h => ⟨⟨h.statics.current, h.statics.shows,
    h.statics.totalBytes, h.statics.totalFiles⟩, h.stdin, h.undisturbed⟩

/-- The name of an entry comes from the input. -/
theorem startEntry_at {hdr : FileHeader} {refused : Prop}
    (hlong : hdr.namelen.toNat > MAX_PATH_LENGTH - 1 → refused)
    (hshort : input.length < hdr.namelen.toNat → refused) :
    Triple (At calm (Holds cwd st) input) (startEntry hdr)
      (fun start w => ∃ name rest, (start = .entry hdr name ∧
          ¬ hdr.namelen.toNat > MAX_PATH_LENGTH - 1 ∧
          name.length = hdr.namelen.toNat ∧ input = name ++ rest) ∧
        At calm (Holds cwd st) rest w) (Blames calm refused) := by
  refine .ite (fun h => doExit_blames fun _ _ _ => hlong h) fun hfits => ?_
  refine (readAllWithCrc_at _).bind fun result => ?_
  cases result with
  | none => exact doExit_blames fun _ h hcalm => hshort (h hcalm)
  | some name =>
      refine Triple.assume (fun _ h => h.1) fun hlength => ?_
      refine Triple.pre_mono ?_ fun _ h => h.2
      refine Triple.exists_pre fun rest => ?_
      refine Triple.assume (fun _ h => h.1) fun hinput => ?_
      refine Triple.pre_mono ?_ fun _ h => h.2
      exact beginEntry_at.bind fun _ => .ret fun _ h =>
        ⟨name, rest, ⟨rfl, hfits, hlength, hinput⟩, h⟩

theorem startPass_at :
    Triple (At calm (Holds cwd st) input) (startPass limits)
      (PassFound calm limits cwd st input)
      (Blames calm (front limits st.totalFiles input = .refused)) := by
  refine (readAllWithCrc_at _).bind fun result => ?_
  cases result with
  | none => exact .ret fun _ h hcalm => if_pos (h hcalm)
  | some bytes =>
      refine Triple.assume (fun _ h => h.1) fun hlength => ?_
      refine Triple.pre_mono ?_ fun _ h => h.2
      refine Triple.exists_pre fun rest => ?_
      refine Triple.assume (fun _ h => h.1) fun hinput => ?_
      refine Triple.pre_mono ?_ fun _ h => h.2
      have hfront : front limits st.totalFiles input = named limits
          st.totalFiles (fileHeaderCodec.get bytes) rest := by
        rw [front, if_neg (by rw [hinput, List.length_append]; omega),
          hinput, ← hlength, List.take_left, List.drop_left]
      rw [hfront]
      refine .ite (fun hmarker => ?_) fun hnamed => ?_
      · refine (setErrno_at 0).bind fun _ => .ret fun _ h =>
          ⟨h.2, rest, ?_, h.1⟩
        rw [hfront, named, if_pos hmarker]
      have hrefused : (limits.filesLimit ≠ 0 ∧
            st.totalFiles + 1 > limits.filesLimit) ∨
          (fileHeaderCodec.get bytes).namelen.toNat > MAX_PATH_LENGTH - 1 ∨
          rest.length < (fileHeaderCodec.get bytes).namelen.toNat →
          named limits st.totalFiles (fileHeaderCodec.get bytes) rest =
            .refused := by
        intro h
        rw [named, if_neg hnamed, if_pos h]
      refine countFile_at.bind fun _ => .get_bind fun w hw => ?_
      have htotal : w.statics.totalFiles = st.totalFiles + 1 :=
        hw.statics.totalFiles
      rw [htotal]
      refine .ite (fun hover => doExit_blames fun _ _ _ =>
        hrefused (Or.inl hover)) fun hquota => ?_
      refine ((startEntry_at (fun h => hrefused (Or.inr (Or.inl h)))
        fun h => hrefused (Or.inr (Or.inr h))).from_state hw).post_mono
          fun start w' h => ?_
      obtain ⟨name, rest', ⟨rfl, hfits, hname, hsplit⟩, hat⟩ := h
      refine ⟨rest', ?_, hat⟩
      rw [hfront, named, if_neg hnamed, if_neg, hsplit, ← hname,
        List.take_left, List.drop_left]
      rintro (hover | hlong | hshort)
      · exact hquota hover
      · exact hfits hlong
      · rw [hsplit, List.length_append] at hshort
        omega

/-- What `fstat` reports in the passes of a run. -/
def SizesFound (limits : Limits) (flags : Flags) (sizes : Nat → UInt64)
    (n : Nat) (w : World Unpacker) : Prop :=
  ∀ done w₁ hdr name w₂, Passes limits flags w done w₁ →
    (startPass limits).run w₁ = .ok (.entry hdr name) w₂ →
      SizeFound limits flags hdr (CString.ofBuffer name) w₂
        (sizes (n + done.length))

variable {n : Nat} {w w₁ w₂ last : World Unpacker} {hdr : FileHeader}
  {name : List UInt8} {done : List (FileHeader × List UInt8)}
  {result : EStateM.Result Exit (World Unpacker) Bool}

theorem SizesFound.here (h : SizesFound limits flags sizes n w)
    (hstart : (startPass limits).run w = .ok (.entry hdr name) w₁) :
    SizeFound limits flags hdr (CString.ofBuffer name) w₁ (sizes n) :=
  h [] w hdr name w₁ (.nil w) hstart

theorem SizesFound.next (h : SizesFound limits flags sizes n w)
    (hstart : (startPass limits).run w = .ok (.entry hdr name) w₁)
    (hentry : (handleEntry limits flags hdr name).run w₁ = .ok () w₂) :
    SizesFound limits flags sizes (n + 1) w₂ := by
  intro done w₃ hdr' name' w₄ hpasses hstart'
  have hfound := h _ w₃ hdr' name' w₄ (.cons hstart hentry hpasses) hstart'
  rw [List.length_cons, Nat.add_comm _ 1, ← Nat.add_assoc] at hfound
  exact hfound

theorem exists_sizeFound (limits : Limits) (flags : Flags)
    (hdr : FileHeader) (name : CString) (w : World Unpacker) :
    ∃ size, SizeFound limits flags hdr name w size := by
  by_cases h : ∃ path stat w', (statDir limits name
      (validateFlags flags)).run w = .ok (some (path, stat)) w'
  · obtain ⟨path, stat, w', hrun⟩ := h
    refine ⟨UInt64.ofNat stat.amount, fun _ path' stat' w'' hrun' => ?_⟩
    rw [hrun] at hrun'
    cases hrun'
    rfl
  · exact ⟨0, fun _ path stat w' hrun => absurd ⟨path, stat, w', hrun⟩ h⟩

/-- In every run there are sizes that are reported. -/
theorem exists_sizesFound (limits : Limits) (flags : Flags)
    (w : World Unpacker) : ∃ sizes, SizesFound limits flags sizes 0 w := by
  have hpass : ∀ n, ∃ size, ∀ done w₁ hdr name w₂,
      Passes limits flags w done w₁ → done.length = n →
      (startPass limits).run w₁ = .ok (.entry hdr name) w₂ →
        SizeFound limits flags hdr (CString.ofBuffer name) w₂ size := by
    intro n
    by_cases h : ∃ done w₁ hdr name w₂, Passes limits flags w done w₁ ∧
        done.length = n ∧
        (startPass limits).run w₁ = .ok (.entry hdr name) w₂
    · obtain ⟨done, w₁, hdr, name, w₂, hpasses, rfl, hstart⟩ := h
      obtain ⟨size, hsize⟩ := exists_sizeFound limits flags hdr
        (CString.ofBuffer name) w₂
      refine ⟨size, fun done' w₁' hdr' name' w₂' hpasses' hlength hstart' =>
        ?_⟩
      obtain rfl := hpasses.unique hpasses' hlength.symm
      rw [hstart] at hstart'
      cases hstart'
      exact hsize
    · exact ⟨0, fun done w₁ hdr name w₂ hpasses hlength hstart =>
        absurd ⟨done, w₁, hdr, name, w₂, hpasses, hlength, hstart⟩ h⟩
  choose sizes hsizes using hpass
  refine ⟨sizes, fun done w₁ hdr name w₂ hpasses hstart => ?_⟩
  rw [Nat.zero_add]
  exact hsizes done.length done w₁ hdr name w₂ hpasses rfl hstart

/-- Everything comes in. -/
def Comes (limits : Limits) (flags : Flags) (cwd : Path)
    (sizes : Nat → UInt64) (n : Nat) (st : Incoming) (input : List UInt8) :
    Prop :=
  ∃ done st' rest, Receives limits flags cwd sizes n st input done st' rest

/-- What the loop leaves: everything, or it has been right to stop. -/
def Concludes (calm : Prop) (limits : Limits) (flags : Flags) (cwd : Path)
    (sizes : Nat → UInt64) (n : Nat) (st : Incoming) (input : List UInt8) :
    EStateM.Result Exit (World Unpacker) Bool → Prop
  | .ok true w => w.errno = 0 ∧ ∃ done st' rest,
      Receives limits flags cwd sizes n st input done st' rest ∧
        At calm (Holds cwd st') rest w
  | .ok false _ => calm → ¬ Comes limits flags cwd sizes n st input
  | .error _ _ => calm → ¬ Comes limits flags cwd sizes n st input

theorem Comes.behind {middle rest : List UInt8} {st₁ : Incoming}
    (hfront : front limits st.totalFiles input = .entry hdr name middle)
    (hstore : storeEntry limits flags cwd (sizes n) st.countFile hdr
      (CString.ofBuffer name) middle = some (st₁, rest))
    (h : Comes limits flags cwd sizes n st input) :
    Comes limits flags cwd sizes (n + 1) st₁ rest := by
  obtain ⟨done, st', last, hreceives⟩ := h
  obtain ⟨more, _, hmore⟩ := Receives.behind
    (.cons hfront hstore (.nil _ _ _)) hreceives
  exact ⟨more, st', last, hmore⟩

/-- Behind an entry that has come in. -/
theorem Concludes.entry {middle rest : List UInt8} {st₁ : Incoming}
    (hfront : front limits st.totalFiles input = .entry hdr name middle)
    (hstore : storeEntry limits flags cwd (sizes n) st.countFile hdr
      (CString.ofBuffer name) middle = some (st₁, rest))
    (h : Concludes calm limits flags cwd sizes (n + 1) st₁ rest result) :
    Concludes calm limits flags cwd sizes n st input result := by
  cases result with
  | ok seen w =>
      cases seen with
      | true =>
          obtain ⟨herrno, done, st', last, hreceives, hat⟩ := h
          exact ⟨herrno, _, st', last, .cons hfront hstore hreceives, hat⟩
      | false =>
          exact fun hcalm hcomes => h hcalm (hcomes.behind hfront hstore)
  | error e w =>
      exact fun hcalm hcomes => h hcalm (hcomes.behind hfront hstore)

/-- At an entry that does not come in. -/
theorem not_comes {middle : List UInt8}
    (hfront : front limits st.totalFiles input = .entry hdr name middle)
    (hstore : storeEntry limits flags cwd (sizes n) st.countFile hdr
      (CString.ofBuffer name) middle = none) :
    ¬ Comes limits flags cwd sizes n st input := by
  rintro ⟨done, st', last, hreceives⟩
  rcases hreceives.cases with ⟨_, _, hended⟩ |
    ⟨_, _, _, _, _, _, _, hfront', hstore', _⟩
  · rw [hfront] at hended
    cases hended
  · rw [hfront] at hfront'
    cases hfront'
    rw [hstore] at hstore'
    cases hstore'

/-- Something else than an entry or the end. -/
theorem not_comes_front
    (hended : ∀ rest, front limits st.totalFiles input ≠ .ended rest)
    (hentry : ∀ hdr name rest,
      front limits st.totalFiles input ≠ .entry hdr name rest) :
    ¬ Comes limits flags cwd sizes n st input := by
  rintro ⟨done, st', last, hreceives⟩
  rcases hreceives.cases with ⟨_, _, hended'⟩ |
    ⟨_, _, _, _, _, _, _, hfront', _⟩
  · exact hended _ hended'
  · exact hentry _ _ _ hfront'

theorem LastPass.concludes (h : LastPass limits flags w result)
    (hw : At calm (Holds cwd st) input w)
    (hsizes : SizesFound limits flags sizes n w) :
    Concludes calm limits flags cwd sizes n st input result := by
  have hpass := @startPass_at limits cwd calm st input w hw
  cases h with
  | @ended seen w' hstart =>
      rw [hstart] at hpass
      cases seen with
      | true =>
          obtain ⟨herrno, rest, hended, hat⟩ := hpass
          exact ⟨herrno, [], st, rest, .ended hended, hat⟩
      | false =>
          exact fun hcalm => not_comes_front (by simp [hpass hcalm])
            (by simp [hpass hcalm])
  | refused hstart =>
      rw [hstart] at hpass
      exact fun hcalm => not_comes_front (by simp [hpass hcalm])
        (by simp [hpass hcalm])
  | stopped hstart hentry =>
      rw [hstart] at hpass
      obtain ⟨rest, hfront, hat⟩ := hpass
      have hstop := handleEntry_at hat (hsizes.here hstart) _ rfl
      rw [hentry] at hstop
      exact fun hcalm => not_comes hfront (hstop hcalm)

theorem LoopRun.concludes (h : LoopRun limits flags w done last result)
    (hw : At calm (Holds cwd st) input w)
    (hsizes : SizesFound limits flags sizes n w) :
    Concludes calm limits flags cwd sizes n st input result := by
  obtain ⟨hpasses, hlast⟩ := h
  induction hpasses generalizing st input n with
  | nil w => exact hlast.concludes hw hsizes
  | cons hstart hentry _ ih =>
      have hpass := @startPass_at limits cwd calm st input _ hw
      rw [hstart] at hpass
      obtain ⟨middle, hfront, hat⟩ := hpass
      have hdone := handleEntry_at hat (hsizes.here hstart) _ rfl
      rw [hentry] at hdone
      obtain ⟨st₁, rest, hstore, hat₁⟩ := hdone
      exact .entry hfront hstore
        (ih hat₁ (hsizes.next hstart hentry) hlast)

/-! The whole run. -/

/-- The input is left as it is, and so is the checksum. -/
def Unread (crc : UInt64) (stdin : List UInt8) : World Unpacker → Prop :=
  OnStream fun _ crc' stdin' => crc' = crc ∧ stdin' = stdin

theorem writeAll_unread {crc : UInt64} {stdin : List UInt8}
    (data : List UInt8) :
    Preserves (Unread crc stdin) (writeAll writeStdout data) := by
  refine writeAllLoop_preserves retryInterrupted_stream (fun data => ?_) _ _
  refine nextOutcome_stream.bind fun outcome => ?_
  cases outcome.error with
  | none =>
      have hemit : Preserves (Unread crc stdin)
          (emit (.write (data.take outcome.count)) : Unpack Unit) :=
        .modify fun _ h => h
      exact hemit.bind fun _ => .ret _
  | some errno =>
      exact (setErrno_stream errno.value).bind fun _ => .ret fun _ h => h.1

theorem sendStatusAndCrc_unread {crc : UInt64} {stdin : List UInt8}
    (code : UInt32) (last : Option CString) :
    Preserves (Unread crc stdin) (sendStatusAndCrc code last) := by
  have herrno : ∀ errno, Preserves (Unread crc stdin)
      (setErrno errno : Unpack Unit) := fun _ => .modify fun _ h => h
  refine .get_bind fun w => (writeAll_unread _).bind fun _ => ?_
  cases last with
  | none => exact herrno _
  | some name =>
      exact (writeAll_unread _).bind fun _ =>
        (writeAll_unread _).bind fun _ => herrno _

theorem finishUnpack_unread {crc : UInt64} {stdin : List UInt8}
    (seen : Bool) : Preserves (Unread crc stdin) (finishUnpack seen) := by
  have herrno : ∀ errno, Preserves (Unread crc stdin)
      (setErrno errno : Unpack Unit) := fun _ => .modify fun _ h => h
  have hsync : ∀ errno, Preserves (Unread crc stdin) (syncCwd errno) :=
    fun errno => (syncCwd_stream errno fun _ _ _ h => h).post_mono
      fun _ _ h => h.1
  exact .get_bind fun _ => (herrno _).bind fun _ => (hsync _).bind fun _ =>
    .get_bind fun _ => (sendStatusAndCrc_unread _ _).bind fun _ => .ret _

theorem Undisturbed.syncSucceeds {w : World Unpacker}
    (h : Undisturbed w.outcomes) : SyncSucceeds w :=
  ⟨h.head.1, h.tail.head.1, h.tail.tail.head.1⟩

/-- Nothing has come in yet. -/
def Incoming.start (fs : FileSystem) : Incoming := ⟨fs.items, 0, 0⟩

theorem started_at (w : World Unpacker) :
    At False (Holds w.statics.cwd (.start w.statics.fs)) w.stdin w.started :=
  ⟨⟨rfl, w.statics.fs.shows_items, rfl, rfl⟩, rfl, False.elim⟩

/-- What a run leaves that ends without an error. -/
structure CameThrough (cwd : Path) (st : Incoming) (input rest : List UInt8)
    (w : World Unpacker) : Prop where
  holds : Holds cwd st w.statics
  crc : ∃ consumed, consumed ++ rest = input ∧
    w.crc32Sum = crc32ComputeBuf 0 consumed

theorem doUnpackExt_finished {w w' : World Unpacker} (htrace : w.trace = [])
    (hloop : LoopRun limits flags w.started done last result)
    (hconcludes : Concludes calm limits flags cwd sizes 0 st w.stdin result)
    (hrun : (doUnpackExt limits flags).run w = .ok 0 w') :
    ∃ done st' rest,
      Receives limits flags cwd sizes 0 st w.stdin done st' rest ∧
        CameThrough cwd st' w.stdin rest w' := by
  rw [hloop.run htrace] at hrun
  cases result with
  | error e w₁ => cases hrun
  | ok seen w₁ =>
      obtain ⟨hsilent, herrno⟩ := hloop.2.settled
        (hloop.1.steady (started_steady htrace))
      obtain ⟨code, _, _, after, hfinish, _, _, hcode⟩ :=
        finishUnpack_sends hsilent herrno
      rw [afterLoop, hfinish] at hrun
      cases hrun
      obtain ⟨rfl, _⟩ := hcode.mp rfl
      obtain ⟨_, done, st', rest, hreceives, hat⟩ := hconcludes
      refine ⟨done, st', rest, hreceives, ?_, ?_⟩
      · exact (@finishUnpack_statics (Holds cwd st') true).run_ok
          hat.statics hfinish
      · have hread := (unpackLoop_reading limits flags (w.stdin.length + 1) []
          (by simp [frames])).run_ok (started_reading htrace)
            (hloop.loop htrace)
        obtain ⟨_, entries, marker, _, _, hreading⟩ := hread
        obtain ⟨hcrc, _⟩ := (finishUnpack_unread true).run_ok
          (⟨rfl, rfl⟩ : Unread w₁.crc32Sum w₁.stdin w₁) hfinish
        refine ⟨frames entries ++ marker, ?_, hcrc.trans hreading.crc⟩
        rw [← hat.stdin]
        exact hreading.rest

theorem doUnpackExt_finishes {w : World Unpacker} (htrace : w.trace = [])
    (hloop : LoopRun limits flags w.started done last result)
    (hconcludes : Concludes calm limits flags cwd sizes 0 st w.stdin result)
    (hcalm : calm) (hcomes : Comes limits flags cwd sizes 0 st w.stdin) :
    ∃ w', (doUnpackExt limits flags).run w = .ok 0 w' := by
  rw [hloop.run htrace]
  cases result with
  | error e w₁ => exact absurd hcomes (hconcludes hcalm)
  | ok seen w₁ =>
      cases seen with
      | false => exact absurd hcomes (hconcludes hcalm)
      | true =>
          obtain ⟨hsilent, herrno⟩ := hloop.2.settled
            (hloop.1.steady (started_steady htrace))
          obtain ⟨code, _, _, after, hfinish, _, _, hcode⟩ :=
            finishUnpack_sends hsilent herrno
          obtain ⟨_, _, _, _, _, hat⟩ := hconcludes
          have hzero := hcode.mpr
            ⟨rfl, (hat.undisturbed hcalm).syncSucceeds⟩
          subst hzero
          exact ⟨after, hfinish⟩

end

end QubesUtils
