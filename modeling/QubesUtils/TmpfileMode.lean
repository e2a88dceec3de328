/-
Files without a name and files that have no permissions: two ways to keep a
file from being used before it is complete.  Whichever is taken, and if the
first is given up on the way, the run comes to the same end.
-/
import QubesUtils.IncomingRun

namespace QubesUtils

open Hoare Process ByteCodec FileSystem

/-! The refusal. -/

section

variable {limits : Limits} {flags : Flags} {cwd : Path}
  {sizes : Nat → UInt64} {n : Nat} {st : Incoming} {input : List UInt8}
  {w w₁ last : World Unpacker} {hdr : FileHeader} {name : List UInt8}
  {done : List (FileHeader × List UInt8)}
  {result : EStateM.Result Exit (World Unpacker) Bool}

/-- The pass that starts here comes to a file without a name, and that is
refused. -/
def RefusesTmpfile (limits : Limits) (flags : Flags) (w : World Unpacker) :
    Prop :=
  ∃ hdr name w₁ place w₂,
    (startPass limits).run w = .ok (.entry hdr name) w₁ ∧
    sIsReg hdr.mode = true ∧
    (filePlace limits (CString.ofBuffer name) (validateFlags flags)).run w₁ =
      .ok place w₂ ∧
    w₂.statics.useTmpfile = true ∧ TmpfileRefused w₂.outcomes

/-- No call fails, but that files without a name may be refused from some
point of the run on. -/
def Calm (limits : Limits) (flags : Flags) (w : World Unpacker) : Prop :=
  Undisturbed w.outcomes ∨ ∃ done w₁, Passes limits flags w.started done w₁ ∧
    RefusesTmpfile limits flags w₁

/-- An entry is a pass of the run, or the end of it. -/
theorem LoopRun.entry (h : LoopRun limits flags w done last result)
    (hstart : (startPass limits).run w = .ok (.entry hdr name) w₁) :
    (∃ w₂ more, (handleEntry limits flags hdr name).run w₁ = .ok () w₂ ∧
        LoopRun limits flags w₂ more last result) ∨
      ∃ e w₂, (handleEntry limits flags hdr name).run w₁ = .error e w₂ ∧
        result = .error e w₂ := by
  cases hentry : (handleEntry limits flags hdr name).run w₁ with
  | ok _ w₂ =>
      obtain ⟨more, _, hrun⟩ := h.prefix (.cons hstart hentry (.nil w₂))
      exact Or.inl ⟨w₂, more, rfl, hrun⟩
  | error e w₂ =>
      exact Or.inr ⟨e, w₂, rfl, h.unique ⟨.nil w, .stopped hstart hentry⟩⟩

/-- What is made of an entry decides what the run concludes. -/
theorem LoopRun.concludes_entry {calm : Prop} {middle : List UInt8}
    (h : LoopRun limits flags w done last result)
    (hsizes : SizesFound limits flags sizes n w)
    (hstart : (startPass limits).run w = .ok (.entry hdr name) w₁)
    (hfront : front limits st.totalFiles input = .entry hdr name middle)
    (hentry : Triple (· = w₁) (handleEntry limits flags hdr name)
      (fun _ => Came calm cwd (storeEntry limits flags cwd (sizes n)
        st.countFile hdr (CString.ofBuffer name) middle))
      (Blames calm (storeEntry limits flags cwd (sizes n) st.countFile hdr
        (CString.ofBuffer name) middle = none))) :
    Concludes calm limits flags cwd sizes n st input result := by
  have hpass := hentry _ rfl
  rcases h.entry hstart with ⟨w₂, more, hrun, hloop⟩ | ⟨e, w₂, hrun, rfl⟩
  · rw [hrun] at hpass
    obtain ⟨st₁, rest, hstore, hat⟩ := hpass
    exact .entry hfront hstore
      (hloop.concludes hat (hsizes.next hstart hrun))
  · rw [hrun] at hpass
    exact fun hcalm => not_comes hfront (hpass hcalm)

/-- A file without a name is refused: it is made with a name. -/
theorem handleEntry_refused {place : Path × Name} {w₂ : World Unpacker}
    {middle : List UInt8} (hw : At False (Holds cwd st) middle w₁)
    (hreg : sIsReg hdr.mode = true)
    (hplace : (filePlace limits (CString.ofBuffer name)
      (validateFlags flags)).run w₁ = .ok place w₂)
    (htmpfile : w₂.statics.useTmpfile = true)
    (hrefused : TmpfileRefused w₂.outcomes) (size : UInt64) :
    Triple (· = w₁) (handleEntry limits flags hdr name)
      (fun _ => Came True cwd (storeEntry limits flags cwd size st hdr
        (CString.ofBuffer name) middle))
      (Blames True (storeEntry limits flags cwd size st hdr
        (CString.ofBuffer name) middle = none)) := by
  obtain ⟨⟨rfl, hvalid⟩, hat⟩ := (@filePlace_at False middle cwd st limits
    hdr (CString.ofBuffer name) flags).run_ok hw hplace
  have hsave := (@saveFile_at True middle cwd st limits hdr
    (CString.ofBuffer name) flags hreg hvalid).from_state
      ⟨hat.statics, hat.stdin, fun _ => Or.inr ⟨htmpfile, hrefused⟩⟩
  rw [storeEntry, if_pos hreg]
  refine Triple.bind ?_ fun _ => emitProcessed_came
  rw [processByType_reg hreg, processOneFileReg_place]
  rintro _ rfl
  rw [EStateM.run_bind, hplace]
  exact hsave _ rfl

theorem LoopRun.concludes_refused {front : List (FileHeader × List UInt8)}
    (h : LoopRun limits flags w done last result)
    (hw : At False (Holds cwd st) input w)
    (hsizes : SizesFound limits flags sizes n w)
    (hpasses : Passes limits flags w front w₁)
    (hrefuses : RefusesTmpfile limits flags w₁) :
    Concludes True limits flags cwd sizes n st input result := by
  induction hpasses generalizing st input n done with
  | nil w =>
      obtain ⟨hdr, name, w₁, place, w₂, hstart, hreg, hplace, htmpfile,
        hrefused⟩ := hrefuses
      obtain ⟨middle, hfront, hat⟩ := (@startPass_at limits cwd False st
        input).run_ok hw hstart
      exact h.concludes_entry hsizes hstart hfront
        (handleEntry_refused hat hreg hplace htmpfile hrefused _)
  | cons hstart hentry _ ih =>
      obtain ⟨middle, hfront, hat⟩ := (@startPass_at limits cwd False st
        input).run_ok hw hstart
      obtain ⟨st₁, rest, hstore, hat₁⟩ := (handleEntry_at hat
        (hsizes.here hstart)).run_ok rfl hentry
      obtain ⟨more, _, hloop⟩ := h.prefix (.cons hstart hentry (.nil _))
      exact .entry hfront hstore
        (ih hloop hat₁ (hsizes.next hstart hentry) hrefuses)

theorem Calm.concludes (hcalm : Calm limits flags w)
    (h : LoopRun limits flags w.started done last result)
    (hw : At False (Holds cwd st) input w.started)
    (hsizes : SizesFound limits flags sizes n w.started) :
    Concludes True limits flags cwd sizes n st input result := by
  rcases hcalm with hundisturbed | ⟨front, w₁, hpasses, hrefuses⟩
  · exact h.concludes ⟨hw.statics, hw.stdin, fun _ => hundisturbed⟩ hsizes
  · exact h.concludes_refused hw hsizes hpasses hrefuses

end

/-! Times that the clock decides. -/

/-- What an entry changes: it adds an item, or sets the times of a directory
that was there. -/
inductive Changed (items : Items) (dir : Path) (segment : Name) :
    Items → Prop
  | added (item : Item) (hfree : items (dir ++ [segment]) = none) :
      Changed items dir segment (items.put dir segment item)
  | renewed (mode : UInt32) (mtime : Timespec)
      (hpresent : items (dir ++ [segment]) ≠ none) :
      Changed items dir segment (Function.update items (dir ++ [segment])
        (some (.dir mode (some mtime))))

section

variable {items items' : Items} {dir path : Path} {segment : Name}

/-- An item that is added is as new as the clock says; one that was there
has its time set. -/
theorem Changed.here (h : Changed items dir segment items')
    (hpath : dir ++ [segment] = path) :
    (items' path).isSome = true ∧
      ∀ mode, items' path = some (.dir mode none) →
        (!(items path).isSome) = true := by
  subst hpath
  cases h with
  | added item hfree =>
      rw [Items.put_self, hfree]
      exact ⟨rfl, fun _ _ => rfl⟩
  | renewed mode mtime hpresent =>
      rw [Function.update_self]
      exact ⟨rfl, fun _ h => by cases h⟩

/-- Everywhere else nothing changes but the time of one directory. -/
theorem Changed.elsewhere (h : Changed items dir segment items')
    (hpath : dir ++ [segment] ≠ path) :
    (items' path).isSome = (items path).isSome ∧
      (dir ≠ path → items' path = items path) := by
  cases h with
  | added item hfree =>
      rw [Items.put_of_ne _ _ (Ne.symm hpath)]
      by_cases hdir : dir = path
      · rw [← hdir, Items.touch_self, Option.isSome_map]
        exact ⟨rfl, fun h => absurd rfl h⟩
      · rw [Items.touch_of_ne _ (Ne.symm hdir)]
        exact ⟨rfl, fun _ => rfl⟩
  | renewed mode mtime hpresent =>
      rw [Function.update_of_ne (Ne.symm hpath)]
      exact ⟨rfl, fun _ => rfl⟩

end

section

variable {limits : Limits} {flags : Flags} {cwd : Path} {size : UInt64}
  {st st' : Incoming} {hdr : FileHeader} {name : CString}
  {input rest : List UInt8}

theorem Incoming.add_changed {item : Item}
    (h : st.add cwd name item = some st') :
    Changed st.items (folder cwd name) (leaf name) st'.items := by
  rw [Incoming.add] at h
  split at h
  · rename_i hfree
    cases h
    exact .added item hfree.absent
  · cases h

theorem storeDirAt_changed (h : storeDirAt cwd st hdr name size
      (st.items (folder cwd name ++ [leaf name])) = some st') :
    Changed st.items (folder cwd name) (leaf name) st'.items := by
  generalize hitem : st.items (folder cwd name ++ [leaf name]) = item at h
  match item, h with
  | none, h => exact Incoming.add_changed h
  | some (.dir mode mtime), h =>
      rw [storeDirAt] at h
      split at h
      · cases h
      · cases h
        exact .renewed _ _ (by simp [hitem])

theorem map_pair {α β : Type} {x : Option α} {b : β} {a : α} {b' : β}
    (h : x.map (fun a => (a, b)) = some (a, b')) : x = some a := by
  cases x with
  | none => cases h
  | some a' =>
      cases h
      rfl

theorem storeEntry_changed (h : storeEntry limits flags cwd size st hdr name
      input = some (st', rest)) :
    Changed st.items (folder cwd name) (leaf name) st'.items := by
  rw [storeEntry] at h
  split at h
  · rw [storeFile] at h
    split at h
    · have hchanged := Incoming.add_changed (map_pair h)
      exact hchanged
    · cases h
  split at h
  · rw [storeLink] at h
    split at h
    · have hchanged := Incoming.add_changed (map_pair h)
      exact hchanged
    · cases h
  split at h
  · rw [storeDir] at h
    split at h
    · exact storeDirAt_changed (map_pair h)
    · cases h
  · cases h

end

/-- Whether the clock decides the time of a directory behind these entries:
an entry in the directory, and the entry that makes it, leave the time to the
clock, until the directory is sent again. -/
def clockDecides (cwd path : Path) :
    Bool → Bool → List (FileHeader × List UInt8) → Bool
  | _, decides, [] => decides
  | present, decides, (_, bytes) :: rest =>
      let name := CString.ofBuffer bytes
      if folder cwd name ++ [leaf name] = path then
        clockDecides cwd path true (!present) rest
      else
        clockDecides cwd path present
          (decides || decide (folder cwd name = path)) rest

/-- The time of a directory is unknown only if the clock has decided it. -/
theorem Enters.clockDecides {limits : Limits} {flags : Flags} {cwd : Path}
    {sizes : Nat → UInt64} {n : Nat} {st st' : Incoming}
    {input rest : List UInt8} {done : List (FileHeader × List UInt8)}
    (h : Enters limits flags cwd sizes n st input done st' rest)
    {path : Path} {mode : UInt32}
    (hitem : st'.items path = some (.dir mode none)) (decides : Bool)
    (hdecides : ∀ mode, st.items path = some (.dir mode none) →
      decides = true) :
    QubesUtils.clockDecides cwd path (st.items path).isSome decides done =
      true := by
  induction h generalizing decides with
  | nil n st input => exact hdecides mode hitem
  | @cons n st st₁ st₂ input middle rest last hdr name done hfront hstore _
      ih =>
      have hchanged := storeEntry_changed hstore
      change Changed st.items _ _ st₁.items at hchanged
      rw [QubesUtils.clockDecides]
      by_cases hplace : folder cwd (CString.ofBuffer name) ++
          [leaf (CString.ofBuffer name)] = path
      · rw [if_pos hplace]
        obtain ⟨hpresent, hdecided⟩ := hchanged.here hplace
        have hrest := ih hitem _ hdecided
        rw [hpresent] at hrest
        exact hrest
      · rw [if_neg hplace]
        obtain ⟨hsame, hkept⟩ := hchanged.elsewhere hplace
        rw [← hsame]
        refine ih hitem _ fun mode hnone => ?_
        rw [Bool.or_eq_true, decide_eq_true_eq]
        by_cases hfolder : folder cwd (CString.ofBuffer name) = path
        · exact Or.inr hfolder
        · rw [hkept hfolder] at hnone
          exact Or.inl (hdecides mode hnone)

/-! Two runs. -/

/-- What a calm run makes of its input. -/
def Transfers (limits : Limits) (flags : Flags) (sizes : Nat → UInt64)
    (w : World Unpacker) (done : List (FileHeader × List UInt8))
    (st : Incoming) (rest : List UInt8) : Prop :=
  Receives limits flags w.statics.cwd sizes 0 (.start w.statics.fs) w.stdin
    done st rest

section

variable {limits : Limits} {flags : Flags} {sizes : Nat → UInt64}
  {w w' : World Unpacker}

theorem Calm.finished (hcalm : Calm limits flags w) (htrace : w.trace = [])
    (hsizes : SizesFound limits flags sizes 0 w.started)
    (hrun : (doUnpackExt limits flags).run w = .ok 0 w') :
    ∃ done st rest, Transfers limits flags sizes w done st rest ∧
      CameThrough w.statics.cwd st w.stdin rest w' := by
  obtain ⟨_, _, _, hloop, _⟩ := doUnpackExt_loopRun limits flags htrace
  exact doUnpackExt_finished htrace hloop
    (hcalm.concludes hloop (started_at w) hsizes) hrun

theorem Calm.finishes (hcalm : Calm limits flags w) (htrace : w.trace = [])
    (hsizes : SizesFound limits flags sizes 0 w.started)
    {done : List (FileHeader × List UInt8)} {st : Incoming}
    {rest : List UInt8} (h : Transfers limits flags sizes w done st rest) :
    ∃ w', (doUnpackExt limits flags).run w = .ok 0 w' := by
  obtain ⟨_, _, _, hloop, _⟩ := doUnpackExt_loopRun limits flags htrace
  exact doUnpackExt_finishes htrace hloop
    (hcalm.concludes hloop (started_at w) hsizes) trivial ⟨done, st, rest, h⟩

end

/-- Two processes that have the same input and the same directory. -/
structure SameStart (left right : World Unpacker) : Prop where
  leftTrace : left.trace = []
  rightTrace : right.trace = []
  stdin : left.stdin = right.stdin
  cwd : left.statics.cwd = right.statics.cwd
  fs : left.statics.fs = right.statics.fs

section

variable {limits : Limits} {flags : Flags} {sizes : Nat → UInt64}
  {left right w w' : World Unpacker}

theorem SameStart.transfers (h : SameStart left right)
    {done : List (FileHeader × List UInt8)} {st : Incoming}
    {rest : List UInt8} :
    Transfers limits flags sizes left done st rest ↔
      Transfers limits flags sizes right done st rest := by
  rw [Transfers, Transfers, h.stdin, h.cwd, h.fs]

/-- With and without files that have no name, from one point of the run on or
all the way, the receiver comes to the same end. -/
theorem doUnpackExt_tmpfile_agrees (hstart : SameStart left right)
    (hleft : Calm limits flags left) (hright : Calm limits flags right)
    (hsizes : SizesFound limits flags sizes 0 left.started)
    (hsizes' : SizesFound limits flags sizes 0 right.started) :
    ((∃ w, (doUnpackExt limits flags).run left = .ok 0 w) ↔
      ∃ w, (doUnpackExt limits flags).run right = .ok 0 w) ∧
    ∀ w w', (doUnpackExt limits flags).run left = .ok 0 w →
      (doUnpackExt limits flags).run right = .ok 0 w' →
      (∃ done st rest, Transfers limits flags sizes left done st rest ∧
        AlikeTrees (fun path => clockDecides left.statics.cwd path
          (left.statics.fs.tree path).isSome false done = true)
          w.statics.fs w'.statics.fs) ∧
      w.crc32Sum = w'.crc32Sum ∧
      w.statics.totalBytes = w'.statics.totalBytes := by
  refine ⟨⟨?_, ?_⟩, ?_⟩
  · rintro ⟨w, hrun⟩
    obtain ⟨_, _, _, htransfers, _⟩ :=
      hleft.finished hstart.leftTrace hsizes hrun
    exact hright.finishes hstart.rightTrace hsizes'
      (hstart.transfers.mp htransfers)
  · rintro ⟨w, hrun⟩
    obtain ⟨_, _, _, htransfers, _⟩ :=
      hright.finished hstart.rightTrace hsizes' hrun
    exact hleft.finishes hstart.leftTrace hsizes
      (hstart.transfers.mpr htransfers)
  · intro w w' hrun hrun'
    obtain ⟨done, st, rest, htransfers, hfinished⟩ :=
      hleft.finished hstart.leftTrace hsizes hrun
    obtain ⟨_, _, _, htransfers', hfinished'⟩ :=
      hright.finished hstart.rightTrace hsizes' hrun'
    obtain ⟨rfl, rfl, rfl⟩ := Receives.unique htransfers
      (hstart.transfers.mpr htransfers')
    refine ⟨⟨done, st, rest, htransfers, ?_⟩, ?_, ?_⟩
    · refine hfinished.holds.shows.alike hfinished'.holds.shows
        fun path mode hitem => ?_
      obtain ⟨marker, henters, _⟩ := htransfers.entries
      rw [← FileSystem.items_isSome]
      exact henters.clockDecides hitem false fun mode hnone =>
        absurd hnone (left.statics.fs.items_time path mode)
    · obtain ⟨consumed, hconsumed, hcrc⟩ := hfinished.crc
      obtain ⟨consumed', hconsumed', hcrc'⟩ := hfinished'.crc
      rw [← hstart.stdin, ← hconsumed] at hconsumed'
      rw [hcrc, hcrc', List.append_cancel_right hconsumed']
    · rw [hfinished.holds.totalBytes, hfinished'.holds.totalBytes]

end

/-- The file `a` with one byte. -/
def smallStream : List UInt8 :=
  fileHeaderCodec.put ⟨2, 0x81A4, 1, 0, 0, 0, 0⟩ ++ [0x61, 0] ++ [7] ++
    fileHeaderCodec.put ⟨0, 0, 0, 0, 0, 0, 0⟩

/-- Without directories there are no sizes of directories. -/
theorem sizesFound_files {limits : Limits} {flags : Flags}
    {sizes : Nat → UInt64} {n : Nat} {w : World Unpacker}
    (h : ¬ hasFlag flags COPY_ALLOW_DIRECTORIES = true) :
    SizesFound limits flags sizes n w :=
  fun _ _ _ _ _ _ _ hdir => absurd hdir.2 h

theorem undisturbed_nil : Undisturbed [] :=
  fun _ h => absurd h List.not_mem_nil

theorem doUnpackExt_tmpfile_agrees_small :
    (∃ w, (doUnpackExt noLimits 0#32).run (freshWorld smallStream true) =
      .ok 0 w) ↔
    ∃ w, (doUnpackExt noLimits 0#32).run (freshWorld smallStream false) =
      .ok 0 w :=
  (@doUnpackExt_tmpfile_agrees noLimits 0#32 (fun _ => 0)
    (freshWorld smallStream true) (freshWorld smallStream false)
    ⟨rfl, rfl, rfl, rfl, rfl⟩ (Or.inl undisturbed_nil)
    (Or.inl undisturbed_nil) (sizesFound_files (by decide))
    (sizesFound_files (by decide))).1

/-- A receiver whose clock goes on by a second with every call. -/
def clockWorld (useTmpfile : Bool) : World Unpacker :=
  { freshWorld smallStream useTmpfile with
    outcomes := (List.range 20).map fun second =>
      ⟨none, false, 65535, ⟨UInt64.ofNat second, 0⟩⟩ }

/-- The run ends without an error. -/
def succeeds : EStateM.Result Exit (World Unpacker) UInt32 → Bool
  | .ok code _ => code == 0
  | .error _ _ => false

def mtimeOf : Option Node → Option Timespec
  | some (.dir attributes) => some attributes.mtime
  | _ => none

theorem AlikeNodes.mtimeOf {fs fs' : FileSystem} {clock : Prop}
    {node node' : Option Node} (h : AlikeNodes fs fs' clock node node')
    (hclock : ¬ clock) : QubesUtils.mtimeOf node = QubesUtils.mtimeOf node' := by
  cases h with
  | dir hmode hmtime => exact congrArg some (hmtime hclock)
  | absent => rfl
  | file => rfl
  | link => rfl

/-- The directory is as old as the file is under its name: in one case it has
got its name before its content, in the other case afterwards. -/
theorem clockWorld_times :
    SameStart (clockWorld true) (clockWorld false) ∧
      Undisturbed (clockWorld true).outcomes ∧
      (clockWorld true).outcomes = (clockWorld false).outcomes ∧
      succeeds ((doUnpackExt noLimits 0#32).run (clockWorld true)) = true ∧
      succeeds ((doUnpackExt noLimits 0#32).run (clockWorld false)) = true ∧
      ¬ AlikeTrees (fun _ => False)
        (finalState (doUnpackExt noLimits 0#32) (clockWorld true)).statics.fs
        (finalState (doUnpackExt noLimits 0#32)
          (clockWorld false)).statics.fs := by
  refine ⟨⟨rfl, rfl, rfl, rfl, rfl⟩, ?_, rfl, by decide +kernel,
    by decide +kernel, fun h => ?_⟩
  · intro outcome houtcome
    obtain ⟨second, _, rfl⟩ := List.mem_map.mp houtcome
    exact ⟨rfl, rfl⟩
  · have hne : mtimeOf ((finalState (doUnpackExt noLimits 0#32)
          (clockWorld true)).statics.fs.tree []) ≠
        mtimeOf ((finalState (doUnpackExt noLimits 0#32)
          (clockWorld false)).statics.fs.tree []) := by decide +kernel
    exact hne ((h []).mtimeOf id)

end QubesUtils
