/-
A regular file comes in: whichever way it is written, it is in the tree in the
end, or the receiver has been right to stop.
-/
import QubesUtils.Incoming

namespace QubesUtils

open Hoare Process ByteCodec FileSystem

/-! Files on their way. -/

/-- A file without a name. -/
structure Nameless (fs : FileSystem) (items : Items) (ino : Nat) : Prop where
  shows : Shows fs items
  nameless : ∀ path, fs.tree path ≠ some (.file ino)

/-- A file with one name. -/
structure NamedOnce (fs : FileSystem) (items : Items) (path : Path)
    (ino : Nat) : Prop where
  shows : ShowsBut path fs items
  here : fs.tree path = some (.file ino)
  once : ∀ other, fs.tree other = some (.file ino) → other = path

/-- The file that is written to, with so much in it. -/
structure Output (cwd : Path) (st : Incoming) (dir : Path) (segment : Name)
    (ino : Nat) (data : List UInt8) (u : Unpacker) : Prop where
  current : u.cwd = cwd
  totalBytes : u.totalBytes = st.totalBytes
  totalFiles : u.totalFiles = st.totalFiles
  opened : ino < u.fs.next
  content : (u.fs.inodes ino).data = data
  unnamed : u.useTmpfile = true → Nameless u.fs st.items ino
  named : u.useTmpfile = false → Free st.items dir segment ∧
    NamedOnce u.fs (st.items.touch dir) (dir ++ [segment]) ino

/-- The file under its name, with what is known of it. -/
structure Linked (cwd : Path) (st : Incoming) (dir : Path) (segment : Name)
    (ino : Nat) (known : Inode → Prop) (u : Unpacker) : Prop where
  current : u.cwd = cwd
  totalBytes : u.totalBytes = st.totalBytes
  totalFiles : u.totalFiles = st.totalFiles
  free : Free st.items dir segment
  file : NamedOnce u.fs (st.items.touch dir) (dir ++ [segment]) ino
  inode : known (u.fs.inodes ino)

section

variable {fs fs' : FileSystem} {items : Items} {path dir : Path}
  {segment : Name} {ino : Nat} {now : Timespec}

theorem nameless_alloc (h : Shows fs items) (inode : Inode) :
    Nameless (fs.alloc inode) items fs.next where
  shows := h.alloc inode
  nameless path hpath := absurd (fs.allocated path fs.next hpath)
    (Nat.lt_irrefl _)

/-- A file gets its name. -/
theorem Nameless.added (h : Nameless fs items ino)
    (hadded : Added fs dir segment (.file ino) now fs') :
    NamedOnce fs' (items.touch dir) (dir ++ [segment]) ino where
  shows := .added h.shows hadded
  here := hadded.entry
  once other hother := by
    rcases hadded.entry_cases (fun _ h => by cases h) hother with
      hold | ⟨heq, _⟩
    · exact absurd hold (h.nameless other)
    · exact heq

theorem free_of_added (h : Shows fs items) {node : Node}
    (hadded : Added fs dir segment node now fs') :
    Free items dir segment := by
  obtain ⟨attributes, hdir, _⟩ := hadded.parent
  exact ⟨(h.isDir_iff dir).mpr (FileSystem.isDir_iff.mpr ⟨_, hdir⟩),
    (h.absent_iff _).mpr hadded.free, hadded.short⟩

theorem not_free_of_error (h : Shows fs items) {node : Node} {errno : Errno}
    (hnormal : Normal segment) (hnode : node.allocated fs.next = true)
    (herror : fs.add dir segment node now = .error errno) :
    ¬ Free items dir segment := by
  intro hfree
  rcases add_error hnormal hnode herror with ⟨htaken, _⟩ | ⟨_, hlong⟩ | hnot
  · exact htaken ((h.absent_iff _).mp hfree.absent)
  · exact absurd hfree.short (Nat.not_le.mpr hlong)
  · rw [(h.isDir_iff dir).mp hfree.parent] at hnot
    cases hnot

theorem Nameless.setInode (h : Nameless fs items ino) (f : Inode → Inode) :
    Nameless (fs.setInode ino f) items ino :=
  ⟨h.shows.setInode h.nameless f, h.nameless⟩

theorem NamedOnce.setInode (h : NamedOnce fs items path ino)
    (f : Inode → Inode) : NamedOnce (fs.setInode ino f) items path ino :=
  ⟨h.shows.setInode h.once f, h.here, h.once⟩

theorem append_self (fs : FileSystem) (ino : Nat) (part : List UInt8)
    (now : Timespec) : ((fs.append ino part now).inodes ino).data =
      (fs.inodes ino).data ++ part := by
  rw [FileSystem.append, FileSystem.setInode]
  simp only
  rw [Function.update_self]

theorem Nameless.append (h : Nameless fs items ino) (part : List UInt8)
    (now : Timespec) : Nameless (fs.append ino part now) items ino :=
  h.setInode _

theorem NamedOnce.append (h : NamedOnce fs items path ino)
    (part : List UInt8) (now : Timespec) :
    NamedOnce (fs.append ino part now) items path ino :=
  h.setInode _

theorem change_self (fs : FileSystem) (ino : Nat)
    (f : Attributes → Attributes) :
    (fs.change (.file ino) f).inodes ino =
      ⟨f (fs.inodes ino).attributes, (fs.inodes ino).data⟩ := by
  rw [FileSystem.change, FileSystem.setInode]
  simp only
  rw [Function.update_self]

theorem NamedOnce.change (h : NamedOnce fs items path ino)
    (f : Attributes → Attributes) :
    NamedOnce (fs.change (.file ino) f) items path ino := by
  rw [FileSystem.change]
  exact h.setInode _

/-- A file that is complete is shown. -/
theorem NamedOnce.shows_file {inode : Inode}
    (h : NamedOnce fs (items.touch dir) (dir ++ [segment]) ino)
    (hinode : fs.inodes ino = inode) :
    Shows fs (items.put dir segment (.file inode.attributes.mode
      inode.attributes.mtime inode.data)) := by
  refine h.shows.shows_put ?_
  rw [h.here]
  exact .file hinode

end

/-! Opening. -/

/-- A refusal of a file without a name that makes the receiver go on
without one. -/
def TmpfileRefused (outcomes : List Outcome) : Prop :=
  ∃ outcome rest errno, outcomes = outcome :: rest ∧
    outcome.error = some errno ∧
    (errno.value = UInt32.ofNat ENOENT ∨
      errno.value = UInt32.ofNat EOPNOTSUPP) ∧ Undisturbed rest

/-- As `At`, in front of the call that may be refused. -/
structure AtTmpfile (calm : Prop) (P : Unpacker → Prop) (input : List UInt8)
    (w : World Unpacker) : Prop where
  statics : P w.statics
  stdin : w.stdin = input
  undisturbed : calm → Undisturbed w.outcomes ∨
    (w.statics.useTmpfile = true ∧ TmpfileRefused w.outcomes)

section

variable {calm refused : Prop} {input : List UInt8} {cwd : Path}
  {st : Incoming} {dir : Path} {segment : Name} {ino : Nat}
  {data : List UInt8} {E : Exit → World Unpacker → Prop}

/-- What holds in one of the modes. -/
def InMode (cwd : Path) (st : Incoming) (useTmpfile : Bool) (u : Unpacker) :
    Prop :=
  Holds cwd st u ∧ u.useTmpfile = useTmpfile

theorem openTmpfile_at :
    Triple (At calm (InMode cwd st true) input) (openTmpfile dir)
      (Performed calm (InMode cwd st true)
        (fun ino => Output cwd st dir segment ino [])
        (fun _ => st.items.isDir dir = false) input) E := by
  refine perform_at (fun u outcome ino effect fs hu _ hcall => ?_)
    fun u outcome errno hu hcall => ?_
  · obtain ⟨fs', htmpfile, heq⟩ := map_eq_ok.mp hcall
    simp only [Prod.mk.injEq] at heq
    obtain ⟨rfl, rfl, rfl⟩ := heq
    rw [tmpfileAt] at htmpfile
    split at htmpfile
    · rw [Except.ok.injEq] at htmpfile
      subst htmpfile
      refine ⟨hu.1.current, hu.1.totalBytes, hu.1.totalFiles,
        Nat.lt_succ_self _, ?_, fun _ => nameless_alloc hu.1.shows _,
        fun hfalse => absurd (hu.2.symm.trans hfalse) (by decide)⟩
      change (Function.update u.fs.inodes u.fs.next _ u.fs.next).data = []
      rw [Function.update_self]
    · cases htmpfile
  · rw [tmpfileAt] at hcall
    split at hcall
    · cases hcall
    · rename_i hdir
      refine Bool.eq_false_iff.mpr fun hshown => hdir ?_
      exact (hu.1.shows.isDir_iff dir).mp hshown

theorem createFile_at (hnormal : Normal segment) :
    Triple (At calm (InMode cwd st false) input) (createFile dir segment)
      (Performed calm (InMode cwd st false)
        (fun ino => Output cwd st dir segment ino [])
        (fun _ => ¬ Free st.items dir segment) input) E := by
  refine perform_at (fun u outcome ino effect fs hu _ hcall => ?_)
    fun u outcome errno hu hcall => ?_
  · obtain ⟨fs', hcreate, heq⟩ := map_eq_ok.mp hcall
    simp only [Prod.mk.injEq] at heq
    obtain ⟨rfl, rfl, rfl⟩ := heq
    have hadded := add_ok hcreate
    have hnew := nameless_alloc hu.1.shows
      ⟨⟨0, outcome.now, outcome.now⟩, []⟩
    refine ⟨hu.1.current, hu.1.totalBytes, hu.1.totalFiles, ?_, ?_,
      fun htrue => absurd (hu.2.symm.trans htrue) (by decide),
      fun _ => ⟨free_of_added hnew.shows hadded, hnew.added hadded⟩⟩
    · change u.fs.next < fs'.next
      rw [hadded.next]
      exact Nat.lt_succ_self _
    · change (fs'.inodes u.fs.next).data = []
      rw [hadded.inodes]
      change (Function.update u.fs.inodes u.fs.next _ u.fs.next).data = []
      rw [Function.update_self]
  · have hnode : (Node.file u.fs.next).allocated (u.fs.alloc
        ⟨⟨0, outcome.now, outcome.now⟩, []⟩).next = true :=
      decide_eq_true (Nat.lt_succ_self _)
    exact not_free_of_error (hu.1.shows.alloc _) hnormal hnode
      (map_eq_error.mp hcall)

/-- A refused call leaves the reason. -/
theorem openTmpfile_refused {w : World Unpacker}
    (hrefused : TmpfileRefused w.outcomes) :
    ∃ w', (openTmpfile dir).run w = .ok none w' ∧
      w'.statics = w.statics ∧ w'.stdin = w.stdin ∧
      Undisturbed w'.outcomes ∧ (w'.errno = UInt32.ofNat ENOENT ∨
        w'.errno = UInt32.ofNat EOPNOTSUPP) := by
  obtain ⟨outcome, rest, errno, houtcomes, herror, herrno, hrest⟩ := hrefused
  refine ⟨{ w with outcomes := rest, errno := errno.value }, ?_, rfl, rfl,
    hrest, herrno⟩
  have hattempt : (attempt : Unpack _).run w =
      .ok none { w with outcomes := rest, errno := errno.value } := by
    have hnext : (nextOutcome : Unpack Outcome).run w =
        .ok outcome { w with outcomes := rest } := by
      change EStateM.Result.ok (w.outcomes.headD .plain)
        { w with outcomes := w.outcomes.tail } = _
      rw [houtcomes]
      rfl
    rw [attempt, EStateM.run_bind, hnext]
    simp only [herror]
    rfl
  rw [openTmpfile, perform, EStateM.run_bind, hattempt]
  rfl

/-- What the attempt leaves to make a file without a name. -/
def TmpfileTried (calm : Prop) (cwd : Path) (st : Incoming) (dir : Path)
    (segment : Name) (input : List UInt8) :
    Option Nat → World Unpacker → Prop
  | some ino, w => At calm (Output cwd st dir segment ino []) input w
  | none, w => At calm (InMode cwd st true) input w ∧
      (calm → w.errno = UInt32.ofNat ENOENT ∨
        w.errno = UInt32.ofNat EOPNOTSUPP ∨ st.items.isDir dir = false)

theorem openTmpfile_tried :
    Triple (AtTmpfile calm (InMode cwd st true) input) (openTmpfile dir)
      (TmpfileTried calm cwd st dir segment input) E := by
  intro w hw
  by_cases hcalm : calm → Undisturbed w.outcomes
  · have htried := @openTmpfile_at calm input cwd st dir segment E w
      ⟨hw.statics, hw.stdin, hcalm⟩
    cases hrun : (openTmpfile dir).run w with
    | error e w' =>
        rw [hrun] at htried
        exact htried
    | ok result w' =>
        rw [hrun] at htried
        cases result with
        | some ino => exact htried
        | none =>
            refine ⟨htried.1, fun hcalm => Or.inr (Or.inr ?_)⟩
            obtain ⟨_, _, hdir⟩ := htried.2 hcalm
            exact hdir
  · obtain ⟨hcalm, hnot⟩ := Classical.not_imp.mp hcalm
    have hrefused := ((hw.undisturbed hcalm).resolve_left hnot).2
    obtain ⟨w', hrun, hstatics, hstdin, hrest, herrno⟩ :=
      @openTmpfile_refused dir w hrefused
    rw [hrun]
    refine ⟨⟨hstatics ▸ hw.statics, hstdin.trans hw.stdin, fun _ => hrest⟩,
      fun _ => ?_⟩
    exact herrno.imp_right Or.inl

theorem setUseTmpfile_at (value : Bool) :
    Triple (At calm (InMode cwd st true) input) (setUseTmpfile value)
      (fun _ => At calm (InMode cwd st value) input) E :=
  .modify fun _ h => ⟨⟨⟨h.statics.1.current, h.statics.1.shows,
    h.statics.1.totalBytes, h.statics.1.totalFiles⟩, rfl⟩, h.stdin,
      h.undisturbed⟩

/-- What the choice of the mode leaves. -/
def ModeChosen (calm : Prop) (cwd : Path) (st : Incoming) (dir : Path)
    (segment : Name) (input : List UInt8) :
    Option Nat → World Unpacker → Prop
  | some ino => At calm (Output cwd st dir segment ino []) input
  | none => At calm (InMode cwd st false) input

theorem tryTmpfile_at {name : CString}
    (hrefused : st.items.isDir dir = false → refused) :
    Triple (AtTmpfile calm (Holds cwd st) input) (tryTmpfile dir name)
      (ModeChosen calm cwd st dir segment input) (Blames calm refused) := by
  refine .get_bind fun w hw => .ite (fun htrue => ?_) fun hfalse => ?_
  · have hstart : AtTmpfile calm (InMode cwd st true) input w :=
      ⟨⟨hw.statics, htrue⟩, hw.stdin, hw.undisturbed⟩
    refine ((@openTmpfile_tried calm input cwd st dir segment _).from_state
      hstart).bind fun result => ?_
    cases result with
    | some ino => exact .ret fun _ h => h
    | none =>
        refine .get_bind fun w' hw' => .ite (fun _ => ?_) fun herrno => ?_
        · exact ((setUseTmpfile_at false).from_state hw'.1).bind fun _ =>
            .ret fun _ h => h
        · refine doExitErrno_blames fun _ _ hcalm => hrefused ?_
          obtain ⟨henoent, hunsupported⟩ := not_or.mp herrno
          exact ((hw'.2 hcalm).resolve_left henoent).resolve_left
            hunsupported
  · have hplain := Bool.eq_false_iff.mpr hfalse
    refine .ret fun _ h => h ▸ ⟨⟨hw.statics, hplain⟩, hw.stdin,
      fun hcalm => ?_⟩
    exact (hw.undisturbed hcalm).resolve_right fun htmp => hfalse htmp.1

theorem openOutput_at {name : CString} (hnormal : Normal segment)
    (hrefused : ¬ Free st.items dir segment → refused) :
    Triple (AtTmpfile calm (Holds cwd st) input) (openOutput dir segment name)
      (fun ino => At calm (Output cwd st dir segment ino []) input)
      (Blames calm refused) := by
  have hdir : st.items.isDir dir = false → refused := by
    refine fun hdir => hrefused fun hfree => ?_
    rw [hfree.1] at hdir
    cases hdir
  refine (@tryTmpfile_at calm refused input cwd st dir segment name
    hdir).bind fun result => ?_
  cases result with
  | some ino => exact .ret fun _ h => h
  | none =>
      refine (createFile_at hnormal).bind fun result => ?_
      cases result with
      | some ino => exact .ret fun _ h => h
      | none =>
          refine doExitErrno_blames fun _ h hcalm => hrefused ?_
          obtain ⟨_, _, hnot⟩ := h.2 hcalm
          exact hnot

/-! Content. -/

theorem writeFile_at {rest : List UInt8} (hdata : data ≠ [])
    {put : List UInt8} :
    Triple (At calm (Output cwd st dir segment ino put) rest)
      (writeFile ino data)
      (PartPut (fun put => At calm (Output cwd st dir segment ino put) rest)
        (fun _ => ¬ calm) put data) E := by
  refine (perform_at (P := Output cwd st dir segment ino put)
    (Q := fun count u => (count = 0 → ¬ calm) ∧ Output cwd st dir segment
      ino (put ++ data.take count) u) (F := fun _ => False)
    (fun u outcome count effect fs hu hfull hcall => ?_)
    fun u outcome errno hu hcall => ?_).post_mono fun result w h => ?_
  · simp only [Except.ok.injEq, Prod.mk.injEq] at hcall
    obtain ⟨rfl, rfl, rfl⟩ := hcall
    have hlength := List.length_pos_iff.mpr hdata
    refine ⟨fun hzero hcalm => ?_, hu.current, hu.totalBytes, hu.totalFiles,
      hu.opened, ?_, fun htmp => (hu.unnamed htmp).append _ _,
      fun hplain => ⟨(hu.named hplain).1, (hu.named hplain).2.append _ _⟩⟩
    · rw [List.length_take, Outcome.count_of_not_empty (hfull hcalm)]
        at hzero
      omega
    · rw [List.length_take, ← List.take_eq_take_min, ← hu.content]
      exact append_self _ _ _ _
  · cases hcall
  · cases result with
    | none => exact h.blames
    | some count =>
        exact ⟨h.statics.1, fun _ => ⟨h.statics.2, h.stdin, h.undisturbed⟩⟩

variable {limits : Limits} {hdr : FileHeader} {name : CString}

theorem checkQuota_at {P : Unpacker → Prop} {filelen totalBytes : UInt64}
    (hP : ∀ u, P u → u.totalBytes = totalBytes)
    (hrefused : OverQuota limits filelen totalBytes → refused) :
    Triple (At calm P input) (checkQuota limits filelen name)
      (fun _ w => At calm P input w ∧
        ¬ OverQuota limits filelen totalBytes) (Blames calm refused) := by
  refine .get_bind fun w hw => ?_
  rw [hP _ hw.statics]
  refine .ite (fun hfirst => ?_) fun hfirst => .ite (fun hsecond => ?_)
    fun hsecond => .ret fun _ h => h ▸ ⟨hw, fun hover => ?_⟩
  · exact doExit_blames fun _ _ _ => hrefused (or_assoc.mp (Or.inl hfirst))
  · exact doExit_blames fun _ _ _ => hrefused (Or.inr (Or.inr hsecond))
  · exact hsecond ((or_assoc.mpr hover).resolve_left hfirst)

theorem pollSpace_suffix (howMuch : UInt64) (outcomes : List Outcome) :
    (pollSpace howMuch outcomes).2 <:+ outcomes := by
  induction outcomes with
  | nil => exact List.suffix_rfl
  | cons outcome rest ih =>
      rw [pollSpace]
      split
      · exact List.suffix_cons _ _
      · split
        · exact ih.trans (List.suffix_cons _ _)
        · exact List.suffix_cons _ _

theorem reserveSpace_at {P : Unpacker → Prop} (filelen : UInt64) :
    Triple (At calm P input) (reserveSpace limits filelen)
      (fun _ => At calm P input) E := by
  refine .ite (fun _ => .modify fun w h => ?_) fun _ => .ret fun _ h => h
  exact ⟨h.statics, h.stdin, fun hcalm outcome houtcome =>
    h.undisturbed hcalm outcome ((pollSpace_suffix _ _).subset houtcome)⟩

theorem addTotalBytes_output (count : UInt64) :
    Triple (At calm (Output cwd st dir segment ino data) input)
      (addTotalBytes count)
      (fun _ => At calm (Output cwd (st.count count) dir segment ino data)
        input) E := by
  refine .modify fun w h => ⟨?_, h.stdin, h.undisturbed⟩
  refine ⟨h.statics.current, ?_, h.statics.totalFiles, h.statics.opened,
    h.statics.content, h.statics.unnamed, h.statics.named⟩
  change w.statics.totalBytes + count = st.totalBytes + count
  rw [h.statics.totalBytes]

/-- The content of a file comes from the input. -/
theorem fillOutput_at
    (hquota : OverQuota limits hdr.filelen st.totalBytes → refused)
    (hshort : input.length < hdr.filelen.toNat → refused) :
    Triple (At calm (Output cwd st dir segment ino []) input)
      (fillOutput limits ino hdr name)
      (fun _ w => ∃ payload rest, (input = payload ++ rest ∧
          payload.length = hdr.filelen.toNat ∧
          ¬ OverQuota limits hdr.filelen st.totalBytes) ∧
        At calm (Output cwd (st.count hdr.filelen) dir segment ino payload)
          rest w) (Blames calm refused) := by
  refine (checkQuota_at (fun _ h => h.totalBytes) hquota).bind fun _ => ?_
  refine Triple.assume (fun _ h => h.2) fun hfits => ?_
  refine Triple.pre_mono ?_ fun _ h => h.1
  refine (reserveSpace_at _).bind fun _ => ?_
  refine (addTotalBytes_output _).bind fun _ => ?_
  refine (@copyFile_at _ calm input _
    (Output cwd (st.count hdr.filelen) dir segment ino) _ _
    fun rest put data hdata => writeFile_at hdata).bind fun status => ?_
  cases status with
  | ok =>
      refine .ret fun w h => ?_
      obtain ⟨payload, hlength, rest, hinput, hat⟩ := h
      exact ⟨payload, rest, ⟨hinput, hlength, hfits⟩, hat⟩
  | readEof => exact doExit_blames fun _ h hcalm => hshort (h hcalm)
  | readError => exact doExit_blames fun _ h hcalm => hshort (h hcalm)
  | writeError => exact doExitErrno_blames fun _ h hcalm => absurd hcalm h

/-! The name, the permissions and the times. -/

/-- What is left when a file has got its name, or has not. -/
def NameGiven (calm : Prop) (cwd : Path) (st : Incoming) (dir : Path)
    (segment : Name) (ino : Nat) (data input : List UInt8) :
    Option Unit → World Unpacker → Prop
  | some _ => At calm (Linked cwd st dir segment ino (·.data = data)) input
  | none => fun _ => calm → ¬ Free st.items dir segment

theorem nameOutput_at (hnormal : Normal segment) :
    Triple (At calm (Output cwd st dir segment ino data) input)
      (nameOutput ino dir segment)
      (NameGiven calm cwd st dir segment ino data input) E := by
  refine .get_bind fun w hw => .ite (fun htrue => ?_) fun hfalse => ?_
  · have hlink : Triple (At calm (fun u => Output cwd st dir segment ino
          data u ∧ u.useTmpfile = true) input) (linkFile ino dir segment)
        (Performed calm (fun u => Output cwd st dir segment ino data u ∧
            u.useTmpfile = true)
          (fun _ => Linked cwd st dir segment ino (·.data = data))
          (fun _ => ¬ Free st.items dir segment) input) E := by
      refine perform_at (fun u outcome result effect fs hu _ hcall => ?_)
        fun u outcome errno hu hcall => ?_
      · obtain ⟨fs', hlink, heq⟩ := map_eq_ok.mp hcall
        simp only [Prod.mk.injEq, true_and] at heq
        obtain ⟨rfl, rfl⟩ := heq
        have hadded := add_ok hlink
        have hunnamed := hu.1.unnamed hu.2
        refine ⟨hu.1.current, hu.1.totalBytes, hu.1.totalFiles,
          free_of_added hunnamed.shows hadded, hunnamed.added hadded, ?_⟩
        change (fs'.inodes ino).data = data
        rw [hadded.inodes, hu.1.content]
      · have hnode : (Node.file ino).allocated u.fs.next = true :=
          decide_eq_true hu.1.opened
        exact not_free_of_error (hu.1.unnamed hu.2).shows hnormal hnode
          (map_eq_error.mp hcall)
    refine (hlink.from_state ⟨⟨hw.statics, htrue⟩, hw.stdin,
      hw.undisturbed⟩).post_mono fun result w' h => ?_
    cases result with
    | some _ => exact h
    | none =>
        intro hcalm
        obtain ⟨_, _, hnot⟩ := h.2 hcalm
        exact hnot
  · refine .ret fun _ h => h ▸ ⟨?_, hw.stdin, hw.undisturbed⟩
    obtain ⟨hfree, hfile⟩ := hw.statics.named (Bool.eq_false_iff.mpr hfalse)
    exact ⟨hw.statics.current, hw.statics.totalBytes, hw.statics.totalFiles,
      hfree, hfile, hw.statics.content⟩

theorem validateUtimeNsec_at {pre : World Unpacker → Prop}
    {untrustedNsec : UInt32} (hrefused : untrustedNsec > 999999999 → refused) :
    Triple pre (validateUtimeNsec untrustedNsec)
      (fun nsec w => pre w ∧ nsec = untrustedNsec.toUInt64 ∧
        ¬ untrustedNsec > 999999999) (Blames calm refused) :=
  .ite (fun hlarge => .throw fun _ _ _ => hrefused hlarge) fun hsmall =>
    .ret fun _ h => ⟨h, rfl, hsmall⟩

/-- A change of attributes cannot fail but by the environment. -/
theorem changeFile_at {known known' : Inode → Prop} {effect : Effect}
    (f : Attributes → Attributes)
    {call : FileSystem → Outcome → Except Errno (Unit × Effect × FileSystem)}
    (hcall : ∀ fs outcome, call fs outcome =
      .ok ((), effect, fs.change (.file ino) f))
    (hknown : ∀ inode, known inode →
      known' ⟨f inode.attributes, inode.data⟩) :
    Triple (At calm (Linked cwd st dir segment ino known) input)
      (perform call)
      (Performed calm (Linked cwd st dir segment ino known)
        (fun _ => Linked cwd st dir segment ino known') (fun _ => False)
        input) E := by
  refine perform_at (fun u outcome result effect' fs hu _ hresult => ?_)
    fun u outcome errno hu hresult => ?_
  · rw [hcall, Except.ok.injEq, Prod.mk.injEq, Prod.mk.injEq] at hresult
    obtain ⟨_, rfl, rfl⟩ := hresult
    refine ⟨hu.current, hu.totalBytes, hu.totalFiles, hu.free,
      hu.file.change f, ?_⟩
    have hinode : known' ((u.fs.change (.file ino) f).inodes ino) := by
      rw [change_self]
      exact hknown _ hu.inode
    exact hinode
  · rw [hcall] at hresult
    cases hresult

/-- A file that has its name, its permissions and its times is there. -/
theorem fixTimesAndPerms_file (hreg : sIsReg hdr.mode = true)
    (hrefused : OutOfRange hdr → refused) :
    Triple (At calm (Linked cwd st dir segment ino (·.data = data)) input)
      (fixTimesAndPerms (.file ino) hdr name)
      (fun _ w => (Free st.items dir segment ∧ ¬ OutOfRange hdr) ∧
        At calm (Holds cwd { st with
          items := st.items.put dir segment
            (.file (hdr.mode &&& 0o7777) hdr.modified data) }) input w)
      (Blames calm refused) := by
  refine (validateUtimeNsec_at fun h => hrefused (Or.inl h)).bind
    fun atimeNsec => ?_
  refine Triple.assume (fun _ h => h.2.2) fun hatime => ?_
  refine Triple.pre_mono ?_ fun _ h => h.1
  refine (validateUtimeNsec_at fun h => hrefused (Or.inr h)).bind
    fun mtimeNsec => ?_
  refine Triple.assume (fun _ h => h.2) fun hmtime => ?_
  refine Triple.pre_mono ?_ fun _ h => h.1
  have hrange : ¬ OutOfRange hdr := fun h => h.elim hatime hmtime.2
  have hlink : sIsLnk hdr.mode = false := by
    cases hlnk : sIsLnk hdr.mode with
    | false => rfl
    | true =>
        rw [(sIsLnk_exclusive hlnk).1] at hreg
        cases hreg
  have hmode := @changeFile_at calm input cwd st dir segment ino
    (Blames calm refused) (·.data = data)
    (fun inode => inode.attributes.mode = hdr.mode &&& 0o7777 ∧
      inode.data = data) (.chmod (.file ino))
    (fun a => { a with mode := hdr.mode &&& 0o7777 }) _ (fun _ _ => rfl)
    fun _ h => ⟨rfl, h⟩
  rw [setMode, if_neg (by simp [hlink])]
  refine hmode.bind fun result => ?_
  cases result with
  | none => exact doExitErrno_blames fun _ h => h.blames
  | some _ =>
      have htimes := @changeFile_at calm input cwd st dir segment ino
        (Blames calm refused)
        (fun inode => inode.attributes.mode = hdr.mode &&& 0o7777 ∧
          inode.data = data)
        (fun inode => (inode.attributes.mode = hdr.mode &&& 0o7777 ∧
          inode.data = data) ∧ inode.attributes.mtime = hdr.modified)
        (.utimes (.file ino))
        (fun a => { a with
          atime := ⟨hdr.atime.toUInt64, atimeNsec⟩
          mtime := ⟨hdr.mtime.toUInt64, mtimeNsec⟩ }) _ (fun _ _ => rfl)
        fun _ h => ⟨h, by rw [hmtime.1, FileHeader.modified]⟩
      refine htimes.bind fun result => ?_
      cases result with
      | none => exact doExitErrno_blames fun _ h => h.blames
      | some _ =>
          refine .ret fun w h => ⟨⟨h.statics.free, hrange⟩, ?_, h.stdin,
            h.undisturbed⟩
          obtain ⟨⟨hmode, hdata⟩, hmodified⟩ := h.statics.inode
          have hshows := h.statics.file.shows_file rfl
          rw [hmode, hmodified, hdata] at hshows
          exact ⟨h.statics.current, hshows, h.statics.totalBytes,
            h.statics.totalFiles⟩

/-! The whole entry. -/

/-- What has come in is in the tree, and so much of the input is left. -/
def Came (calm : Prop) (cwd : Path) (result : Option (Incoming × List UInt8))
    (w : World Unpacker) : Prop :=
  ∃ st rest, result = some (st, rest) ∧ At calm (Holds cwd st) rest w

theorem storeFile_some {flags : Flags}
    (hvalid : qubesPureValidateFileNameV2 limits.table name
      (validateFlags flags) = .ok 0)
    (hquota : ¬ OverQuota limits hdr.filelen st.totalBytes)
    {payload rest : List UInt8} (hinput : input = payload ++ rest)
    (hlength : payload.length = hdr.filelen.toNat)
    (hrange : ¬ OutOfRange hdr)
    (hfree : Free st.items (folder cwd name) (leaf name)) :
    storeFile limits flags cwd st hdr name input =
      some ({ st.count hdr.filelen with
        items := st.items.put (folder cwd name) (leaf name)
          (.file (hdr.mode &&& 0o7777) hdr.modified payload) }, rest) := by
  have htake : input.take hdr.filelen.toNat = payload := by
    rw [hinput, ← hlength, List.take_left]
  have hdrop : input.drop hdr.filelen.toNat = rest := by
    rw [hinput, ← hlength, List.drop_left]
  have hle : hdr.filelen.toNat ≤ input.length := by
    rw [hinput, List.length_append]
    omega
  rw [storeFile, if_pos ⟨hvalid, hquota, hle, hrange⟩, htake, hdrop,
    @Incoming.add_free (st.count hdr.filelen) _ _ _ hfree]
  rfl

theorem storeFile_not_free {flags : Flags}
    (h : ¬ Free st.items (folder cwd name) (leaf name)) :
    storeFile limits flags cwd st hdr name input = none := by
  rw [storeFile]
  split
  · rw [@Incoming.add_not_free (st.count hdr.filelen) _ _ _ h]
    rfl
  · rfl

/-- A file whose place has been found. -/
theorem saveFile_at {flags : Flags} (hreg : sIsReg hdr.mode = true)
    (hvalid : qubesPureValidateFileNameV2 limits.table name
      (validateFlags flags) = .ok 0) :
    Triple (AtTmpfile calm (Holds cwd st) input)
      (saveFile limits hdr name (folder cwd name, leaf name))
      (fun _ => Came calm cwd (storeFile limits flags cwd st hdr name input))
      (Blames calm (storeFile limits flags cwd st hdr name input = none)) := by
  have hnormal : Normal (leaf name) := leaf_normal (normal_of_fileName hvalid)
  refine (openOutput_at hnormal storeFile_not_free).bind fun fdout => ?_
  refine (fillOutput_at (fun hover => ?_) fun hshort => ?_).bind fun _ => ?_
  · rw [storeFile, if_neg fun h => h.2.1 hover]
  · rw [storeFile, if_neg fun h => by omega]
  refine Triple.exists_pre fun payload => Triple.exists_pre fun rest => ?_
  refine Triple.assume (fun _ h => h.1) fun hpayload => ?_
  refine Triple.pre_mono ?_ fun _ h => h.2
  obtain ⟨hinput, hlength, hquota⟩ := hpayload
  refine (nameOutput_at hnormal).bind fun result => ?_
  cases result with
  | none =>
      exact doExitErrno_blames fun _ h hcalm => storeFile_not_free (h hcalm)
  | some _ =>
      refine (fixTimesAndPerms_file hreg fun hrange => ?_).post_mono
        fun _ w h => ?_
      · rw [storeFile, if_neg fun h => h.2.2.2 hrange]
      · exact ⟨_, _, storeFile_some hvalid hquota hinput hlength h.1.2 h.1.1,
          h.2⟩

/-- The way to the directory of an entry. -/
theorem opendir_at {w : World Unpacker}
    (hw : At calm (Holds cwd st) input w)
    (hnormal : ∀ component ∈ components name.bytes, Normal component)
    (hrefused : st.items.isDir (folder cwd name) = false → refused) :
    Triple (· = w) (opendirSafe w.statics.cwd (components name.bytes))
      (fun place w => place = (folder cwd name, leaf name) ∧
        At calm (Holds cwd st) input w) (Blames calm refused) := by
  have hopen := @opendirSafe_at calm refused input w.statics
    (components name.bytes) (components_ne_nil _) hnormal w.statics.cwd ?_
  · refine (hopen.from_state ⟨rfl, hw.stdin, hw.undisturbed⟩).post_mono
      fun place w' h => ⟨?_, ?_⟩
    · rw [h.2, hw.statics.current]
      rfl
    · exact h.1.imp fun _ hu => hu ▸ hw.statics
  · rw [hw.statics.current]
    intro hdir
    refine hrefused (Bool.eq_false_iff.mpr fun hitems => ?_)
    have hshown := (hw.statics.shows.isDir_iff _).mp hitems
    rw [folder, hdir] at hshown
    cases hshown

theorem filePlace_at {flags : Flags} :
    Triple (At calm (Holds cwd st) input)
      (filePlace limits name (validateFlags flags))
      (fun place w => (place = (folder cwd name, leaf name) ∧
        qubesPureValidateFileNameV2 limits.table name
          (validateFlags flags) = .ok 0) ∧
        At calm (Holds cwd st) input w)
      (Blames calm (storeFile limits flags cwd st hdr name input = none)) := by
  refine (liftFault_reading (qubesPureValidateFileNameV2_total _)).bind
    fun ret => ?_
  refine Triple.assume (fun _ h => h.1) fun hret => ?_
  refine Triple.pre_mono ?_ fun _ h => h.2
  refine .ite (fun hne => doExit_blames fun _ _ _ => ?_) fun hzero => ?_
  · refine if_neg fun h => hne ?_
    rw [h.1, Except.ok.injEq] at hret
    exact hret.symm
  rw [not_not.mp hzero] at hret
  refine (strdup_at name).bind fun _ => .get_bind fun w hw => ?_
  refine (opendir_at hw (normal_of_fileName hret) fun hdir => ?_).post_mono
    fun _ _ h => ⟨⟨h.1, hret⟩, h.2⟩
  refine storeFile_not_free fun hfree => ?_
  rw [hfree.1] at hdir
  cases hdir

theorem processOneFileReg_at {flags : Flags} (hreg : sIsReg hdr.mode = true) :
    Triple (At calm (Holds cwd st) input)
      (processOneFileReg limits hdr name (validateFlags flags))
      (fun _ => Came calm cwd (storeFile limits flags cwd st hdr name input))
      (Blames calm (storeFile limits flags cwd st hdr name input = none)) := by
  rw [processOneFileReg_place]
  refine (@filePlace_at calm input cwd st limits hdr name flags).bind
    fun place => ?_
  refine Triple.assume (fun _ h => h.1) fun hplace => ?_
  obtain ⟨rfl, hvalid⟩ := hplace
  exact (saveFile_at hreg hvalid).pre_mono fun _ h =>
    ⟨h.2.statics, h.2.stdin, fun hcalm => Or.inl (h.2.undisturbed hcalm)⟩

end

end QubesUtils
