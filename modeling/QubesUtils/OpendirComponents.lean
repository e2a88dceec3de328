/-
`opendir_safe` and the validators cut a name at the same places.
-/
import QubesUtils.OpendirSafe

namespace QubesUtils.OpendirSafe

open Hoare Separated

variable {table : AllowTable} {name : CString} {dirfd curFd : Fd}
  {start m : Memory} {thisSegment : Option Nat} {segments : List Name}
  {text : List UInt8} {calls : List Call}

theorem components_of_free (h : slash ∉ text) : components text = [text] :=
  List.splitOn_eq_singleton h

theorem components_cut {segment rest : List UInt8} (h : slash ∉ segment) :
    components (segment ++ slash :: rest) = segment :: components rest :=
  List.splitOn_append_cons_self_of_not_mem h rest

/-- The directory of the caller is left open. -/
theorem Descended.dirfd_open (h : Descended dirfd segments calls curFd) :
    .close dirfd ∉ calls := by
  induction h with
  | start => exact List.not_mem_nil
  | next segment newFd _ ih =>
      intro hmem
      rcases List.mem_append.mp hmem with hmem | hmem
      · exact ih hmem
      rcases List.mem_cons.mp hmem with heq | hmem
      · cases heq
      rw [closing] at hmem
      split at hmem
      · rename_i hne
        have heq := Call.close.inj (List.mem_singleton.mp hmem)
        exact hne heq.symm
      · exact List.not_mem_nil hmem

/-- The loop has come to a segment: the text from there on is as it was, and
the directories on the way have been opened. -/
structure Descending (name : CString) (dirfd : Fd) (start : Memory)
    (segments : List Name) (text : List UInt8) (curFd : Fd)
    (thisSegment : Option Nat) (m : Memory) : Prop where
  position : ∃ front rest, thisSegment = some front.length ∧
    m.buffer = front ++ (text ++ 0 :: rest)
  noNul : (0 : UInt8) ∉ text
  pieces : components name.bytes = segments ++ components text
  held : OneMore dirfd start.fds curFd m.fds
  descended : Descended dirfd segments m.calls curFd

theorem Descending.first (hbuffer : start.buffer = name.bytes ++ [0])
    (hcalls : start.calls = []) :
    Descending name dirfd start [] name.bytes dirfd (some 0) start where
  position := ⟨[], [], rfl, hbuffer⟩
  noNul := name.noNul
  pieces := rfl
  held := .none
  descended := hcalls ▸ .start

/-- A directory that could not be opened. -/
structure Refusal (name : CString) (dirfd : Fd) (stop : Stop) (m : Memory) :
    Prop where
  refused : ∃ errno segment segments calls curFd,
    stop = .doExit errno segment ∧
      segments ++ [segment] <+: (components name.bytes).dropLast ∧
      Descended dirfd segments calls curFd ∧
      m.calls = calls ++ [.openat curFd segment none]

/-- What is returned. -/
structure Found (name : CString) (dirfd : Fd) (start : Memory)
    (place : Fd × Nat) (m : Memory) : Prop where
  descended : Descended dirfd (components name.bytes).dropLast m.calls place.1
  held : OneMore dirfd start.fds place.1 m.fds
  last : (components name.bytes).getLast? = some (stringAt m.buffer place.2)

/-- An iteration comes to the end, or to the next segment. -/
theorem Descending.pass
    (hnormal : ∀ component ∈ components name.bytes, Normal component)
    (hdirfd : Valid dirfd start.fds) :
    Triple (Descending name dirfd start segments text curFd thisSegment)
      (opendirPass dirfd curFd thisSegment)
      (fun pass m => (∃ last, pass = .done curFd last ∧
          Found name dirfd start (curFd, last) m) ∨
        ∃ segment rest next curFd', text = segment ++ slash :: rest ∧
          pass = .next next curFd' ∧
          Descending name dirfd start (segments ++ [segment]) rest curFd'
            next m)
      (Refusal name dirfd) := by
  intro m hm
  obtain ⟨front, tail, rfl, hbuffer⟩ := hm.position
  rcases free_or_first_piece slash text with hfree |
    ⟨segment, rest, rfl, hsegment⟩
  · have hpass : Triple (· = m) (opendirPass dirfd curFd (some front.length))
        (fun pass m' => pass = .done curFd front.length ∧ m' = m)
        (Refusal name dirfd) := opendirPass_done hbuffer hfree hm.noNul _
    refine (hpass.post_mono ?_) m rfl
    rintro _ _ ⟨rfl, rfl⟩
    refine Or.inl ⟨_, rfl, ?_⟩
    have hpieces := hm.pieces
    rw [components_of_free hfree] at hpieces
    refine ⟨?_, hm.held, ?_⟩
    · rw [hpieces, List.dropLast_concat]
      exact hm.descended
    · rw [hpieces, List.getLast?_concat, hbuffer, stringAt_append front hm.noNul]
  · have hpieces := hm.pieces
    rw [components_cut hsegment] at hpieces
    have hnul := hm.noNul
    rw [List.mem_append, List.mem_cons, not_or, not_or] at hnul
    rw [List.append_assoc, List.cons_append] at hbuffer
    have hmem : segment ∈ components name.bytes := by
      rw [hpieces]
      exact List.mem_append_right _ List.mem_cons_self
    have hpass := opendirPass_next hm.held hdirfd hbuffer hsegment hnul.1
      (hnormal segment hmem)
    refine (hpass.mono (fun _ h => h) ?_ ?_) m rfl
    · rintro _ m' ⟨newFd, rfl, hbuffer', hheld, hcalls⟩
      refine Or.inr ⟨segment, rest, _, _, rfl, rfl, ?_⟩
      refine ⟨⟨front ++ segment ++ [0], tail, ?_, ?_⟩, hnul.2.2, ?_, hheld, ?_⟩
      · simp [Nat.add_assoc]
      · rw [hbuffer']
        simp
      · rw [hpieces, List.append_assoc, List.singleton_append]
      · rw [hcalls]
        exact .next segment newFd hm.descended
    · rintro _ m' ⟨errno, rfl, hcalls⟩
      refine ⟨errno, segment, segments, m.calls, curFd, rfl, ?_,
        hm.descended, hcalls⟩
      rw [hpieces, List.dropLast_append_of_ne_nil (List.cons_ne_nil _ _),
        List.dropLast_cons_of_ne_nil (components_ne_nil rest)]
      exact ⟨(components rest).dropLast, by simp⟩

theorem Descending.loop
    (hnormal : ∀ component ∈ components name.bytes, Normal component)
    (hdirfd : Valid dirfd start.fds) {fuel : Nat}
    (hfuel : text.length < fuel) :
    Triple (Descending name dirfd start segments text curFd thisSegment)
      (opendirLoop dirfd fuel curFd thisSegment) (Found name dirfd start)
      (Refusal name dirfd) := by
  induction fuel generalizing segments text curFd thisSegment with
  | zero => omega
  | succ fuel ih =>
      refine (Descending.pass hnormal hdirfd).bind fun pass => ?_
      intro m hm
      rcases hm with ⟨last, rfl, hfound⟩ |
        ⟨segment, rest, next, curFd', rfl, rfl, hnext⟩
      · exact hfound
      · rw [List.length_append, List.length_cons] at hfuel
        exact ih (by omega) m hnext

/-- Every iteration begins at a segment. -/
theorem Iterates.descending
    (hnormal : ∀ component ∈ components name.bytes, Normal component)
    (hdirfd : Valid dirfd start.fds)
    (hbuffer : start.buffer = name.bytes ++ [0]) (hcalls : start.calls = [])
    (h : Iterates dirfd start 0 curFd thisSegment m) :
    ∃ segments text,
      Descending name dirfd start segments text curFd thisSegment m := by
  induction h with
  | first => exact ⟨[], name.bytes, .first hbuffer hcalls⟩
  | next _ hrun ih =>
      obtain ⟨segments, text, hm⟩ := ih
      rcases (Descending.pass hnormal hdirfd).run_ok hm hrun with
        ⟨last, heq, _⟩ | ⟨segment, rest, next, curFd', _, heq, hnext⟩
      · cases heq
      · cases heq
        exact ⟨_, rest, hnext⟩

/-- A validator has accepted the name, of a file or of a link. -/
def Approved (table : AllowTable) (name : CString) (flags : Flags) : Prop :=
  qubesPureValidateFileNameV2 table name flags = .ok 0 ∨
    ∃ target, qubesPureValidateSymbolicLinkV2 table name target flags = .ok 0

theorem Approved.normal {flags : Flags}
    (h : Approved table name (validateFlags flags)) :
    ∀ component ∈ components name.bytes, Normal component := by
  rcases h with h | ⟨target, h⟩
  · exact normal_of_fileName h
  · exact normal_of_symbolicLink h

/-- The run of `opendir_safe` on a copy of an approved name: it returns the
directory of the last component, or exits since one cannot be opened; between
two iterations no more than one directory is open. -/
theorem opendirSafe_splits {flags : Flags}
    (happroved : Approved table name (validateFlags flags))
    (hbuffer : start.buffer = name.bytes ++ [0]) (hcalls : start.calls = [])
    (hdirfd : Valid dirfd start.fds) :
    (∀ fd last m,
      (opendirSafe dirfd (some 0)).run start = .ok (fd, last) m →
        Descended dirfd (components name.bytes).dropLast m.calls fd ∧
        OneMore dirfd start.fds fd m.fds ∧ .close dirfd ∉ m.calls ∧
        (components name.bytes).getLast? = some (stringAt m.buffer last) ∧
        Normal (stringAt m.buffer last) ∧
        slash ∉ stringAt m.buffer last) ∧
    (∀ stop m, (opendirSafe dirfd (some 0)).run start = .error stop m →
      Refusal name dirfd stop m ∧ .close dirfd ∉ m.calls) ∧
    ∀ curFd thisSegment m, Iterates dirfd start 0 curFd thisSegment m →
      OneMore dirfd start.fds curFd m.fds ∧ .close dirfd ∉ m.calls := by
  have hnormal := happroved.normal
  have hfirst : start.buffer.getD 0 0 ≠ 0 := by
    rw [hbuffer]
    cases hbytes : name.bytes with
    | nil =>
        have hnil := hnormal [] (by rw [hbytes]; decide)
        exact absurd rfl hnil.1
    | cons byte rest =>
        apply name.ne_zero_of_mem
        rw [hbytes]
        exact List.mem_cons_self
  have hfuel : name.bytes.length < start.buffer.length + 1 := by
    rw [hbuffer, List.length_append]
    omega
  have hrun : Triple (· = start) (opendirSafe dirfd (some 0))
      (Found name dirfd start) (Refusal name dirfd) := by
    refine .get_bind fun m hm => ?_
    subst hm
    refine .ite (fun hzero => absurd hzero hfirst) fun _ => ?_
    apply (Descending.loop hnormal hdirfd hfuel).pre_mono
    rintro _ rfl
    exact Descending.first hbuffer hcalls
  refine ⟨fun fd last m hok => ?_, fun stop m herror => ?_,
    fun curFd thisSegment m hiterates => ?_⟩
  · have hfound := hrun.run_ok rfl hok
    have hmem : stringAt m.buffer last ∈ components name.bytes :=
      List.mem_of_getLast? hfound.last
    exact ⟨hfound.descended, hfound.held, hfound.descended.dirfd_open,
      hfound.last, hnormal _ hmem, not_mem_of_mem_splitOn hmem⟩
  · have hrefusal := hrun.run_error rfl herror
    refine ⟨hrefusal, ?_⟩
    obtain ⟨errno, segment, segments, calls, curFd, _, _, hdescended, hcalls⟩ :=
      hrefusal.refused
    rw [hcalls, List.mem_append, not_or]
    exact ⟨hdescended.dirfd_open, by simp⟩
  · obtain ⟨segments, text, hm⟩ :=
      hiterates.descending hnormal hdirfd hbuffer hcalls
    exact ⟨hm.held, hm.descended.dirfd_open⟩

/-- `a/b/c` in the current directory, with three standard descriptors. -/
def sampleName : CString := CString.ofBuffer [0x61, 0x2F, 0x62, 0x2F, 0x63]

def sampleMemory : Memory where
  buffer := sampleName.bytes ++ [0]
  fds := [0, 1, 2]
  calls := []
  outcomes := []

/-- The call has returned. -/
def opens : EStateM.Result Stop Memory (Fd × Nat) → Bool
  | .ok _ _ => true
  | .error _ _ => false

theorem opendirSafe_splits_sample :
    ∃ fd last m,
      (opendirSafe .cwd (some 0)).run sampleMemory = .ok (fd, last) m ∧
        Descended .cwd [[0x61], [0x62]] m.calls fd ∧
          stringAt m.buffer last = [0x63] := by
  have happroved : Approved committedTable sampleName (validateFlags 0) :=
    Or.inl (by decide +kernel)
  have hvalid : Valid .cwd sampleMemory.fds := by
    rintro n ⟨⟩
  have hopens : opens ((opendirSafe .cwd (some 0)).run sampleMemory) = true :=
    by decide +kernel
  cases hrun : (opendirSafe .cwd (some 0)).run sampleMemory with
  | error stop m =>
      rw [hrun] at hopens
      cases hopens
  | ok place m =>
      obtain ⟨hdescended, _, _, hlast, _⟩ :=
        (opendirSafe_splits happroved rfl rfl hvalid).1 place.1 place.2 m hrun
      exact ⟨place.1, place.2, m, rfl, hdescended,
        (Option.some.inj hlast).symm⟩

end QubesUtils.OpendirSafe
