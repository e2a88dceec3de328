/-
`genfs.c` labels by exact paths if and only if no name of the root is taken
for another one.
-/
import QubesUtils.GenfsExact
import QubesUtils.CString

namespace QubesUtils.Genfs

open Hoare Overlay

section

variable {uname : List UInt8} {labels : Labels} {entry : Tree}

/-- The labels of an entry of the root, as they are left and as they are
expected. -/
def EntryExact (uname : List UInt8) (labels : Labels) (entry : Tree) : Prop :=
  entry.name ∈ rootNames uname ∧ ∀ path node, Reaches entry path node →
    rootChange uname labels entry node.ino =
      some (expectedLabel uname (entry.name :: path))

/-- The other names of the root, none of which begins another name. -/
theorem standard_prefix {name s : List UInt8}
    (hname : name ∈ [firmware, vmlinuz, initramfs, lostFound])
    (hs : s ∈ [firmware, vmlinuz, initramfs, lostFound])
    (hbegins : name <+: s) : name = s := by
  revert s
  revert name
  decide

theorem standard_noNul :
    ∀ s ∈ [vmlinuz, initramfs, lostFound], (0 : UInt8) ∉ s := by
  decide

/-- Names that are taken for `firmware`. -/
theorem firmware_exact (h : Blank labels entry) (huname : uname ≠ firmware)
    (hbegins : entry.name <+: firmware)
    (hchange : rootChange uname labels entry =
      overlay (entry.ino :: markedAll entry.entries) (some labelLib) labels) :
    EntryExact uname labels entry ↔ Unambiguous uname entry := by
  have hrelabelled := h.relabelled_iff
    (by decide : labelLib ≠ labelModulesObject)
  rw [EntryExact, hchange]
  constructor
  · rintro ⟨_, hlabels⟩
    have hself := hlabels [] entry (.here entry)
    rw [overlay_of_mem List.mem_cons_self] at hself
    have hname : entry.name = firmware := by
      by_contra hne
      have hlabel : expectedLabel uname [entry.name] = labelModulesObject := by
        by_cases heq : entry.name = uname
        · rw [heq, expectedLabel_uname huname]
        · exact expectedLabel_other hne heq
      rw [hlabel] at hself
      exact absurd hself (by decide)
    refine ⟨fun _ => hname, fun _ s hs hle => ?_, fun _ => Or.inr (Or.inl hname),
      fun _ => ?_, fun heq => absurd (heq.symm.trans hname) huname⟩
    · rw [hname] at hle ⊢
      exact standard_prefix (by simp) (List.mem_cons_of_mem _ hs) hle
    · apply hrelabelled.mp
      intro path node hnode
      rw [hlabels path node hnode, hname, expectedLabel_firmware]
  · intro hplain
    have hname := hplain.ofFirmware hbegins
    refine ⟨by simp [rootNames, hname], fun path node hnode => ?_⟩
    rw [hrelabelled.mpr (hplain.inFirmware hname) path node hnode, hname,
      expectedLabel_firmware]

/-- The directory of the kernel. -/
theorem kernel_exact (h : Blank labels entry) (huname : uname ≠ firmware)
    (hname : entry.name = uname) (hfirmware : ¬ entry.name <+: firmware)
    (hchange : rootChange uname labels entry =
      overlay [entry.ino] (some labelModulesObject)
        (entry.entries.foldl dirChange labels)) :
    EntryExact uname labels entry ↔ Unambiguous uname entry := by
  rw [EntryExact, hchange]
  constructor
  · rintro ⟨_, hlabels⟩
    refine ⟨fun hle => absurd hle hfirmware, fun hne => absurd hname hne,
      fun _ => Or.inl hname, fun heq => absurd (hname.symm.trans heq) huname,
      fun _ child hchild hbuild => ?_⟩
    apply ((h.child hchild).relabelled_iff
      (by decide : labelUsr ≠ labelModulesObject)).mp
    intro path node hnode
    have hlabel := hlabels _ node (.step hchild hnode)
    rw [h.foldl_dirChange hchild hnode, dirChange, if_pos hbuild, hbuild,
      hname, expectedLabel_build huname] at hlabel
    exact hlabel
  · intro hplain
    refine ⟨by simp [rootNames, hname], fun path node hnode => ?_⟩
    rw [hname]
    cases hnode with
    | here =>
        rw [overlay_of_mem List.mem_cons_self, expectedLabel_uname huname]
    | @step _ child _ rest hchild hnode =>
        rw [h.foldl_dirChange hchild hnode, dirChange]
        split
        · rename_i hbuild
          rw [((h.child hchild).relabelled_iff (by decide)).mpr
            (hplain.inBuild hname child hchild hbuild) _ _ hnode, hbuild,
            expectedLabel_build huname]
        rename_i hbuild
        split
        · rename_i hmodule
          rw [expectedLabel_module huname hbuild
            ((modulesDot_prefix_iff _).mpr hmodule)]
          cases hnode with
          | here => rw [overlay_of_mem List.mem_cons_self, if_pos rfl]
          | step hentry hnode =>
              have hne := (h.child hchild).ne_of_below hentry hnode
              rw [overlay_of_not_mem (by simpa using hne),
                (h.child hchild).label (.step hentry hnode),
                if_neg (List.cons_ne_nil _ _)]
        · rename_i hmodule
          rw [(h.child hchild).label hnode, expectedLabel_kernel huname hbuild
            fun hle => hmodule ((modulesDot_prefix_iff _).mp hle)]

/-- Names that are taken for the kernel. -/
theorem mistaken_exact (h : Blank labels entry) (hname : entry.name ≠ uname)
    (hfirmware : ¬ entry.name <+: firmware) (hbegins : entry.name <+: uname)
    (hchange : rootChange uname labels entry =
      overlay [entry.ino] (some labelModulesObject)
        (entry.entries.foldl dirChange labels)) :
    EntryExact uname labels entry ↔ Unambiguous uname entry := by
  have hne : entry.name ≠ firmware :=
    fun heq => hfirmware (heq ▸ List.prefix_rfl)
  rw [EntryExact, hchange]
  constructor
  · rintro ⟨hroot, hlabels⟩
    have hstandard : entry.name ∈ [vmlinuz, initramfs, lostFound] := by
      simpa [rootNames, hne, hname] using hroot
    refine ⟨fun hle => absurd hle hfirmware, fun _ s hs hle => ?_, fun _ =>
      Or.inr (Or.inr ⟨hstandard, fun child hchild => ?_⟩),
      fun heq => absurd heq hne, fun heq => absurd heq hname⟩
    · exact standard_prefix (List.mem_cons_of_mem _ hstandard)
        (List.mem_cons_of_mem _ hs) hle
    · have hlabel := hlabels _ child (.step hchild (.here child))
      rw [h.foldl_dirChange hchild (.here child),
        expectedLabel_other hne hname, dirChange] at hlabel
      constructor
      · intro hbuild
        rw [if_pos hbuild, overlay_of_mem List.mem_cons_self] at hlabel
        exact absurd hlabel (by decide)
      · intro hmodule
        rw [modulesDot_prefix_iff] at hmodule
        rw [if_pos hmodule] at hlabel
        split at hlabel
        · rw [overlay_of_mem List.mem_cons_self] at hlabel
          exact absurd hlabel (by decide)
        · rw [overlay_of_mem List.mem_cons_self] at hlabel
          exact absurd hlabel (by decide)
  · intro hplain
    rcases hplain.ofUname hbegins with heq | heq | ⟨hstandard, hchildren⟩
    · exact absurd heq hname
    · exact absurd heq hne
    refine ⟨List.mem_cons_of_mem _ (List.mem_cons_of_mem _ hstandard),
      fun path node hnode => ?_⟩
    rw [expectedLabel_other hne hname]
    cases hnode with
    | here => exact overlay_of_mem List.mem_cons_self
    | @step _ child _ rest hchild hnode =>
        obtain ⟨hbuild, hmodule⟩ := hchildren child hchild
        rw [modulesDot_prefix_iff] at hmodule
        rw [h.foldl_dirChange hchild hnode, dirChange, if_neg hbuild,
          if_neg hmodule, (h.child hchild).label hnode]

/-- The other names. -/
theorem other_exact (h : Blank labels entry)
    (hfirmware : ¬ entry.name <+: firmware) (huname : ¬ entry.name <+: uname)
    (haccepted : ∃ name ∈ [vmlinuz, initramfs, lostFound], entry.name <+: name)
    (hchange : rootChange uname labels entry =
      overlay [entry.ino] (some labelModulesObject) labels) :
    EntryExact uname labels entry ↔ Unambiguous uname entry := by
  have hne : entry.name ≠ firmware :=
    fun heq => hfirmware (heq ▸ List.prefix_rfl)
  have hname : entry.name ≠ uname :=
    fun heq => huname (heq ▸ List.prefix_rfl)
  rw [EntryExact, hchange]
  constructor
  · rintro ⟨hroot, _⟩
    have hstandard : entry.name ∈ [vmlinuz, initramfs, lostFound] := by
      simpa [rootNames, hne, hname] using hroot
    refine ⟨fun hle => absurd hle hfirmware, fun _ s hs hle => ?_,
      fun hle => absurd hle huname, fun heq => absurd heq hne,
      fun heq => absurd heq hname⟩
    exact standard_prefix (List.mem_cons_of_mem _ hstandard)
      (List.mem_cons_of_mem _ hs) hle
  · intro hplain
    obtain ⟨s, hs, hle⟩ := haccepted
    have hstandard : entry.name ∈ [vmlinuz, initramfs, lostFound] :=
      hplain.ofOther hname s hs hle ▸ hs
    refine ⟨List.mem_cons_of_mem _ (List.mem_cons_of_mem _ hstandard),
      fun path node hnode => ?_⟩
    rw [expectedLabel_other hne hname]
    by_cases hself : node.ino ∈ [entry.ino]
    · exact overlay_of_mem hself
    · rw [overlay_of_not_mem hself, h.label hnode]

theorem entry_exact_iff (h : Blank labels entry)
    (hdots : ¬ isDots entry.name = true) (huname : uname ≠ firmware)
    (hnul : 0 ∉ uname) (haccepted : Accepted uname entry) :
    EntryExact uname labels entry ↔ Unambiguous uname entry := by
  rcases haccepted with hdots' | ⟨hname, s, hs, hle⟩
  · exact absurd hdots' hdots
  have hsNul : ∀ s ∈ rootNames uname, 0 ∉ s := by
    intro s hs
    rcases List.mem_cons.mp hs with rfl | hs
    · decide
    rcases List.mem_cons.mp hs with rfl | hs
    · exact hnul
    · exact standard_noNul s hs
  rw [strncmpEq_iff hname (hsNul s hs)] at hle
  have hiff : ∀ s ∈ rootNames uname,
      (strncmpEq entry.name.length entry.name s = true ↔ entry.name <+: s) :=
    fun s hs => strncmpEq_iff hname (hsNul s hs)
  by_cases hfirmware : entry.name <+: firmware
  · apply firmware_exact h huname hfirmware
    rw [rootChange, if_neg hdots,
      if_pos ((hiff _ (by simp [rootNames])).mpr hfirmware)]
  have hfirmware' := mt (hiff firmware (by simp [rootNames])).mp hfirmware
  by_cases hbegins : entry.name <+: uname
  · have hchange : rootChange uname labels entry =
        overlay [entry.ino] (some labelModulesObject)
          (entry.entries.foldl dirChange labels) := by
      rw [rootChange, if_neg hdots, if_neg hfirmware',
        if_pos ((hiff _ (by simp [rootNames])).mpr hbegins)]
    by_cases heq : entry.name = uname
    · exact kernel_exact h huname heq hfirmware hchange
    · exact mistaken_exact h heq hfirmware hbegins hchange
  · apply other_exact h hfirmware hbegins
    · rcases List.mem_cons.mp hs with rfl | hs
      · exact absurd hle hfirmware
      rcases List.mem_cons.mp hs with rfl | hs
      · exact absurd hle hbegins
      · exact ⟨s, hs, hle⟩
    · rw [rootChange, if_neg hdots, if_neg hfirmware',
        if_neg (mt (hiff uname (by simp [rootNames])).mp hbegins)]

end

section

variable {fs₀ fs' : Ext2} {epoch : Option CString} {uname : CString}
  {markImmutable : Bool}

/-- After a run without an error the names of the root and the labels are
those that are expected if and only if no name of the root begins a name that
it is not. -/
theorem realMain_labels_iff (hwf : fs₀.WellFormed)
    (hnodup : fs₀.root.inos.Nodup) (huname : uname.bytes ≠ firmware)
    (hrun : (realMain epoch (some uname) markImmutable).run fs₀ =
      .ok () fs') :
    ExactLabels uname.bytes fs₀.root fs' ↔
      ∀ entry ∈ fs₀.root.entries, Unambiguous uname.bytes entry := by
  obtain ⟨hlabels, haccepted⟩ :=
    (realMain_labels epoch uname markImmutable).run_ok rfl hrun
  have hlocal := rootChange_local uname.bytes
  have hnodup' := hnodup
  rw [Tree.inos_eq, List.nodup_cons, inosAll_eq] at hnodup
  obtain ⟨hroot, hbelow⟩ := hnodup
  have hself : fs'.label fs₀.root.ino = some labelModulesObject := by
    rw [hlabels, hlocal.foldl_outside _ hroot, hwf.root]
    exact overlay_of_mem List.mem_cons_self
  generalize hstart : overlay [EXT2_ROOT_INO] (some labelModulesObject)
    (overlay (fs₀.allInos.filter fs₀.isScanned) (some labelModulesObject)
      fs₀.label) = labels at hlabels
  have hblank : Blank labels fs₀.root := by
    refine ⟨fun ino hino => ?_, hnodup', hwf.names⟩
    have hscanned : ino ∈ fs₀.allInos.filter fs₀.isScanned :=
      List.mem_filter.mpr (hwf.inodes ino hino)
    rw [← hstart]
    by_cases heq : ino ∈ [EXT2_ROOT_INO]
    · exact overlay_of_mem heq
    · rw [overlay_of_not_mem heq, overlay_of_mem hscanned]
  have hentry : ∀ entry ∈ fs₀.root.entries,
      (EntryExact uname.bytes labels entry ↔ Unambiguous uname.bytes entry) := by
    intro entry hentry
    have hdots : isDots entry.name = false := by
      apply hwf.names
      rw [Tree.names_eq]
      exact (mem_namesAll hentry).1
    exact entry_exact_iff (hblank.child hentry) (by rw [hdots]; decide)
      huname uname.noNul (haccepted entry hentry)
  rw [← forall₂_congr hentry]
  constructor
  · intro hexact entry hmem
    refine ⟨hexact.names entry hmem, fun path node hnode => ?_⟩
    rw [← hexact.labels _ node (.step hmem hnode), hlabels,
      hlocal.foldl_inside labels hbelow hmem hnode.ino_mem]
  · intro hall
    refine ⟨fun entry hmem => (hall entry hmem).1, fun path node hnode => ?_⟩
    cases hnode with
    | here => rw [hself, expectedLabel_nil]
    | step hmem hnode =>
        rw [← (hall _ hmem).2 _ node hnode, hlabels,
          hlocal.foldl_inside labels hbelow hmem hnode.ino_mem]

end

/-- A kernel with firmware, sources and modules. -/
def kernelExt2 : Ext2 :=
  sampleExt2
    (.node [] 2 2
      [.node firmware 12 2 [.node [0x61] 13 1 []],
        .node kernelName.bytes 14 2
          [.node build 15 2 [.node [0x62] 16 1 []],
            .node (modulesDot ++ [0x64, 0x65, 0x70]) 17 1 []],
        .node vmlinuz 18 1 []])
    18 fun ino => if ino ∈ [2, 12, 14, 15] then 0x41ED else 0x81A4

theorem kernelExt2_wellFormed : kernelExt2.WellFormed where
  root := rfl
  inodes := by decide
  names := by decide

theorem kernelExt2_unambiguous :
    ∀ entry ∈ kernelExt2.root.entries,
      Unambiguous kernelName.bytes entry := by
  have hrecorded : ∀ name ino, RecordedAll [.node name ino 1 []] :=
    fun _ _ => ⟨⟨Or.inl rfl, trivial⟩, trivial⟩
  simp only [kernelExt2, sampleExt2, Tree.entries, List.forall_mem_cons,
    List.not_mem_nil, false_implies, implies_true, and_true]
  refine ⟨⟨by decide, by decide, by decide, ?_, fun h => absurd h (by decide)⟩,
    ⟨by decide, by decide, by decide, fun h => absurd h (by decide), ?_⟩,
    ⟨by decide, by decide, by decide, fun h => absurd h (by decide),
      fun h => absurd h (by decide)⟩⟩
  · exact fun _ => hrecorded _ _
  · intro _ child hchild hbuild
    rcases List.mem_cons.mp hchild with rfl | hchild
    · exact hrecorded _ _
    · rw [List.mem_singleton.mp hchild] at hbuild
      exact absurd hbuild (by decide)

theorem realMain_labels_kernel :
    ExactLabels kernelName.bytes kernelExt2.root
      (finalState (realMain none (some kernelName) true) kernelExt2) := by
  obtain ⟨_, hrun⟩ := run_of_returns (by decide +kernel :
    returns (realMain none (some kernelName) true) kernelExt2 = true)
  exact (realMain_labels_iff kernelExt2_wellFormed (by decide) (by decide)
    hrun).mpr kernelExt2_unambiguous

/-- A file named `vml` in the root. -/
def prefixExt2 : Ext2 :=
  sampleExt2 (.node [] 2 2 [.node [0x76, 0x6D, 0x6C] 12 1 []]) 12
    fun ino => if ino = 2 then 0x41ED else 0x81A4

theorem prefixExt2_wellFormed : prefixExt2.WellFormed where
  root := rfl
  inodes := by decide
  names := by decide

/-- The beginning of `vmlinuz` passes for it. -/
theorem realMain_accepts_prefix :
    prefixExt2.WellFormed ∧ prefixExt2.root.inos.Nodup ∧
      kernelName.bytes ≠ firmware ∧
      returns (realMain none (some kernelName) true) prefixExt2 = true ∧
      ¬ ExactLabels kernelName.bytes prefixExt2.root
        (finalState (realMain none (some kernelName) true) prefixExt2) := by
  refine ⟨prefixExt2_wellFormed, by decide, by decide, by decide +kernel,
    fun h => ?_⟩
  exact absurd (h.names _ List.mem_cons_self) (by decide)

end QubesUtils.Genfs
