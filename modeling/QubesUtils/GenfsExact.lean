/-
Which trees `genfs.c` labels as it should: each entry of the root is looked at
alone, since no change of a label reaches the inodes of another entry.
-/
import QubesUtils.GenfsLabels

namespace QubesUtils.Genfs

open Hoare Overlay

/-! Names. -/

theorem strncmpEq_iff {name s : List UInt8} (hname : 0 ∉ name) (hs : 0 ∉ s) :
    strncmpEq name.length name s = true ↔ name <+: s := by
  induction name generalizing s with
  | nil => simp [strncmpEq]
  | cons byte rest ih =>
      rw [List.mem_cons, not_or] at hname
      have hbyte : byte ≠ 0 := fun h => hname.1 h.symm
      cases s with
      | nil => simp [strncmpEq, hbyte]
      | cons byte' s =>
          rw [List.mem_cons, not_or] at hs
          simp [strncmpEq, hbyte, List.cons_prefix_cons, ih hname.2 hs.2]

theorem modulesDot_prefix_iff (name : List UInt8) :
    modulesDot <+: name ↔ name.length ≥ 8 ∧ name.take 8 = modulesDot := by
  rw [List.prefix_iff_eq_take]
  constructor
  · intro h
    refine ⟨?_, h.symm⟩
    have hlength := congrArg List.length h
    rw [List.length_take] at hlength
    change 8 = min 8 _ at hlength
    omega
  · exact fun h => h.2.symm

section

variable {uname name : List UInt8} {path : List (List UInt8)}

theorem expectedLabel_nil : expectedLabel uname [] = labelModulesObject := by
  simp [expectedLabel]

theorem expectedLabel_firmware :
    expectedLabel uname (firmware :: path) = labelLib := by
  simp [expectedLabel]

theorem expectedLabel_other (hfirmware : name ≠ firmware)
    (huname : name ≠ uname) :
    expectedLabel uname (name :: path) = labelModulesObject := by
  simp [expectedLabel, hfirmware.symm, huname.symm, huname]

theorem expectedLabel_uname (h : uname ≠ firmware) :
    expectedLabel uname [uname] = labelModulesObject := by
  simp [expectedLabel, h.symm]

theorem expectedLabel_build (h : uname ≠ firmware) :
    expectedLabel uname (uname :: build :: path) = labelUsr := by
  simp [expectedLabel, h.symm]

theorem expectedLabel_module (h : uname ≠ firmware) (hbuild : name ≠ build)
    (hmodule : modulesDot <+: name) :
    expectedLabel uname (uname :: name :: path) =
      if path = [] then labelModulesDep else labelModulesObject := by
  by_cases hpath : path = []
  · subst hpath
    simp [expectedLabel, h.symm, hbuild.symm, hmodule]
  · simp [expectedLabel, h.symm, hbuild.symm, hpath]

theorem expectedLabel_kernel (h : uname ≠ firmware) (hbuild : name ≠ build)
    (hmodule : ¬ modulesDot <+: name) :
    expectedLabel uname (uname :: name :: path) = labelModulesObject := by
  by_cases hpath : path = []
  · subst hpath
    simp [expectedLabel, h.symm, hbuild.symm, hmodule]
  · simp [expectedLabel, h.symm, hbuild.symm, hpath]

end

/-! Paths. -/

section

variable {tree node : Tree} {path : List (List UInt8)}

theorem Reaches.ino_mem (h : Reaches tree path node) :
    node.ino ∈ tree.inos := by
  induction h with
  | here tree =>
      rw [Tree.inos_eq]
      exact List.mem_cons_self
  | step hentry _ ih =>
      rw [Tree.inos_eq]
      exact List.mem_cons_of_mem _ (mem_inosAll.mpr ⟨_, hentry, ih⟩)

mutual

theorem exists_reaches : ∀ (tree : Tree) {ino : Ino}, ino ∈ tree.inos →
    ∃ path node, Reaches tree path node ∧ node.ino = ino
  | .node name ino' fileType entries, ino, h => by
      rw [Tree.inos] at h
      rcases List.mem_cons.mp h with rfl | h
      · exact ⟨[], _, .here _, rfl⟩
      · obtain ⟨entry, hentry, path, node, hnode, hino⟩ :=
          exists_reachesAll entries h
        exact ⟨entry.name :: path, node, .step hentry hnode, hino⟩

theorem exists_reachesAll : ∀ (entries : List Tree) {ino : Ino},
    ino ∈ inosAll entries → ∃ entry ∈ entries, ∃ path node,
      Reaches entry path node ∧ node.ino = ino
  | [], ino, h => by
      rw [inosAll] at h
      exact absurd h List.not_mem_nil
  | entry :: rest, ino, h => by
      rw [inosAll] at h
      rcases List.mem_append.mp h with h | h
      · exact ⟨entry, List.mem_cons_self, exists_reaches entry h⟩
      · obtain ⟨other, hother, hnode⟩ := exists_reachesAll rest h
        exact ⟨other, List.mem_cons_of_mem _ hother, hnode⟩

end

end

/-! What is recorded is found. -/

mutual

theorem marked_subset : ∀ tree : Tree, ∀ ino ∈ tree.marked, ino ∈ tree.inos
  | .node name ino' fileType entries => by
      intro ino h
      rw [Tree.marked] at h
      rw [Tree.inos]
      split at h
      · exact absurd h List.not_mem_nil
      rcases List.mem_cons.mp h with rfl | h
      · exact List.mem_cons_self
      split at h
      · exact List.mem_cons_of_mem _ (markedAll_subset entries ino h)
      · exact absurd h List.not_mem_nil

theorem markedAll_subset : ∀ entries : List Tree,
    ∀ ino ∈ markedAll entries, ino ∈ inosAll entries
  | [] => by
      intro ino h
      exact absurd h List.not_mem_nil
  | entry :: rest => by
      intro ino h
      rw [markedAll] at h
      rw [inosAll]
      rcases List.mem_append.mp h with h | h
      · exact List.mem_append_left _ (marked_subset entry ino h)
      · exact List.mem_append_right _ (markedAll_subset rest ino h)

end

theorem inosAll_eq_nil {entries : List Tree} :
    inosAll entries = [] ↔ entries = [] := by
  cases entries with
  | nil => simp [inosAll]
  | cons entry rest => simp [inosAll, Tree.inos_eq]

mutual

theorem Tree.recorded_iff : ∀ tree : Tree, isDots tree.name = false →
    (∀ name ∈ tree.names, isDots name = false) → tree.inos.Nodup →
      (tree.Recorded ↔ ∀ ino ∈ tree.inos, ino ∈ tree.marked)
  | .node name ino' fileType entries => by
      intro hdots hnames hnodup
      rw [Tree.names] at hnames
      rw [Tree.inos, List.nodup_cons] at hnodup
      have hall := recordedAll_iff entries hnames hnodup.2
      change isDots name = false at hdots
      rw [Tree.Recorded, Tree.inos, Tree.marked, hdots, hall]
      constructor
      · rintro ⟨hentries, hfound⟩ ino hino
        rcases List.mem_cons.mp hino with rfl | hino
        · exact List.mem_cons_self
        · rcases hentries with rfl | hdir
          · exact absurd hino List.not_mem_nil
          · rw [if_neg Bool.false_ne_true, if_pos hdir]
            exact List.mem_cons_of_mem _ (hfound ino hino)
      · intro hfound
        have hbelow : ∀ ino ∈ inosAll entries,
            ino ∈ if fileType = EXT2_FT_DIR then markedAll entries else [] := by
          intro ino hino
          rcases List.mem_cons.mp (hfound ino (List.mem_cons_of_mem _ hino))
            with rfl | hmem
          · exact absurd hino hnodup.1
          · exact hmem
        by_cases hdir : fileType = EXT2_FT_DIR
        · rw [if_pos hdir] at hbelow
          exact ⟨Or.inr hdir, hbelow⟩
        · rw [if_neg hdir] at hbelow
          have hnil : inosAll entries = [] :=
            List.eq_nil_iff_forall_not_mem.mpr fun ino hino =>
              absurd (hbelow ino hino) List.not_mem_nil
          refine ⟨Or.inl (inosAll_eq_nil.mp hnil), fun ino hino => ?_⟩
          exact absurd (hbelow ino hino) List.not_mem_nil

theorem recordedAll_iff : ∀ entries : List Tree,
    (∀ name ∈ namesAll entries, isDots name = false) →
      (inosAll entries).Nodup →
        (RecordedAll entries ↔
          ∀ ino ∈ inosAll entries, ino ∈ markedAll entries)
  | [] => by
      intro _ _
      rw [RecordedAll, inosAll]
      exact ⟨fun _ ino h => absurd h List.not_mem_nil, fun _ => trivial⟩
  | entry :: rest => by
      intro hnames hnodup
      rw [namesAll] at hnames
      rw [inosAll, List.nodup_append] at hnodup
      obtain ⟨hentry, hrest, hdisjoint⟩ := hnodup
      have hself := Tree.recorded_iff entry (hnames _ List.mem_cons_self)
        (fun name h => hnames name
          (List.mem_cons_of_mem _ (List.mem_append_left _ h))) hentry
      have hall := recordedAll_iff rest (fun name h => hnames name
          (List.mem_cons_of_mem _ (List.mem_append_right _ h))) hrest
      rw [RecordedAll, hself, hall, inosAll, markedAll]
      constructor
      · rintro ⟨hleft, hright⟩ ino hino
        rcases List.mem_append.mp hino with hino | hino
        · exact List.mem_append_left _ (hleft ino hino)
        · exact List.mem_append_right _ (hright ino hino)
      · intro hfound
        constructor
        · intro ino hino
          rcases List.mem_append.mp (hfound ino (List.mem_append_left _ hino))
            with hmem | hmem
          · exact hmem
          · exact absurd rfl
              (hdisjoint ino hino ino (markedAll_subset rest ino hmem))
        · intro ino hino
          rcases List.mem_append.mp (hfound ino (List.mem_append_right _ hino))
            with hmem | hmem
          · exact absurd rfl
              (hdisjoint ino (marked_subset entry ino hmem) ino hino)
          · exact hmem

end

/-! Changes keep to their entry. -/

theorem dirChange_local : Local Tree.inos dirChange where
  outside := by
    intro labels entry ino hino
    rw [Tree.inos_eq, List.mem_cons, not_or] at hino
    have hmarked : ino ∉ markedAll entry.entries :=
      fun h => hino.2 (markedAll_subset _ ino h)
    rw [dirChange]
    split
    · exact overlay_of_not_mem (by simp [hino.1, hmarked])
    split
    · exact overlay_of_not_mem (by simpa using hino.1)
    · rfl
  pointwise := by
    intro labels labels' entry ino h
    rw [dirChange, dirChange]
    split
    · exact overlay_pointwise h
    split
    · exact overlay_pointwise h
    · exact h

theorem rootChange_local (uname : List UInt8) :
    Local Tree.inos (rootChange uname) where
  outside := by
    intro labels entry ino hino
    rw [Tree.inos_eq, List.mem_cons, not_or] at hino
    have hmarked : ino ∉ markedAll entry.entries :=
      fun h => hino.2 (markedAll_subset _ ino h)
    have hself : ino ∉ [entry.ino] := by simpa using hino.1
    rw [rootChange]
    split
    · rfl
    split
    · exact overlay_of_not_mem (by simp [hino.1, hmarked])
    split
    · rw [overlay_of_not_mem hself]
      apply dirChange_local.foldl_outside
      rw [← inosAll_eq]
      exact hino.2
    · exact overlay_of_not_mem hself
  pointwise := by
    intro labels labels' entry ino h
    rw [rootChange, rootChange]
    split
    · exact h
    split
    · exact overlay_pointwise h
    split
    · exact overlay_pointwise (dirChange_local.foldl_pointwise _ h)
    · exact overlay_pointwise h

/-! One entry of the root. -/

/-- A tree whose labels are those of the scan. -/
structure Blank (labels : Labels) (entry : Tree) : Prop where
  blank : ∀ ino ∈ entry.inos, labels ino = some labelModulesObject
  nodup : entry.inos.Nodup
  names : ∀ name ∈ entry.names, isDots name = false

section

variable {labels : Labels} {entry : Tree}

theorem mem_namesAll {entries : List Tree} {child : Tree}
    (h : child ∈ entries) : child.name ∈ namesAll entries ∧
      ∀ name ∈ child.names, name ∈ namesAll entries := by
  induction entries with
  | nil => exact absurd h List.not_mem_nil
  | cons head rest ih =>
      rw [namesAll]
      rcases List.mem_cons.mp h with rfl | h
      · exact ⟨List.mem_cons_self, fun name hname =>
          List.mem_cons_of_mem _ (List.mem_append_left _ hname)⟩
      · obtain ⟨hname, hnames⟩ := ih h
        exact ⟨List.mem_cons_of_mem _ (List.mem_append_right _ hname),
          fun name hname => List.mem_cons_of_mem _
            (List.mem_append_right _ (hnames name hname))⟩

theorem Tree.names_eq (tree : Tree) : tree.names = namesAll tree.entries := by
  cases tree with
  | node name ino fileType entries => rw [names]; rfl

theorem Blank.below (h : Blank labels entry) :
    entry.ino ∉ inosAll entry.entries ∧ (inosAll entry.entries).Nodup := by
  have hnodup := h.nodup
  rw [Tree.inos_eq] at hnodup
  exact List.nodup_cons.mp hnodup

theorem Blank.child (h : Blank labels entry) {child : Tree}
    (hchild : child ∈ entry.entries) : Blank labels child := by
  have hnodup := h.below.2
  rw [inosAll_eq, List.nodup_flatMap] at hnodup
  have hnames := h.names
  rw [Tree.names_eq] at hnames
  refine ⟨fun ino hino => h.blank ino ?_, hnodup.1 child hchild,
    fun name hmem => hnames name ((mem_namesAll hchild).2 name hmem)⟩
  rw [Tree.inos_eq]
  exact List.mem_cons_of_mem _ (mem_inosAll.mpr ⟨child, hchild, hino⟩)

theorem Blank.ne_of_below (h : Blank labels entry) {child node : Tree}
    {path : List (List UInt8)} (hchild : child ∈ entry.entries)
    (hnode : Reaches child path node) : node.ino ≠ entry.ino := by
  intro heq
  exact h.below.1 (heq ▸ mem_inosAll.mpr ⟨child, hchild, hnode.ino_mem⟩)

theorem Blank.label (h : Blank labels entry) {node : Tree}
    {path : List (List UInt8)} (hnode : Reaches entry path node) :
    labels node.ino = some labelModulesObject :=
  h.blank _ hnode.ino_mem

/-- A relabelling of a directory reaches everything below it if and only if it
is recorded well. -/
theorem Blank.relabelled_iff (h : Blank labels entry) {label : String}
    (hlabel : label ≠ labelModulesObject) :
    (∀ path node, Reaches entry path node →
      overlay (entry.ino :: markedAll entry.entries) (some label) labels
        node.ino = some label) ↔ RecordedAll entry.entries := by
  have hnames := h.names
  rw [Tree.names_eq] at hnames
  rw [recordedAll_iff entry.entries hnames h.below.2]
  constructor
  · intro hall ino hino
    obtain ⟨child, hchild, path, node, hnode, rfl⟩ := exists_reachesAll _ hino
    have hnode' : Reaches entry (child.name :: path) node :=
      .step hchild hnode
    by_contra hmarked
    have hseen := hall _ node hnode'
    rw [overlay_of_not_mem (by simp [h.ne_of_below hchild hnode, hmarked]),
      h.label hnode'] at hseen
    exact hlabel (Option.some.inj hseen).symm
  · intro hall path node hnode
    apply overlay_of_mem
    have hmem := hnode.ino_mem
    rw [Tree.inos_eq] at hmem
    rcases List.mem_cons.mp hmem with heq | hmem
    · exact heq ▸ List.mem_cons_self
    · exact List.mem_cons_of_mem _ (hall _ hmem)

/-- What is below an entry of the root that is taken for the kernel. -/
theorem Blank.foldl_dirChange (h : Blank labels entry) {child node : Tree}
    {path : List (List UInt8)} (hchild : child ∈ entry.entries)
    (hnode : Reaches child path node) :
    overlay [entry.ino] (some labelModulesObject)
        (entry.entries.foldl dirChange labels) node.ino =
      dirChange labels child node.ino := by
  rw [overlay_of_not_mem (by simpa using h.ne_of_below hchild hnode)]
  have hnodup := h.below.2
  rw [inosAll_eq] at hnodup
  exact dirChange_local.foldl_inside labels hnodup hchild hnode.ino_mem

end

end QubesUtils.Genfs
