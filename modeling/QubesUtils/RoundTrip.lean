/-
The round trip: what the sender finds is what the receiver makes.
-/
import QubesUtils.SourceTree
import QubesUtils.Acceptance
import QubesUtils.NoFalseSuccess

namespace QubesUtils

open Hoare Process ByteCodec FileSystem

/-! Trees that are accepted. -/

/-- An object that the receiver accepts under its path. -/
structure Acceptable (table : AllowTable) (file : CString) (st : Stat)
    (data : List UInt8) : Prop where
  readable : Readable file st data
  kind : sIsReg st.mode = true ∨ sIsDir st.mode = true ∨
    sIsLnk st.mode = true
  atime : st.atim.nsec.toNat < 1000000000
  mtime : st.mtim.nsec.toNat < 1000000000
  name : sIsLnk st.mode = false →
    qubesPureValidateFileNameV2 table file 0 = .ok 0
  link : sIsLnk st.mode = true → ∃ target : CString, data = target.bytes ∧
    Linkable data ∧ qubesPureValidateSymbolicLinkV2 table file target 0 = .ok 0
  short : (leaf file).length ≤ NAME_MAX

mutual

/-- Every object of the tree is accepted, and a directory has no name
twice. -/
def Transferable (table : AllowTable) (file : CString) : Source → Prop
  | .node _ st data children => Acceptable table file st data ∧
      (sIsDir st.mode = true →
        DistinctNames children ∧ TransferableAll table file children)

def TransferableAll (table : AllowTable) (file : CString) :
    List Source → Prop
  | [] => True
  | entry :: rest =>
      (skipped entry.name = false → slash ∉ entry.name.bytes ∧
        Transferable table (pathUnder file entry.name) entry) ∧
      TransferableAll table file rest

end

section

variable {table : AllowTable}

mutual

theorem Transferable.readable (file : CString) : ∀ source,
    Transferable table file source → ReadableTree file source
  | .node _ st data children => by
      intro h
      rw [Transferable] at h
      rw [ReadableTree]
      exact ⟨h.1.readable, fun hdir =>
        TransferableAll.readable file children (h.2 hdir).2⟩

theorem TransferableAll.readable (file : CString) : ∀ sources,
    TransferableAll table file sources → ReadableTrees file sources
  | [] => by
      intro _
      rw [ReadableTrees]
      trivial
  | entry :: rest => by
      intro h
      rw [TransferableAll] at h
      rw [ReadableTrees]
      exact ⟨fun hskip => Transferable.readable _ entry (h.1 hskip).2,
        TransferableAll.readable file rest h.2⟩

end

end

/-! Paths. -/

/-- Where a name leads. -/
def place (cwd : Path) (name : CString) : Path :=
  cwd ++ components name.bytes

section

variable {cwd : Path} {file name : CString}

theorem folder_snoc_leaf (cwd : Path) (name : CString) :
    folder cwd name ++ [leaf name] = place cwd name :=
  folder_leaf cwd name

theorem folder_above : folder cwd name <+: place cwd name :=
  ⟨[leaf name], folder_leaf cwd name⟩

theorem components_pathUnder (hname : slash ∉ name.bytes) :
    components (pathUnder file name).bytes =
      components file.bytes ++ [name.bytes] := by
  rw [components, pathUnder, List.splitOn_append_cons_self,
    List.splitOn_eq_singleton hname]
  rfl

theorem place_pathUnder (hname : slash ∉ name.bytes) :
    place cwd (pathUnder file name) = place cwd file ++ [name.bytes] := by
  rw [place, place, components_pathUnder hname, List.append_assoc]

theorem folder_pathUnder (hname : slash ∉ name.bytes) :
    folder cwd (pathUnder file name) = place cwd file := by
  rw [place, folder, components_pathUnder hname, List.dropLast_concat]

theorem components_root (hname : slash ∉ name.bytes) :
    components name.bytes = [name.bytes] :=
  List.splitOn_eq_singleton hname

theorem folder_root (hname : slash ∉ name.bytes) : folder cwd name = cwd := by
  rw [folder, components_root hname]
  exact List.append_nil _

theorem place_root (hname : slash ∉ name.bytes) :
    place cwd name = cwd ++ [name.bytes] := by
  rw [place, components_root hname]

end

/-! One object. -/

/-- The flags of `do_unpack`. -/
def bothFlags : Flags := COPY_ALLOW_DIRECTORIES ||| COPY_ALLOW_SYMLINKS

/-- Nothing is limited. -/
def Limits.Unlimited (limits : Limits) : Prop :=
  limits.bytesLimit = 0 ∧ limits.filesLimit = 0

section

variable {limits : Limits} {cwd : Path} {sizes : Nat → UInt64}
  {file : CString} {st : Stat} {data : List UInt8} {n : Nat}
  {into into' : Incoming} {rest : List UInt8}

/-- A header and a name are in front. -/
theorem front_object (hlimits : limits.Unlimited)
    (h : Readable file st data) (totalFiles filelen : UInt64)
    (rest : List UInt8) :
    front limits totalFiles (fileHeaderCodec.put
        (fileHeader file st filelen) ++ (file.bytes ++ [0]) ++ rest) =
      .entry (fileHeader file st filelen) (file.bytes ++ [0]) rest := by
  have hnamelen := fileHeader_namelen st filelen h.lt_max
  have hshort := h.short
  rw [MAX_PATH_LENGTH] at hshort
  refine front_entry rest (by simp) ?_ ?_ fun hcount => hcount.1 hlimits.2
  · rw [hnamelen, List.length_append]
    rfl
  · rw [List.length_append, List.length_singleton, MAX_PATH_LENGTH]
    omega

theorem Acceptable.inRange (h : Acceptable limits.table file st data)
    (filelen : UInt64) : ¬ OutOfRange (fileHeader file st filelen) := by
  have hsmall : ∀ nsec : UInt64, nsec.toNat < 1000000000 →
      ¬ nsec.toUInt32 > 999999999 := by
    intro nsec hnsec hlarge
    have hlt := UInt32.lt_iff_toNat_lt.mp hlarge
    rw [UInt64.toNat_toUInt32] at hlt
    have hconst : (999999999 : UInt32).toNat = 999999999 := rfl
    omega
  rintro (hatime | hmtime)
  · exact hsmall _ h.atime hatime
  · exact hsmall _ h.mtime hmtime

theorem not_overQuota (hlimits : limits.Unlimited) (totalBytes : UInt64) :
    ¬ OverQuota limits st.size totalBytes := by
  rintro (hlarge | hover | hover)
  · exact absurd st.size_lt (Nat.not_lt.mpr hlarge)
  · exact hover.1 hlimits.1
  · exact hover.1 hlimits.1

/-! What bytes bring. -/

/-- The bytes make these items of those, wherever they stand in the input. -/
def Brings (limits : Limits) (cwd : Path) (sizes : Nat → UInt64)
    (items items' : Items) (bytes : List UInt8) : Prop :=
  ∀ (n : Nat) (into : Incoming) (rest : List UInt8), into.items = items →
    ∃ done into', into'.items = items' ∧
      Enters limits bothFlags cwd sizes n into (bytes ++ rest) done into' rest

theorem Enters.trans {flags : Flags} {into'' : Incoming}
    {input last : List UInt8} {done more : List (FileHeader × List UInt8)}
    (h : Enters limits flags cwd sizes n into input done into' rest)
    (hmore : Enters limits flags cwd sizes (n + done.length) into' rest more
      into'' last) :
    Enters limits flags cwd sizes n into input (done ++ more) into'' last := by
  induction h with
  | nil n into input => exact hmore
  | cons hfront hstore _ ih =>
      refine .cons hfront hstore (ih ?_)
      rw [List.length_cons, Nat.add_comm _ 1, ← Nat.add_assoc] at hmore
      exact hmore

variable {items items' items'' : Items}

theorem Brings.nil (items : Items) :
    Brings limits cwd sizes items items [] :=
  fun n into rest hitems => ⟨[], into, hitems, .nil n into rest⟩

theorem Brings.trans {bytes more : List UInt8}
    (h : Brings limits cwd sizes items items' bytes)
    (hmore : Brings limits cwd sizes items' items'' more) :
    Brings limits cwd sizes items items'' (bytes ++ more) := by
  intro n into rest hitems
  obtain ⟨done, into', hitems', henters⟩ := h n into (more ++ rest) hitems
  obtain ⟨done', into'', hitems'', henters'⟩ :=
    hmore (n + done.length) into' rest hitems'
  rw [List.append_assoc]
  exact ⟨_, into'', hitems'', henters.trans henters'⟩

/-- A header, a name and a payload that is stored. -/
theorem Brings.object (hlimits : limits.Unlimited)
    (h : Readable file st data) {filelen : UInt64} {payload : List UInt8}
    (hstore : ∀ (size : UInt64) (into : Incoming) (rest : List UInt8),
      into.items = items → ∃ into', into'.items = items' ∧
        storeEntry limits bothFlags cwd size into
          (fileHeader file st filelen) file (payload ++ rest) =
            some (into', rest)) :
    Brings limits cwd sizes items items'
      (fileHeaderCodec.put (fileHeader file st filelen) ++
        (file.bytes ++ [0]) ++ payload) := by
  intro n into rest hitems
  obtain ⟨into', hitems', hstored⟩ :=
    hstore (sizes n) into.countFile rest hitems
  have hfront := front_object hlimits h into.totalFiles filelen
    (payload ++ rest)
  rw [← CString.ofBuffer_terminated file] at hstored
  rw [← List.append_assoc] at hfront
  exact ⟨_, into', hitems', .cons hfront hstored (.nil _ _ _)⟩

/-! One object. -/

theorem free_of_vacant (h : Acceptable limits.table file st data)
    (hparent : items.isDir (folder cwd file) = true)
    (hvacant : Vacant items (place cwd file)) :
    Free items (folder cwd file) (leaf file) := by
  refine ⟨hparent, ?_, h.short⟩
  rw [folder_snoc_leaf]
  exact hvacant.self

theorem brings_file (hlimits : limits.Unlimited)
    (h : Acceptable limits.table file st data) (hreg : sIsReg st.mode = true)
    (hfree : Free items (folder cwd file) (leaf file)) :
    Brings limits cwd sizes items
      (items.put (folder cwd file) (leaf file)
        (.file (st.mode &&& 0o7777) st.modified data))
      (singleBytes file st data) := by
  have hlink : sIsLnk st.mode = false :=
    Bool.eq_false_iff.mpr fun hlink => by
      rw [(sIsLnk_exclusive hlink).1] at hreg
      cases hreg
  have hlength := h.readable.content (Or.inl hreg)
  rw [singleBytes, if_pos (Or.inl hreg)]
  refine .object hlimits h.readable fun size into rest hitems => ?_
  rw [storeEntry_regular hreg]
  subst hitems
  exact ⟨_, rfl, storeFile_some (h.name hlink)
    (not_overQuota hlimits into.totalBytes) rfl hlength (h.inRange st.size)
    hfree⟩

theorem brings_link (hlimits : limits.Unlimited)
    (h : Acceptable limits.table file st data) (hlink : sIsLnk st.mode = true)
    (hfree : Free items (folder cwd file) (leaf file)) :
    Brings limits cwd sizes items
      (items.put (folder cwd file) (leaf file) (.link data))
      (singleBytes file st data) := by
  have hlength := h.readable.content (Or.inr hlink)
  obtain ⟨target, rfl, hlinkable, hvalid⟩ := h.link hlink
  rw [singleBytes, if_pos (Or.inr hlink)]
  refine .object hlimits h.readable fun size into rest hitems => ?_
  rw [storeEntry_link hlink (by decide)]
  subst hitems
  have hfits : LinkFits limits into (fileHeader file st st.size) := by
    refine ⟨?_, fun hover => hover.1 hlimits.1⟩
    have hshort := h.readable.target hlink
    change st.size.toNat ≤ MAX_PATH_LENGTH - 1
    omega
  refine ⟨_, ?_, storeLink_some hfits rfl hlength
    (by rw [CString.ofBuffer_self]; exact hvalid)
    (by rw [CString.ofBuffer_self]; exact hlinkable) hfree⟩
  change into.items.put _ _ (.link (CString.ofBuffer target.bytes).bytes) = _
  rw [CString.ofBuffer_self]

/-- Something that is not a directory. -/
theorem brings_leaf (hlimits : limits.Unlimited)
    (h : Acceptable limits.table file st data)
    (hdir : sIsDir st.mode = false)
    (hfree : Free items (folder cwd file) (leaf file)) (name : CString)
    (children : List Source) :
    Brings limits cwd sizes items
      (items.put (folder cwd file) (leaf file)
        (Source.node name st data children).item)
      (singleBytes file st data) := by
  by_cases hreg : sIsReg st.mode = true
  · rw [Source.item, if_neg (by simp [hdir]), if_pos hreg]
    exact brings_file hlimits h hreg hfree
  · rw [Source.item, if_neg (by simp [hdir]), if_neg hreg]
    rcases h.kind with hkind | hkind | hlink
    · exact absurd hkind hreg
    · rw [hkind] at hdir
      cases hdir
    · exact brings_link hlimits h hlink hfree

theorem Acceptable.dirName (h : Acceptable limits.table file st data)
    (hdir : sIsDir st.mode = true) :
    qubesPureValidateFileNameV2 limits.table file
      (validateFlags bothFlags) = .ok 0 :=
  h.name (sIsDir_exclusive hdir).2

theorem singleBytes_dir (hdir : sIsDir st.mode = true) :
    singleBytes file st data =
      fileHeaderCodec.put (fileHeader file st 0) ++ (file.bytes ++ [0]) ++
        [] := by
  obtain ⟨hreg, hlink⟩ := sIsDir_exclusive hdir
  rw [singleBytes, if_neg (by simp [hreg, hlink]), if_pos hdir,
    List.append_nil]

/-- Items with a directory that is still open. -/
def opened (items : Items) (cwd : Path) (file : CString) : Items :=
  items.put (folder cwd file) (leaf file) (.dir 0o700 none)

theorem opened_place (items : Items) (cwd : Path) (file : CString) :
    opened items cwd file (place cwd file) = some (.dir 0o700 none) := by
  rw [← folder_snoc_leaf]
  exact items.put_self _ _ _

theorem opened_below (hvacant : Vacant items (place cwd file)) (name : Name)
    (rel : Path) :
    opened items cwd file (place cwd file ++ name :: rel) = none := by
  rw [← folder_snoc_leaf] at hvacant ⊢
  exact hvacant.put_below _ name rel

theorem opened_outside {other : Path} (h : ¬ place cwd file <+: other) :
    opened items cwd file other = items.touch (folder cwd file) other := by
  apply Items.put_of_ne
  rintro rfl
  rw [folder_snoc_leaf] at h
  exact h List.prefix_rfl

theorem opened_parent (hparent : items.isDir (folder cwd file) = true) :
    (opened items cwd file).isDir (folder cwd file) = true := by
  obtain ⟨mode, mtime, hdir⟩ := Items.isDir_iff.mp hparent
  refine Items.isDir_iff.mpr ⟨mode, none, ?_⟩
  rw [opened, Items.put_of_ne _ _ (by simp), Items.touch_self, hdir]
  rfl

/-- A directory that is sent for the first time. -/
theorem brings_newDir (hlimits : limits.Unlimited)
    (h : Acceptable limits.table file st data)
    (hdir : sIsDir st.mode = true)
    (hfree : Free items (folder cwd file) (leaf file)) :
    Brings limits cwd sizes items (opened items cwd file)
      (singleBytes file st data) := by
  rw [singleBytes_dir hdir]
  refine .object hlimits h.readable fun size into rest hitems => ?_
  rw [storeEntry_dir hdir (by decide)]
  subst hitems
  have hmade : storeDirAt cwd into (fileHeader file st 0) file size
      (into.items (folder cwd file ++ [leaf file])) = some { into with
        items := opened into.items cwd file } := by
    rw [hfree.absent]
    exact Incoming.add_free hfree
  exact ⟨_, rfl, storeDir_some (h.dirName hdir) hfree.1 hmade⟩

/-- A directory that is sent again. -/
theorem brings_oldDir (hlimits : limits.Unlimited)
    (h : Acceptable limits.table file st data)
    (hdir : sIsDir st.mode = true)
    (hparent : items.isDir (folder cwd file) = true) {mode : UInt32}
    {mtime : Option Timespec}
    (hold : items (place cwd file) = some (.dir mode mtime)) :
    Brings limits cwd sizes items
      (Function.update items (place cwd file)
        (some (.dir (st.mode &&& 0o7777) (some st.modified))))
      (singleBytes file st data) := by
  rw [singleBytes_dir hdir]
  refine .object hlimits h.readable fun size into rest hitems => ?_
  rw [storeEntry_dir hdir (by decide)]
  subst hitems
  have hrenewed : storeDirAt cwd into (fileHeader file st 0) file size
      (into.items (folder cwd file ++ [leaf file])) =
        some (renewDir into (fileHeader file st 0) (place cwd file) size) := by
    rw [folder_snoc_leaf, hold, storeDirAt, if_neg (h.inRange 0),
      folder_snoc_leaf]
  exact ⟨_, rfl, storeDir_some (h.dirName hdir) hparent hrenewed⟩

/-! The whole tree. -/

theorem graft_opened {name : CString} {children : List Source}
    (hdir : sIsDir st.mode = true) (hdistinct : DistinctNames children)
    (hvacant : Vacant items (place cwd file)) :
    Function.update
        (graftAll (opened items cwd file) (place cwd file) children)
        (place cwd file) (some (.dir (st.mode &&& 0o7777)
          (some st.modified))) =
      graft (items.touch (folder cwd file)) (place cwd file)
        (.node name st data children) := by
  rw [graftAll_directory hdir hdistinct (opened_below hvacant)]
  exact graft_congr fun other hother => opened_outside hother

mutual

theorem walk_brings (hlimits : limits.Unlimited) (file : CString) :
    ∀ (source : Source) (items : Items),
      Transferable limits.table file source →
      items.isDir (folder cwd file) = true →
      Vacant items (place cwd file) →
      Brings limits cwd sizes items
        (graft (items.touch (folder cwd file)) (place cwd file) source)
        (walkBytes file source)
  | .node name st data children => by
      intro items h hparent hvacant
      rw [Transferable] at h
      rw [walkBytes]
      have hfree := free_of_vacant h.1 hparent hvacant
      by_cases hdir : sIsDir st.mode = true
      · obtain ⟨hdistinct, hchildren⟩ := h.2 hdir
        rw [if_pos hdir]
        have hnew : Brings limits cwd sizes items (opened items cwd file)
            (singleBytes file st data) :=
          brings_newDir hlimits h.1 hdir hfree
        have hentries := entries_brings hlimits file children
          (opened items cwd file) hchildren hdistinct
          (opened_place items cwd file) fun entry _ _ rel => by
            rw [List.append_assoc]
            exact opened_below hvacant entry.name.bytes rel
        have hagain : Brings limits cwd sizes
            (graftAll (opened items cwd file) (place cwd file) children) _
            (singleBytes file st data) :=
          brings_oldDir hlimits h.1 hdir
            ((graftAll_isDir children folder_above).trans
              (opened_parent hparent))
            ((graftAll_above children List.prefix_rfl).trans
              (opened_place items cwd file))
        rw [← graft_opened hdir hdistinct hvacant]
        exact (hnew.trans hentries).trans hagain
      · have hdir := Bool.eq_false_iff.mpr hdir
        rw [if_neg (by simp [hdir]), ← folder_snoc_leaf,
          ← put_leaf hdir (by rwa [folder_snoc_leaf])]
        exact brings_leaf hlimits h.1 hdir hfree name children

theorem entries_brings (hlimits : limits.Unlimited) (file : CString)
    {mode : UInt32} : ∀ (sources : List Source) (items : Items),
      TransferableAll limits.table file sources → DistinctNames sources →
      items (place cwd file) = some (.dir mode none) →
      (∀ entry ∈ sources, skipped entry.name = false →
        Vacant items (place cwd file ++ [entry.name.bytes])) →
      Brings limits cwd sizes items
        (graftAll items (place cwd file) sources)
        (childrenBytes file sources)
  | [] => by
      intro items _ _ _ _
      rw [graftAll, childrenBytes]
      exact .nil items
  | entry :: rest => by
      intro items h hdistinct hplace hvacant
      rw [TransferableAll] at h
      rw [graftAll, childrenBytes]
      obtain ⟨hfirst, hrest⟩ := List.pairwise_cons.mp hdistinct
      by_cases hskip : skipped entry.name = true
      · rw [if_pos hskip, if_pos hskip]
        exact entries_brings hlimits file rest items h.2 hrest hplace
          fun other hother => hvacant other (List.mem_cons_of_mem _ hother)
      · rw [if_neg hskip, if_neg hskip]
        have hskip := Bool.eq_false_iff.mpr hskip
        obtain ⟨hslash, hentry⟩ := h.1 hskip
        have hopen : items.isDir (place cwd file) = true :=
          Items.isDir_iff.mpr ⟨mode, none, hplace⟩
        have hwalk := walk_brings hlimits (pathUnder file entry.name) entry
          items hentry (by rwa [folder_pathUnder hslash])
          (by rw [place_pathUnder hslash]
              exact hvacant entry List.mem_cons_self hskip)
        rw [folder_pathUnder hslash, place_pathUnder hslash,
          touch_of_open hplace] at hwalk
        refine hwalk.trans (entries_brings hlimits file rest _ h.2 hrest
          ((graft_parent _).trans hplace) fun other hother hskip' => ?_)
        exact (hvacant other (List.mem_cons_of_mem _ hother)
          hskip').graft_sibling (hfirst other hother hskip)

end

end

/-! From one side to the other. -/

section

variable {limits : Limits} {cwd : Path} {sizes : Nat → UInt64}
  {root : CString} {source : Source} {fs : FileSystem}

/-- There is nothing below what is not there. -/
theorem vacant_of_absent {path : Path} (h : fs.tree path = none) :
    Vacant fs.items path := by
  intro rel
  apply (fs.shows_items.absent_iff _).mpr
  induction rel using List.reverseRecOn with
  | nil => rwa [List.append_nil]
  | append_singleton rel name ih =>
      rw [← List.append_assoc]
      by_contra hpresent
      obtain ⟨attributes, hparent⟩ := fs.parents _ _ hpresent
      rw [ih] at hparent
      cases hparent

/-- The bytes of a tree make the tree. -/
theorem treeBytes_received (hlimits : limits.Unlimited)
    (hroot : slash ∉ root.bytes)
    (htree : Transferable limits.table root source)
    (hcwd : fs.isDir cwd = true)
    (habsent : fs.tree (cwd ++ [root.bytes]) = none) :
    ∃ done st, Receives limits bothFlags cwd sizes 0 (.start fs)
        (treeBytes root source) done st [] ∧
      st.items = graft (fs.items.touch cwd) (cwd ++ [root.bytes]) source := by
  have hbrings : Brings limits cwd sizes fs.items _ (walkBytes root source) :=
    walk_brings hlimits root source fs.items htree
      (by rw [folder_root hroot]
          exact (fs.shows_items.isDir_iff cwd).mpr hcwd)
      (by rw [place_root hroot]
          exact vacant_of_absent habsent)
  rw [folder_root hroot, place_root hroot] at hbrings
  obtain ⟨done, st, hitems, henters⟩ :=
    hbrings 0 (.start fs) (fileHeaderCodec.put endHeader) rfl
  exact ⟨done, st, ⟨_, henters, front_marker rfl st.totalFiles⟩, hitems⟩

/-- A receiver that has a place for the tree, and of which no call will
fail. -/
structure Awaits (root : CString) (w : World Unpacker) : Prop where
  trace : w.trace = []
  undisturbed : Undisturbed w.outcomes
  cwd : w.statics.fs.isDir w.statics.cwd = true
  absent : w.statics.fs.tree (w.statics.cwd ++ [root.bytes]) = none

/-- When it is told that there was no error the sender compares the
checksums. -/
theorem waitForResult_compares (ignoreQuotaError : Bool) {w : World Packer}
    {crc : UInt64} {last : Option CString} (hbenign : Benign w.outcomes)
    (hstdin : w.stdin = resultMessage 0 crc last) :
    ∃ w', (waitForResult ignoreQuotaError).run w =
      (if crc ≠ w.crc32Sum then throw (.message .checksumMismatch)
        else pure () : Pack Unit).run w' := by
  have hheader : (resultHeaderCodec.put ⟨0, 0, crc⟩).length =
      resultHeaderCodec.width := resultHeaderCodec.length_put _
  obtain ⟨w₁, hrun₁, _, hcrc₁, _, _⟩ := readAll_front _ _ hbenign hstdin
  obtain ⟨name, w₂, hrun₂⟩ := readLastFilename_returns w₁
  have hcrc₂ := (@readLastFilename_later w₁.trace w₁.crc32Sum).run_ok
    ⟨List.prefix_rfl, rfl, rfl⟩ hrun₂
  rw [hheader] at hrun₁
  rw [waitForResult, EStateM.run_bind, hrun₁]
  simp only
  rw [EStateM.run_bind, hrun₂, resultHeaderCodec.get_put, ← hcrc₁,
    ← hcrc₂.crc]
  exact ⟨{ w₂ with errno := 0 }, rfl⟩

/-- The sender returns when it is told its own checksum. -/
theorem waitForResult_agreed (ignoreQuotaError : Bool) {w : World Packer}
    {last : Option CString} (hbenign : Benign w.outcomes)
    (hstdin : w.stdin = resultMessage 0 w.crc32Sum last) :
    ∃ w', (waitForResult ignoreQuotaError).run w = .ok () w' := by
  obtain ⟨w', hrun⟩ :=
    waitForResult_compares ignoreQuotaError hbenign hstdin
  rw [if_neg (not_not.mpr rfl)] at hrun
  exact ⟨w', hrun⟩

/-- What the two sides come to. -/
structure Transferred (ignoreQuotaError : Bool) (root : CString)
    (source : Source) (sent : World Packer) (w after : World Unpacker) :
    Prop where
  items : Shows after.statics.fs (graft
    (w.statics.fs.items.touch w.statics.cwd)
    (w.statics.cwd ++ [root.bytes]) source)
  message : ∃ last, pipes.sentBy after.trace =
    resultMessage 0 sent.crc32Sum (some last)
  returns : ∃ w', (waitForResult ignoreQuotaError).run
    { sent with stdin := pipes.sentBy after.trace } = .ok () w'

/-- The receiver makes the tree of which it gets the bytes. -/
theorem AllSent.transferred (hlimits : limits.Unlimited)
    (ignoreQuotaError : Bool) (hroot : slash ∉ root.bytes)
    (htree : Transferable limits.table root source)
    {sent : World Packer} (hsent : AllSent (treeBytes root source) sent)
    {receiver : World Unpacker} (hreceiver : Awaits root receiver) :
    ∃ after, (doUnpack limits).run
        { receiver with stdin := pipes.sentBy sent.trace } = .ok 0 after ∧
      Transferred ignoreQuotaError root source sent receiver after := by
  obtain ⟨sizes, hsizes⟩ := exists_sizesFound limits bothFlags
    ({ receiver with stdin := pipes.sentBy sent.trace } :
      World Unpacker).started
  obtain ⟨done, st, hreceives, hitems⟩ := @treeBytes_received limits
    receiver.statics.cwd sizes root source receiver.statics.fs hlimits
    hroot htree hreceiver.cwd hreceiver.absent
  rw [← hsent.sent] at hreceives
  obtain ⟨after, hafter, hcame⟩ := (@doUnpackExt_accepts sizes
    { receiver with stdin := pipes.sentBy sent.trace } limits bothFlags
    hreceiver.trace hreceiver.undisturbed hsizes).2 done st [] hreceives
  have hmessage : ∃ last, pipes.sentBy after.trace =
      resultMessage 0 sent.crc32Sum (some last) := by
    obtain ⟨consumed, hconsumed, hcrc⟩ := hcame.crc
    have hagrees : after.crc32Sum = sent.crc32Sum := by
      rw [List.append_nil] at hconsumed
      rw [hcrc, hconsumed, hsent.crc, ← hsent.sent]
    rw [← hagrees]
    exact hcame.message
  refine ⟨after, hafter, ?_, hmessage, ?_⟩
  · rw [← hitems]
    exact hcame.holds.shows
  · obtain ⟨last, hlast⟩ := hmessage
    exact @waitForResult_agreed ignoreQuotaError
      { sent with stdin := pipes.sentBy after.trace } (some last)
      hsent.undisturbed.benign hlast

/-- Whatever the chunks in which the bytes go over the pipe: the tree that is
sent is the tree that is made, and the receiver answers without an error and
with the checksum of the sender. -/
theorem transfer_roundTrip (hlimits : limits.Unlimited)
    (ignoreQuotaError : Bool) (hroot : slash ∉ root.bytes)
    (htree : Transferable limits.table root source)
    {sender : World Packer} (hsender : NothingSent sender)
    {receiver : World Unpacker} (hreceiver : Awaits root receiver) :
    ∃ sent, (sendTree ignoreQuotaError root source).run sender = .ok () sent ∧
      ∃ after, (doUnpack limits).run
          { receiver with stdin := pipes.sentBy sent.trace } = .ok 0 after ∧
        Transferred ignoreQuotaError root source sent receiver after := by
  obtain ⟨_, sent, hrun, hsent⟩ := (sendTree_sending ignoreQuotaError
    (htree.readable root source)).exists_ok hsender
  exact ⟨sent, hrun,
    hsent.transferred hlimits ignoreQuotaError hroot htree hreceiver⟩

/-- The directory `a` with the file `a/b` and the link `a/c` to it. -/
def smallTree : Source :=
  .node ⟨[0x61], by decide⟩
    ⟨0x41ED, 0, ⟨1, 2⟩, ⟨3, 4⟩, Nat.le_of_ble_eq_true rfl⟩ []
    [.node ⟨[0x62], by decide⟩
      ⟨0x81A4, 2, ⟨5, 6⟩, ⟨7, 8⟩, Nat.le_of_ble_eq_true rfl⟩ [0x68, 0x69] [],
    .node ⟨[0x63], by decide⟩
      ⟨0xA1FF, 1, ⟨0, 0⟩, ⟨0, 0⟩, Nat.le_of_ble_eq_true rfl⟩ [0x62] []]

theorem smallTree_transferable :
    Transferable committedTable ⟨[0x61], by decide⟩ smallTree := by
  refine ⟨⟨⟨by decide, by decide, by decide⟩, by decide, by decide, by decide,
    fun _ => by decide +kernel, fun h => (by cases h), by decide⟩,
    fun _ => ⟨?_, ?_⟩⟩
  · simp [DistinctNames, Source.name]
  refine ⟨fun _ => ⟨by decide, ?_⟩, fun _ => ⟨by decide, ?_⟩, trivial⟩
  · exact ⟨⟨⟨by decide, by decide, by decide⟩, by decide, by decide,
      by decide, fun _ => by decide +kernel, fun h => (by cases h),
      by decide⟩,
      fun h => by cases h⟩
  · exact ⟨⟨⟨by decide, by decide, by decide⟩, by decide, by decide,
      by decide, fun h => (by cases h), fun _ => ⟨⟨[0x62], by decide⟩, rfl,
        ⟨by decide, by decide⟩, by decide +kernel⟩, by decide⟩,
      fun h => by cases h⟩

theorem transfer_roundTrip_smallTree :
    ∃ sent, (sendTree false ⟨[0x61], by decide⟩ smallTree).run
        (freshSender [] []) = .ok () sent ∧
      ∃ after, (doUnpack noLimits).run
          { freshWorld [] true with stdin := pipes.sentBy sent.trace } =
            .ok 0 after ∧
        Transferred false ⟨[0x61], by decide⟩ smallTree sent
          (freshWorld [] true) after :=
  transfer_roundTrip ⟨rfl, rfl⟩ false (by decide) smallTree_transferable
    ⟨rfl, rfl, fun _ h => by cases h⟩
    ⟨rfl, fun _ h => (by cases h), rfl, rfl⟩

end

end QubesUtils
