/-
The tree that the sender finds, as items under names, and the tree that the
receiver makes of it.
-/
import QubesUtils.CalmSender
import QubesUtils.Incoming

namespace QubesUtils

open Process ByteCodec FileSystem

/-! What the source holds. -/

/-- The entry has the name, and is not skipped. -/
def isNamed (name : Name) (entry : Source) : Bool :=
  !skipped entry.name && entry.name.bytes == name

/-- What is found below an object of the source. -/
def Source.find : Path → Source → Option Source
  | [], source => some source
  | name :: rest, .node _ st _ children =>
      if sIsDir st.mode then
        (children.find? (isNamed name)).bind (Source.find rest)
      else
        none

/-- The time on the wire, as the receiver sets it. -/
def Stat.modified (st : Stat) : Timespec :=
  ⟨st.mtim.sec.toUInt32.toUInt64, st.mtim.nsec.toUInt32.toUInt64⟩

def Source.item : Source → Item
  | .node _ st data _ =>
      if sIsDir st.mode then .dir (st.mode &&& 0o7777) (some st.modified)
      else if sIsReg st.mode then
        .file (st.mode &&& 0o7777) st.modified data
      else .link data

/-- Items with those of a source in their place. -/
def graft (items : Items) (path : Path) (source : Source) : Items :=
  fun other =>
    if path <+: other then
      (source.find (other.drop path.length)).map Source.item
    else
      items other

/-- Items with those of the entries of a directory. -/
def graftAll (items : Items) (path : Path) : List Source → Items
  | [] => items
  | entry :: rest =>
      if skipped entry.name then graftAll items path rest
      else
        graftAll (graft items (path ++ [entry.name.bytes]) entry) path rest

/-- There is nothing at the path, nor below. -/
def Vacant (items : Items) (path : Path) : Prop :=
  ∀ rel, items (path ++ rel) = none

section

variable {items : Items} {path other rel : Path} {source : Source}

theorem graft_append (items : Items) (path rel : Path) (source : Source) :
    graft items path source (path ++ rel) =
      (source.find rel).map Source.item := by
  rw [graft, if_pos (List.prefix_append _ _), List.drop_left]

theorem graft_outside (source : Source) (h : ¬ path <+: other) :
    graft items path source other = items other :=
  if_neg h

theorem graftAll_outside (children : List Source)
    (h : ∀ name rel, other ≠ path ++ name :: rel) :
    graftAll items path children other = items other := by
  induction children generalizing items with
  | nil => rfl
  | cons entry rest ih =>
      rw [graftAll]
      split
      · exact ih
      · rw [ih, graft_outside]
        rintro ⟨rel, rfl⟩
        exact h entry.name.bytes rel (by rw [List.append_assoc]; rfl)

/-- The directory itself and what is above stay. -/
theorem graftAll_above (children : List Source) (h : other <+: path) :
    graftAll items path children other = items other := by
  apply graftAll_outside
  rintro name rel rfl
  have hlength := h.length_le
  rw [List.length_append, List.length_cons] at hlength
  omega

theorem graftAll_isDir (children : List Source) (h : other <+: path) :
    (graftAll items path children).isDir other = items.isDir other := by
  rw [Items.isDir, Items.isDir, graftAll_above children h]

/-- No two entries have one name. -/
def DistinctNames (children : List Source) : Prop :=
  children.Pairwise fun left right =>
    skipped left.name = false → left.name.bytes ≠ right.name.bytes

theorem isNamed_iff {name : Name} {entry : Source}
    (hskip : skipped entry.name = false) :
    isNamed name entry = true ↔ entry.name.bytes = name := by
  simp [isNamed, hskip]

theorem find?_named {entry : Source} {rest : List Source}
    (hskip : skipped entry.name = false)
    (hfirst : ∀ other ∈ rest, skipped entry.name = false →
      entry.name.bytes ≠ other.name.bytes) :
    rest.find? (isNamed entry.name.bytes) = none := by
  refine List.find?_eq_none.mpr fun other hother hnamed => ?_
  rw [isNamed, Bool.and_eq_true, beq_iff_eq] at hnamed
  exact hfirst other hother hskip hnamed.2.symm

theorem graftAll_below {children : List Source}
    (hdistinct : DistinctNames children) (name : Name) (rel : Path) :
    graftAll items path children (path ++ name :: rel) =
      (children.find? (isNamed name)).elim (items (path ++ name :: rel))
        fun child => (child.find rel).map Source.item := by
  induction children generalizing items with
  | nil => rfl
  | cons entry rest ih =>
      obtain ⟨hfirst, hrest⟩ := List.pairwise_cons.mp hdistinct
      rw [graftAll]
      by_cases hskip : skipped entry.name = true
      · rw [if_pos hskip, ih hrest, List.find?_cons_of_neg]
        simp [isNamed, hskip]
      rw [if_neg hskip, ih hrest]
      have hskip := Bool.eq_false_iff.mpr hskip
      by_cases hname : entry.name.bytes = name
      · subst hname
        rw [List.find?_cons_of_pos ((isNamed_iff hskip).mpr rfl),
          find?_named hskip hfirst]
        have hbelow := graft_append items (path ++ [entry.name.bytes]) rel
          entry
        rw [List.append_assoc] at hbelow
        exact hbelow
      · rw [List.find?_cons_of_neg fun h => hname ((isNamed_iff hskip).mp h),
          graft_outside]
        rintro ⟨more, hmore⟩
        rw [List.append_assoc, List.append_cancel_left_eq] at hmore
        exact hname (List.cons.inj hmore).1

/-- A directory with its entries is the tree of the directory. -/
theorem graftAll_directory {name : CString} {st : Stat} {data : List UInt8}
    {children : List Source} (hdir : sIsDir st.mode = true)
    (hdistinct : DistinctNames children)
    (hvacant : ∀ name rel, items (path ++ name :: rel) = none) :
    Function.update (graftAll items path children) path
        (some (.dir (st.mode &&& 0o7777) (some st.modified))) =
      graft items path (.node name st data children) := by
  funext other
  by_cases hother : path <+: other
  · obtain ⟨rel, rfl⟩ := hother
    rw [graft_append]
    cases rel with
    | nil =>
        rw [List.append_nil, Function.update_self]
        simp [Source.find, Source.item, hdir]
    | cons name rel =>
        rw [Function.update_of_ne (by simp), graftAll_below hdistinct,
          Source.find, if_pos hdir, hvacant]
        cases children.find? (isNamed name) with
        | none => rfl
        | some child => rfl
  · rw [graft_outside _ hother, Function.update_of_ne, graftAll_outside]
    · rintro name rel rfl
      exact hother (List.prefix_append _ _)
    · rintro rfl
      exact hother List.prefix_rfl

/-- Nothing is below a new item. -/
theorem Vacant.put_below {dir : Path} {segment : Name}
    (hvacant : Vacant items (dir ++ [segment])) (item : Item) (name : Name)
    (rel : Path) :
    items.put dir segment item (dir ++ [segment] ++ name :: rel) = none := by
  rw [Items.put_of_ne _ _ (by simp), Items.touch_of_ne _ (by simp)]
  exact hvacant (name :: rel)

/-- An object that is not a directory has nothing below. -/
theorem put_leaf {dir : Path} {segment : Name} {name : CString} {st : Stat}
    {data : List UInt8} {children : List Source}
    (hdir : sIsDir st.mode = false)
    (hvacant : Vacant items (dir ++ [segment])) :
    items.put dir segment (Source.node name st data children).item =
      graft (items.touch dir) (dir ++ [segment])
        (.node name st data children) := by
  funext other
  by_cases hother : dir ++ [segment] <+: other
  · obtain ⟨rel, rfl⟩ := hother
    rw [graft_append]
    cases rel with
    | nil => rw [List.append_nil, Items.put_self, Source.find, Option.map_some]
    | cons name rel =>
        rw [hvacant.put_below, Source.find, if_neg (by simp [hdir]),
          Option.map_none]
  · rw [graft_outside _ hother, Items.put_of_ne]
    rintro rfl
    exact hother List.prefix_rfl

/-! Items that stay. -/

/-- What is added to a directory whose time is open changes nothing else. -/
theorem touch_of_open {mode : UInt32}
    (h : items path = some (.dir mode none)) : items.touch path = items := by
  rw [Items.touch, h]
  exact (congrArg _ h.symm).trans (Function.update_eq_self path items)

theorem graft_congr {items' : Items}
    (h : ∀ other, ¬ path <+: other → items other = items' other) :
    graft items path source = graft items' path source := by
  funext other
  by_cases hother : path <+: other
  · rw [graft, graft, if_pos hother, if_pos hother]
  · rw [graft_outside _ hother, graft_outside _ hother, h other hother]

theorem graft_parent (name : Name) :
    graft items (path ++ [name]) source path = items path := by
  apply graft_outside
  rintro ⟨rel, hrel⟩
  have hlength := congrArg List.length hrel
  simp at hlength

theorem Vacant.graft_sibling {left right : Name}
    (h : Vacant items (path ++ [right])) (hne : left ≠ right) :
    Vacant (graft items (path ++ [left]) source) (path ++ [right]) := by
  intro rel
  rw [graft_outside]
  · exact h rel
  · rintro ⟨more, hmore⟩
    rw [List.append_assoc, List.append_assoc,
      List.append_cancel_left_eq] at hmore
    exact hne (List.cons.inj hmore).1

theorem Vacant.below (h : Vacant items path) (name : Name) :
    Vacant items (path ++ [name]) := by
  intro rel
  rw [List.append_assoc]
  exact h (name :: rel)

theorem Vacant.self (h : Vacant items path) : items path = none := by
  have hself := h []
  rwa [List.append_nil] at hself

end

end QubesUtils
