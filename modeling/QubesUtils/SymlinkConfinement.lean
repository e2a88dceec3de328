/-
The links that the receiver makes, followed in any order and any number of
times, never lead out of the top-level directory that they are in.
-/
import QubesUtils.UnpackConfinement

namespace QubesUtils

open Hoare Process FileSystem Walk

/-- One step of a path resolution, on a position and the components that are
left.  A link is replaced by its target. -/
inductive ResolveStep (fs : FileSystem) :
    Path × List Name → Path × List Name → Prop
  | stay {position : Path} {component : Name} {rest : List Name}
      (hcomponent : component = [] ∨ component = dotComponent) :
      ResolveStep fs (position, component :: rest) (position, rest)
  | up {position : Path} {rest : List Name} :
      ResolveStep fs (position, dotdotComponent :: rest)
        (position.dropLast, rest)
  | down {position : Path} {component : Name} {rest : List Name} {node : Node}
      (hnormal : Normal component)
      (hnode : fs.tree (position ++ [component]) = some node)
      (hlink : ∀ target, node ≠ .link target) :
      ResolveStep fs (position, component :: rest)
        (position ++ [component], rest)
  | link {position : Path} {component : Name} {rest : List Name}
      {target : List UInt8} (hnormal : Normal component)
      (hlink : fs.tree (position ++ [component]) = some (.link target))
      (hrelative : target.head? ≠ some slash) :
      ResolveStep fs (position, component :: rest)
        (position, components target ++ rest)
  | absolute {position : Path} {component : Name} {rest : List Name}
      {target : List UInt8} (hnormal : Normal component)
      (hlink : fs.tree (position ++ [component]) = some (.link target))
      (habsolute : target.head? = some slash) :
      ResolveStep fs (position, component :: rest)
        ([], components target ++ rest)

/-- The links of a file system, as moves. -/
def linkMoves (fs : FileSystem) (path : Path) : Option (List (Move Name)) :=
  match fs.tree path with
  | some (.link target) => some ((components target).map moveOf)
  | _ => none

/-- Every link below the current directory is relative, has a directory for
itself and climbs no higher than that. -/
def LinksLeashed (cwd : Path) (fs : FileSystem) : Prop :=
  ∀ below target, fs.tree (cwd ++ below) = some (.link target) →
    2 ≤ below.length ∧ target.head? ≠ some slash ∧
      Bounded (below.length - 2) ((components target).map moveOf)

theorem linkMoves_eq_some {fs : FileSystem} {path : Path}
    {moves : List (Move Name)} (h : linkMoves fs path = some moves) :
    ∃ target, fs.tree path = some (.link target) ∧
      (components target).map moveOf = moves := by
  rw [linkMoves] at h
  split at h
  · rename_i target htree
    exact ⟨target, htree, Option.some.inj h⟩
  · cases h

theorem linkMoves_eq_none {fs : FileSystem} {path : Path} {node : Node}
    (hnode : fs.tree path = some node) (hlink : ∀ target, node ≠ .link target) :
    linkMoves fs path = none := by
  rw [linkMoves, hnode]
  cases node with
  | dir attributes => rfl
  | file ino => rfl
  | link target => exact absurd rfl (hlink target)

theorem linkMoves_link {fs : FileSystem} {path : Path} {target : List UInt8}
    (h : fs.tree path = some (.link target)) :
    linkMoves fs path = some ((components target).map moveOf) := by
  rw [linkMoves, h]

section

variable {cwd : Path} {fs : FileSystem}

/-- The links below a top-level entry stay below it. -/
theorem LinksLeashed.leashed (h : LinksLeashed cwd fs) (top : Name) :
    Leashed (cwd ++ [top]) (linkMoves fs) := by
  intro below name moves hmoves
  obtain ⟨target, htree, rfl⟩ := linkMoves_eq_some hmoves
  rw [List.append_assoc, List.append_assoc] at htree
  have hbounded := (h _ target htree).2.2
  simp only [List.length_append, List.length_singleton] at hbounded
  rw [show 1 + (below.length + 1) - 2 = below.length by omega] at hbounded
  exact hbounded

/-- A step of the resolution is a step of the walk. -/
theorem ResolveStep.walk (h : LinksLeashed cwd fs) {top : Name}
    {state state' : Path × List Name} (hstep : ResolveStep fs state state')
    (hinside : Inside (cwd ++ [top]) (state.1, state.2.map moveOf)) :
    Step (linkMoves fs) (state.1, state.2.map moveOf)
      (state'.1, state'.2.map moveOf) := by
  cases hstep with
  | stay hcomponent =>
      simp only [List.map_cons]
      rw [moveOf, if_pos hcomponent]
      exact .stay
  | up =>
      simp only [List.map_cons]
      rw [moveOf_eq_up_iff.mpr rfl]
      exact .up
  | down hnormal hnode hlink =>
      simp only [List.map_cons]
      rw [moveOf_of_normal hnormal]
      exact .down (linkMoves_eq_none hnode hlink)
  | link hnormal hlink hrelative =>
      simp only [List.map_cons, List.map_append]
      rw [moveOf_of_normal hnormal]
      exact .link (linkMoves_link hlink)
  | @absolute position component rest target hnormal hlink habsolute =>
      obtain ⟨below, hposition, _⟩ := hinside
      have hposition' : position = cwd ++ [top] ++ below := hposition
      rw [hposition', List.append_assoc, List.append_assoc] at hlink
      exact absurd habsolute (h _ target hlink).2.1

/-- A resolution that begins inside a top-level entry, and has no `..` of its
own, stays inside. -/
theorem LinksLeashed.resolution_inside (h : LinksLeashed cwd fs)
    (top : Name) (below : Path) (names : List Name)
    (hnames : dotdotComponent ∉ names) {state : Path × List Name}
    (hsteps : Relation.ReflTransGen (ResolveStep fs)
      (cwd ++ [top] ++ below, names) state) :
    cwd ++ [top] <+: state.1 := by
  have hinside : Inside (cwd ++ [top]) (state.1, state.2.map moveOf) := by
    induction hsteps with
    | refl =>
        refine ⟨below, rfl, bounded_of_not_up ?_ _⟩
        intro hup
        obtain ⟨name, hname, hmove⟩ := List.mem_map.mp hup
        exact hnames (moveOf_eq_up_iff.mp hmove ▸ hname)
    | tail _ hstep ih => exact ih.step (h.leashed top) (hstep.walk h ih)
  obtain ⟨inner, hposition, _⟩ := hinside
  exact ⟨inner, hposition.symm⟩

end

/-! The run. -/

/-- What holds at the beginning of a history, and is kept by its mutations,
holds after each of them. -/
theorem History.invariant {I : FileSystem → Prop} {mutations : List Mutation}
    {initial fs : FileSystem} (h : History initial mutations fs)
    (hinitial : I initial)
    (hstep : ∀ m ∈ mutations, I m.before → I m.after) :
    ∀ m ∈ mutations, I m.after := by
  induction mutations generalizing initial with
  | nil => exact fun m hm => by cases hm
  | cons first rest ih =>
      have hfirst : I first.after :=
        hstep first List.mem_cons_self (h.1.symm ▸ hinitial)
      intro m hm
      rcases List.mem_cons.mp hm with rfl | hrest
      · exact hfirst
      · exact ih h.2 hfirst
          (fun m hm => hstep m (List.mem_cons_of_mem _ hm)) m hrest

theorem normalCount_of_pieces {name : List UInt8} {directories : Path}
    {last : Name} (hpieces : components name = directories ++ [last])
    (hnormal : ∀ component ∈ components name, Normal component) :
    normalCount name = (directories ++ [last]).length := by
  rw [normalCount, ← hpieces]
  exact List.countP_eq_length.mpr fun component hcomponent =>
    decide_eq_true (hnormal component hcomponent)

/-- A mutation that is confined and makes validated links only. -/
theorem LinksLeashed.mutation {table : AllowTable} {flags : Flags}
    {cwd : Path} {m : Mutation}
    (hsafe : hasFlag flags qubesPureAllowUnsafeSymlinks = false)
    (hconfined : Confined cwd m) (hlinks : LinksChecked table flags m)
    (h : LinksLeashed cwd m.before) : LinksLeashed cwd m.after := by
  intro below target htree
  rcases hlinks.created _ _ htree with hold |
    ⟨content, dir, entry, heffect, hpath, rfl⟩
  · exact h below target hold
  · obtain ⟨directories, last, hc⟩ := hconfined
    have hhits := hc.hits
    rw [heffect] at hhits
    obtain ⟨rfl, rfl⟩ := hhits
    rw [List.append_assoc, List.append_cancel_left_eq] at hpath
    obtain ⟨_, hdepth, hrelative, hbounded⟩ :=
      accepted_link hsafe (hlinks.accepted _ _ _ heffect)
    rw [normalCount_of_pieces hc.pieces hc.normal, ← hpath]
      at hdepth hbounded
    exact ⟨hdepth, hrelative, hbounded⟩

theorem validateFlags_safe {flags : Flags}
    (h : hasFlag flags COPY_ALLOW_UNSAFE_SYMLINKS = false) :
    hasFlag (validateFlags flags) qubesPureAllowUnsafeSymlinks = false := by
  have hzero : flags &&& COPY_ALLOW_UNSAFE_SYMLINKS = 0#32 := by
    simpa [hasFlag] using h
  have hmask : (qubesPureAllowUnsafeCharacters |||
      qubesPureAllowUnsafeSymlinks ||| qubesPureAllowNonCanonicalSymlinks) &&&
        qubesPureAllowUnsafeSymlinks = COPY_ALLOW_UNSAFE_SYMLINKS >>> 2 := by
    decide
  rw [hasFlag, validateFlags, BitVec.and_assoc, hmask,
    ← BitVec.ushiftRight_and_distrib, hzero]
  rfl

/-- The trees that a run goes through. -/
def Visited (limits : Limits) (flags : Flags) (w : World Unpacker)
    (fs : FileSystem) : Prop :=
  fs = w.statics.fs ∨
    ∃ m ∈ (finalState (doUnpackExt limits flags) w).statics.mutations,
      fs = m.after

/-- Confinement of links: no top-level entry of a tree is a link, and no
resolution that begins at an object inside a top-level directory and descends
by names leaves that directory. -/
theorem doUnpackExt_linksConfined (limits : Limits) (flags : Flags)
    (w : World Unpacker)
    (hdir : w.statics.fs.isDir w.statics.cwd = true)
    (hfresh : w.statics.mutations = [])
    (hflags : hasFlag flags COPY_ALLOW_UNSAFE_SYMLINKS = false)
    (hnolinks : ∀ below target,
      w.statics.fs.tree (w.statics.cwd ++ below) ≠ some (.link target))
    {fs : FileSystem} (hvisited : Visited limits flags w fs) :
    (∀ top target, fs.tree (w.statics.cwd ++ [top]) ≠ some (.link target)) ∧
      ∀ top below names state, dotdotComponent ∉ names →
        Relation.ReflTransGen (ResolveStep fs)
          (w.statics.cwd ++ [top] ++ below, names) state →
        w.statics.cwd ++ [top] <+: state.1 := by
  have hsound := @doUnpackExt_sound flags limits w hdir hfresh
  have hinitial : LinksLeashed w.statics.cwd w.statics.fs :=
    fun below target h => absurd h (hnolinks below target)
  have hleashed : LinksLeashed w.statics.cwd fs := by
    rcases hvisited with rfl | ⟨m, hm, rfl⟩
    · exact hinitial
    · refine hsound.history.invariant hinitial (fun m hm => ?_) m hm
      obtain ⟨hconfined, hlinks⟩ := hsound.mutations m hm
      exact .mutation (validateFlags_safe hflags) hconfined hlinks
  refine ⟨fun top target h => ?_, fun top below names state hnames hsteps =>
    hleashed.resolution_inside top below names hnames hsteps⟩
  have hdepth := (hleashed [top] target h).1
  simp at hdepth

/-- The directories `a` and `a/b`, and the links `a/b/l` to `../m` and `a/m`
to `b`. -/
def chainedLinksStream : List UInt8 :=
  fileHeaderCodec.put ⟨2, 0x41ED, 0, 0, 0, 0, 0⟩ ++ [0x61, 0] ++
  fileHeaderCodec.put ⟨4, 0x41ED, 0, 0, 0, 0, 0⟩ ++ [0x61, slash, 0x62, 0] ++
  fileHeaderCodec.put ⟨6, 0xA1FF, 4, 0, 0, 0, 0⟩ ++
    [0x61, slash, 0x62, slash, 0x6C, 0] ++ [dot, dot, slash, 0x6D] ++
  fileHeaderCodec.put ⟨4, 0xA1FF, 1, 0, 0, 0, 0⟩ ++ [0x61, slash, 0x6D, 0] ++
    [0x62] ++
  fileHeaderCodec.put ⟨0, 0, 0, 0, 0, 0, 0⟩

theorem doUnpackExt_linksConfined_chained :
    (finalState (doUnpackExt noLimits 3#32)
      (freshWorld chainedLinksStream false)).statics.mutations.length = 4 ∧
    ∀ fs, Visited noLimits 3#32 (freshWorld chainedLinksStream false) fs →
      ∀ target, fs.tree [[0x61]] ≠ some (.link target) := by
  refine ⟨by decide +kernel, fun fs hvisited target => ?_⟩
  refine (doUnpackExt_linksConfined noLimits 3#32
    (freshWorld chainedLinksStream false) rfl rfl (by decide) ?_ hvisited).1
      [0x61] target
  intro below target h
  have hnode : (if below = [] then
      some (Node.dir ⟨0o755, ⟨0, 0⟩, ⟨0, 0⟩⟩) else none) =
        some (.link target) := h
  split at hnode
  · cases hnode
  · cases hnode

end QubesUtils
