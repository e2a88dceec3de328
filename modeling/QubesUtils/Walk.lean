/-
Walks in a tree of named places.  A move stays, goes up or goes down; a list
of moves that goes up only at its front, and not too often, stays below its
base.  So does a resolution that follows links, if every link is such a list.
-/
import Mathlib.Data.List.Infix
import Mathlib.Logic.Relation

namespace Walk

universe u

/-- One step of a path resolution. -/
inductive Move (Name : Type u)
  | stay
  | up
  | down (name : Name)
deriving DecidableEq

variable {Name : Type u}

/-- The position after a move; the names of a position run from the root. -/
def Move.apply (position : List Name) : Move Name → List Name
  | .stay => position
  | .up => position.dropLast
  | .down name => position ++ [name]

/-- The position after a list of moves. -/
def follow (position : List Name) (moves : List (Move Name)) : List Name :=
  moves.foldl Move.apply position

@[simp] theorem follow_nil (position : List Name) :
    follow position [] = position :=
  rfl

@[simp] theorem follow_cons (position : List Name) (move : Move Name)
    (moves : List (Move Name)) :
    follow position (move :: moves) = follow (move.apply position) moves :=
  rfl

/-- At most `height` moves up, all of them before the first move down. -/
def Bounded : Nat → List (Move Name) → Prop
  | _, [] => True
  | height, .stay :: moves => Bounded height moves
  | 0, .up :: _ => False
  | height + 1, .up :: moves => Bounded height moves
  | _, .down _ :: moves => Move.up ∉ moves

theorem bounded_of_not_up {moves : List (Move Name)}
    (hup : Move.up ∉ moves) (height : Nat) : Bounded height moves := by
  induction moves with
  | nil => trivial
  | cons move moves ih =>
      have hrest : Move.up ∉ moves := fun h => hup (List.mem_cons_of_mem _ h)
      cases move with
      | stay => exact ih hrest
      | up => exact absurd List.mem_cons_self hup
      | down name => exact hrest

/-- A bounded walk may be continued by moves that never go up. -/
theorem Bounded.append {height : Nat} {moves later : List (Move Name)}
    (hmoves : Bounded height moves) (hlater : Move.up ∉ later) :
    Bounded height (moves ++ later) := by
  induction moves generalizing height with
  | nil => exact bounded_of_not_up hlater height
  | cons move moves ih =>
      cases move with
      | stay => exact @ih height hmoves
      | up =>
          cases height with
          | zero => exact hmoves.elim
          | succ height => exact @ih height hmoves
      | down name =>
          intro h
          rcases List.mem_append.mp h with h | h
          · exact hmoves h
          · exact hlater h

theorem prefix_follow_of_not_up {base : List Name}
    {moves : List (Move Name)} (hup : Move.up ∉ moves) :
    ∀ position : List Name, base <+: position →
      base <+: follow position moves := by
  induction moves with
  | nil => exact fun _ h => h
  | cons move moves ih =>
      intro position hbase
      have hrest := ih (fun h => hup (List.mem_cons_of_mem _ h))
      cases move with
      | stay => exact hrest _ hbase
      | up => exact absurd List.mem_cons_self hup
      | down name => exact hrest _ (hbase.trans (List.prefix_append _ _))

/-- A bounded walk that starts `height` levels below a base never leaves
the base. -/
theorem Bounded.prefix_follow {height : Nat} {moves : List (Move Name)}
    (hmoves : Bounded height moves) (base : List Name) :
    ∀ below : List Name, height ≤ below.length →
      base <+: follow (base ++ below) moves := by
  induction moves generalizing height with
  | nil => exact fun _ _ => List.prefix_append _ _
  | cons move moves ih =>
      intro below hheight
      cases move with
      | stay => exact @ih height hmoves below hheight
      | up =>
          cases height with
          | zero => exact hmoves.elim
          | succ height =>
              have hne : below ≠ [] := by
                rintro rfl
                simp at hheight
              have hstep := @ih height hmoves
                below.dropLast (by rw [List.length_dropLast]; omega)
              rw [follow_cons, Move.apply,
                List.dropLast_append_of_ne_nil hne]
              exact hstep
      | down name =>
          have hbase : base <+: base ++ below ++ [name] :=
            ⟨below ++ [name], by simp⟩
          exact prefix_follow_of_not_up hmoves _ hbase

/-- Every part of a bounded walk is bounded. -/
theorem Bounded.of_prefix {height : Nat} {moves part : List (Move Name)}
    (hmoves : Bounded height moves) (hpart : part <+: moves) :
    Bounded height part := by
  induction part generalizing height moves with
  | nil => trivial
  | cons first part ih =>
      obtain ⟨rest, rfl⟩ := hpart
      have hrest : part <+: part ++ rest := List.prefix_append _ _
      cases first with
      | stay => exact @ih _ (part ++ rest) hmoves hrest
      | up =>
          cases height with
          | zero => exact hmoves.elim
          | succ height => exact @ih _ (part ++ rest) hmoves hrest
      | down name => exact fun h => hmoves (hrest.subset h)

/-! Resolution through links. -/

/-- One step of a resolution, on a position and the moves that are left.  A
name that is a link is replaced by the moves of its target. -/
inductive Step (links : List Name → Option (List (Move Name))) :
    List Name × List (Move Name) → List Name × List (Move Name) → Prop
  | stay {position : List Name} {moves : List (Move Name)} :
      Step links (position, .stay :: moves) (position, moves)
  | up {position : List Name} {moves : List (Move Name)} :
      Step links (position, .up :: moves) (position.dropLast, moves)
  | down {position : List Name} {name : Name} {moves : List (Move Name)}
      (hlink : links (position ++ [name]) = none) :
      Step links (position, .down name :: moves) (position ++ [name], moves)
  | link {position : List Name} {name : Name}
      {moves target : List (Move Name)}
      (hlink : links (position ++ [name]) = some target) :
      Step links (position, .down name :: moves) (position, target ++ moves)

/-- The target of each link stays below the base. -/
def Leashed (base : List Name)
    (links : List Name → Option (List (Move Name))) : Prop :=
  ∀ below name target, links (base ++ below ++ [name]) = some target →
    Bounded below.length target

/-- The position is below the base, and so is what the moves lead to. -/
def Inside (base : List Name) (state : List Name × List (Move Name)) : Prop :=
  ∃ below, state.1 = base ++ below ∧ Bounded below.length state.2

variable {base : List Name} {links : List Name → Option (List (Move Name))}

theorem Inside.step (hlinks : Leashed base links)
    {state state' : List Name × List (Move Name)} (h : Inside base state)
    (hstep : Step links state state') : Inside base state' := by
  obtain ⟨below, hposition, hbounded⟩ := h
  cases hstep with
  | stay => exact ⟨below, hposition, hbounded⟩
  | @up position moves =>
      obtain ⟨height, hheight⟩ :
          ∃ height, below.length = height + 1 := by
        cases hlength : below.length with
        | zero =>
            rw [hlength] at hbounded
            exact hbounded.elim
        | succ height => exact ⟨height, rfl⟩
      have hne : below ≠ [] := by
        rintro rfl
        simp at hheight
      have hposition' : position = base ++ below := hposition
      refine ⟨below.dropLast, ?_, ?_⟩
      · rw [hposition', List.dropLast_append_of_ne_nil hne]
      · rw [hheight] at hbounded
        rw [List.length_dropLast, hheight]
        exact hbounded
  | @down position name moves hlink =>
      have hposition' : position = base ++ below := hposition
      refine ⟨below ++ [name], ?_, bounded_of_not_up hbounded _⟩
      rw [hposition', List.append_assoc]
  | @link position name moves target hlink =>
      have hposition' : position = base ++ below := hposition
      rw [hposition'] at hlink
      exact ⟨below, hposition, (hlinks below name target hlink).append hbounded⟩

end Walk
