/-
Programs that make calls on a state that they share.  Each thread owns a view
of the state, which no call of another one changes: so it is verified alone,
and what is verified holds in every interleaving.
-/
import Mathlib.Logic.Function.Basic
import Mathlib.Logic.Relation

namespace Threads

/-- A program that makes calls and goes on as they are answered. -/
inductive Program (Call : Type) (Answer : Call → Type) (ε α : Type)
  | ret (a : α)
  | stop (e : ε)
  | call (c : Call) (next : Answer c → Program Call Answer ε α)

/-- A call that has been answered. -/
abbrev Event (Call : Type) (Answer : Call → Type) := Sigma Answer

section

variable {Call : Type} {Answer : Call → Type} {ε ε' α β : Type}

namespace Program

def bind : Program Call Answer ε α → (α → Program Call Answer ε β) →
    Program Call Answer ε β
  | ret a, f => f a
  | stop e, _ => stop e
  | call c next, f => call c fun a => bind (next a) f

instance : Monad (Program Call Answer ε) where
  pure := ret
  bind := bind

/-- The call alone. -/
def request (c : Call) : Program Call Answer ε (Answer c) := call c ret

/-- The program, and how it ends. -/
def outcome : Program Call Answer ε α → Program Call Answer ε' (Except ε α)
  | ret a => ret (.ok a)
  | stop e => ret (.error e)
  | call c next => call c fun a => outcome (next a)

end Program

end

/-! What is shared, and who may do what. -/

/-- How calls are answered, what of the state belongs to a thread, what holds
at all times of the state and of the answers that every thread has had, and
when a thread may make a call. -/
structure Discipline (ι σ ν Call : Type) (Answer : Call → Type) where
  handle : ι → (c : Call) → σ → Answer c → σ → Prop
  view : ι → σ → ν
  invariant : σ → (ι → List (Event Call Answer)) → Prop
  permitted : ι → Call → σ → List (Event Call Answer) → Prop

/-- The state, what every thread has done, and what it has left to do. -/
structure System (ι σ Call : Type) (Answer : Call → Type) (ε α : Type) where
  state : σ
  history : ι → List (Event Call Answer)
  programs : ι → Program Call Answer ε α

section

variable {ι σ ν Call : Type} {Answer : Call → Type} {ε ε' α β : Type}
  [DecidableEq ι]

/-- A thread makes its next call, or the state is changed from outside. -/
inductive Step (handle : ι → (c : Call) → σ → Answer c → σ → Prop)
    (disturb : σ → σ → Prop) :
    System ι σ Call Answer ε α → System ι σ Call Answer ε α → Prop
  | call {sys : System ι σ Call Answer ε α} {i : ι} {c : Call}
      {next : Answer c → Program Call Answer ε α} {a : Answer c} {s : σ}
      (hprogram : sys.programs i = .call c next)
      (hanswer : handle i c sys.state a s) :
      Step handle disturb sys
        { state := s
          history := Function.update sys.history i
            (sys.history i ++ [⟨c, a⟩])
          programs := Function.update sys.programs i (next a) }
  | disturb {sys : System ι σ Call Answer ε α} {s : σ}
      (h : disturb sys.state s) :
      Step handle disturb sys { sys with state := s }

abbrev Reachable (handle : ι → (c : Call) → σ → Answer c → σ → Prop)
    (disturb : σ → σ → Prop) :
    System ι σ Call Answer ε α → System ι σ Call Answer ε α → Prop :=
  Relation.ReflTransGen (Step handle disturb)

/-! A thread alone. -/

variable (D : Discipline ι σ ν Call Answer) (i : ι)

/-- From its view and its history a thread makes permitted calls only, keeps
the invariant and the views of the other threads, and ends as it should. -/
def Meets (post : α → ν → List (Event Call Answer) → Prop)
    (exit : ε → ν → List (Event Call Answer) → Prop) :
    Program Call Answer ε α → ν → List (Event Call Answer) → Prop
  | .ret a, v, t => post a v t
  | .stop e, v, t => exit e v t
  | .call c next, v, t => ∀ s history, D.invariant s history →
      D.view i s = v → history i = t →
        D.permitted i c s t ∧ ∀ a s', D.handle i c s a s' →
          D.invariant s' (Function.update history i (t ++ [⟨c, a⟩])) ∧
          (∀ j, j ≠ i → D.view j s' = D.view j s) ∧
          Meets post exit (next a) (D.view i s') (t ++ [⟨c, a⟩])

variable {D i} {post post' : α → ν → List (Event Call Answer) → Prop}
  {exit exit' : ε → ν → List (Event Call Answer) → Prop}

theorem Meets.mono (hpost : ∀ a v t, post a v t → post' a v t)
    (hexit : ∀ e v t, exit e v t → exit' e v t) :
    ∀ {program : Program Call Answer ε α} {v : ν}
      {t : List (Event Call Answer)}, Meets D i post exit program v t →
        Meets D i post' exit' program v t := by
  intro program
  induction program with
  | ret a => exact fun h => hpost a _ _ h
  | stop e => exact fun h => hexit e _ _ h
  | call c next ih =>
      intro v t h s history hinvariant hview hhistory
      obtain ⟨hpermitted, hstep⟩ := h s history hinvariant hview hhistory
      refine ⟨hpermitted, fun a s' hanswer => ?_⟩
      obtain ⟨hkept, hothers, hnext⟩ := hstep a s' hanswer
      exact ⟨hkept, hothers, ih a hnext⟩

theorem Meets.bind {f : α → Program Call Answer ε β}
    {post : β → ν → List (Event Call Answer) → Prop} :
    ∀ {program : Program Call Answer ε α} {v : ν}
      {t : List (Event Call Answer)},
      Meets D i (fun a v t => Meets D i post exit (f a) v t) exit program v t →
        Meets D i post exit (program >>= f) v t := by
  intro program
  induction program with
  | ret a => exact fun h => h
  | stop e => exact fun h => h
  | call c next ih =>
      intro v t h s history hinvariant hview hhistory
      obtain ⟨hpermitted, hstep⟩ := h s history hinvariant hview hhistory
      refine ⟨hpermitted, fun a s' hanswer => ?_⟩
      obtain ⟨hkept, hothers, hnext⟩ := hstep a s' hanswer
      exact ⟨hkept, hothers, ih a hnext⟩

/-- The end of a program as a result. -/
def Ends (post : α → ν → List (Event Call Answer) → Prop)
    (exit : ε → ν → List (Event Call Answer) → Prop) :
    Except ε α → ν → List (Event Call Answer) → Prop
  | .ok a => post a
  | .error e => exit e

theorem Meets.outcome
    {exit' : ε' → ν → List (Event Call Answer) → Prop} :
    ∀ {program : Program Call Answer ε α} {v : ν}
      {t : List (Event Call Answer)}, Meets D i post exit program v t →
        Meets D i (Ends post exit) exit' program.outcome v t := by
  intro program
  induction program with
  | ret a => exact fun h => h
  | stop e => exact fun h => h
  | call c next ih =>
      intro v t h s history hinvariant hview hhistory
      obtain ⟨hpermitted, hstep⟩ := h s history hinvariant hview hhistory
      refine ⟨hpermitted, fun a s' hanswer => ?_⟩
      obtain ⟨hkept, hothers, hnext⟩ := hstep a s' hanswer
      exact ⟨hkept, hothers, ih a hnext⟩

/-! All of them together. -/

/-- The invariant holds, and every thread meets what it has to meet from
here on. -/
structure Sound (D : Discipline ι σ ν Call Answer)
    (post : ι → α → ν → List (Event Call Answer) → Prop)
    (exit : ι → ε → ν → List (Event Call Answer) → Prop)
    (sys : System ι σ Call Answer ε α) : Prop where
  invariant : D.invariant sys.state sys.history
  meets : ∀ i, Meets D i (post i) (exit i) (sys.programs i)
    (D.view i sys.state) (sys.history i)

variable {posts : ι → α → ν → List (Event Call Answer) → Prop}
  {exits : ι → ε → ν → List (Event Call Answer) → Prop}
  {disturb : σ → σ → Prop} {sys sys' : System ι σ Call Answer ε α}

/-- What comes from outside keeps the invariant and leaves the threads'
views alone. -/
def Harmless (D : Discipline ι σ ν Call Answer)
    (disturb : σ → σ → Prop) : Prop :=
  ∀ s s' history, D.invariant s history → disturb s s' →
    D.invariant s' history ∧ ∀ i, D.view i s' = D.view i s

theorem Sound.step (hdisturb : Harmless D disturb)
    (h : Sound D posts exits sys) (hstep : Step D.handle disturb sys sys') :
    Sound D posts exits sys' := by
  cases hstep with
  | @call i c next a s hprogram hanswer =>
      have hmeets := h.meets i
      rw [hprogram] at hmeets
      obtain ⟨hkept, hothers, hnext⟩ :=
        (hmeets sys.state sys.history h.invariant rfl rfl).2 a s hanswer
      refine ⟨hkept, fun j => ?_⟩
      by_cases hj : j = i
      · subst hj
        simp only [Function.update_self]
        exact hnext
      · simp only [Function.update_of_ne hj, hothers j hj]
        exact h.meets j
  | @disturb s hdisturbed =>
      obtain ⟨hkept, hviews⟩ :=
        hdisturb sys.state s sys.history h.invariant hdisturbed
      refine ⟨hkept, fun j => ?_⟩
      rw [hviews j]
      exact h.meets j

/-- In every interleaving. -/
theorem Sound.reachable (hdisturb : Harmless D disturb)
    (h : Sound D posts exits sys)
    (hreach : Reachable D.handle disturb sys sys') :
    Sound D posts exits sys' := by
  induction hreach with
  | refl => exact h
  | tail _ hstep ih => exact ih.step hdisturb hstep

theorem Sound.permitted {c : Call}
    {next : Answer c → Program Call Answer ε α} (h : Sound D posts exits sys)
    (hprogram : sys.programs i = .call c next) :
    D.permitted i c sys.state (sys.history i) := by
  have hmeets := h.meets i
  rw [hprogram] at hmeets
  exact (hmeets sys.state sys.history h.invariant rfl rfl).1

end

/-! A state that answers by itself. -/

section

variable {ι σ Call : Type} {Answer : Call → Type} {ε ε' α β : Type}

namespace Program

/-- The program alone, on a state that has one answer to every call. -/
def run (reply : (c : Call) → σ → Answer c × σ) :
    Program Call Answer ε α → σ → Except ε α × σ
  | ret a, s => (.ok a, s)
  | stop e, s => (.error e, s)
  | call c next, s => run reply (next (reply c s).1) (reply c s).2

variable {reply : (c : Call) → σ → Answer c × σ} {s s' : σ}

theorem run_bind {f : α → Program Call Answer ε β} {a : α} :
    ∀ {program : Program Call Answer ε α} {s : σ},
      program.run reply s = (.ok a, s') →
        (program >>= f).run reply s = (f a).run reply s' := by
  intro program
  induction program with
  | ret b =>
      intro s h
      obtain ⟨hvalue, hstate⟩ := Prod.mk.inj h
      cases hvalue
      cases hstate
      rfl
  | stop e =>
      intro s h
      cases (Prod.mk.inj h).1
  | call c next ih =>
      intro s h
      exact ih _ h

theorem run_outcome {result : Except ε α} :
    ∀ {program : Program Call Answer ε α} {s : σ},
      program.run reply s = (result, s') →
        (program.outcome : Program Call Answer ε' (Except ε α)).run reply s =
          (.ok result, s') := by
  intro program
  induction program with
  | ret a =>
      intro s h
      obtain ⟨rfl, rfl⟩ := Prod.mk.inj h
      rfl
  | stop e =>
      intro s h
      obtain ⟨rfl, rfl⟩ := Prod.mk.inj h
      rfl
  | call c next ih =>
      intro s h
      exact ih _ h

/-- The call that comes next. -/
def pending : Program Call Answer ε α → Option Call
  | call c _ => some c
  | _ => none

theorem pending_eq_some {program : Program Call Answer ε α} {c : Call}
    (h : program.pending = some c) : ∃ next, program = .call c next := by
  cases program with
  | ret a => cases h
  | stop e => cases h
  | call c' next =>
      obtain rfl := Option.some.inj h
      exact ⟨next, rfl⟩

end Program

variable [DecidableEq ι]

/-- So many calls of one thread. -/
def System.advance (reply : ι → (c : Call) → σ → Answer c × σ) (i : ι) :
    Nat → System ι σ Call Answer ε α → System ι σ Call Answer ε α
  | 0, sys => sys
  | n + 1, sys =>
      match sys.programs i with
      | .call c next =>
          advance reply i n
            { state := (reply i c sys.state).2
              history := Function.update sys.history i
                (sys.history i ++ [⟨c, (reply i c sys.state).1⟩])
              programs := Function.update sys.programs i
                (next (reply i c sys.state).1) }
      | _ => sys

/-- Those calls are one interleaving. -/
theorem advance_reachable {handle : ι → (c : Call) → σ → Answer c → σ → Prop}
    {disturb : σ → σ → Prop} {reply : ι → (c : Call) → σ → Answer c × σ}
    (hreply : ∀ i c s, handle i c s (reply i c s).1 (reply i c s).2)
    (i : ι) (n : Nat) (sys : System ι σ Call Answer ε α) :
    Reachable handle disturb sys (sys.advance reply i n) := by
  induction n generalizing sys with
  | zero => exact .refl
  | succ n ih =>
      rw [System.advance]
      split
      · rename_i c next hprogram
        exact .head (.call hprogram (hreply i c sys.state)) (ih _)
      · exact .refl

end

end Threads
