/-
Triples for programs with a state and an early exit.  A program that starts in
a state of the precondition returns in a state of the postcondition, or exits
in a state of the exit condition.
-/
import Mathlib.Logic.Basic

namespace Hoare

variable {ε σ α β : Type}

def Triple (pre : σ → Prop) (program : EStateM ε σ α)
    (post : α → σ → Prop) (exit : ε → σ → Prop) : Prop :=
  ∀ s, pre s →
    match program.run s with
    | .ok a s' => post a s'
    | .error e s' => exit e s'

variable {pre : σ → Prop} {post : α → σ → Prop} {exit : ε → σ → Prop}

theorem Triple.ret {a : α} (h : ∀ s, pre s → post a s) :
    Triple pre (pure a : EStateM ε σ α) post exit :=
  h

theorem Triple.throw {e : ε} (h : ∀ s, pre s → exit e s) :
    Triple pre (throw e : EStateM ε σ α) post exit :=
  h

theorem Triple.modify {f : σ → σ} {post : Unit → σ → Prop}
    (h : ∀ s, pre s → post () (f s)) :
    Triple pre (modify f : EStateM ε σ Unit) post exit :=
  h

theorem Triple.modifyGet {f : σ → α × σ}
    (h : ∀ s, pre s → post (f s).1 (f s).2) :
    Triple pre (modifyGet f : EStateM ε σ α) post exit :=
  h

theorem Triple.bind {program : EStateM ε σ α} {next : α → EStateM ε σ β}
    {middle : α → σ → Prop} {post : β → σ → Prop}
    (hprogram : Triple pre program middle exit)
    (hnext : ∀ a, Triple (middle a) (next a) post exit) :
    Triple pre (program >>= next) post exit := by
  intro s hs
  have hrun := hprogram s hs
  rw [EStateM.run_bind]
  cases h : program.run s with
  | ok a s' =>
      rw [h] at hrun
      exact hnext a s' hrun
  | error e s' =>
      rw [h] at hrun
      exact hrun

/-- A program whose result is known. -/
theorem Triple.bind_value {program : EStateM ε σ α} {next : α → EStateM ε σ β}
    {a : α} {middle : σ → Prop} {post : β → σ → Prop}
    (hprogram : Triple pre program (fun b s => b = a ∧ middle s) exit)
    (hnext : Triple middle (next a) post exit) :
    Triple pre (program >>= next) post exit :=
  hprogram.bind fun _ s ⟨hvalue, hs⟩ => hvalue ▸ hnext s hs

/-- A program that begins by looking at its state. -/
theorem Triple.get_bind {next : σ → EStateM ε σ β} {post : β → σ → Prop}
    (hnext : ∀ s, pre s → Triple (· = s) (next s) post exit) :
    Triple pre (get >>= next) post exit :=
  fun s hs => hnext s hs s rfl

theorem Triple.mono {program : EStateM ε σ α} {pre' : σ → Prop}
    {post' : α → σ → Prop} {exit' : ε → σ → Prop}
    (h : Triple pre' program post' exit') (hpre : ∀ s, pre s → pre' s)
    (hpost : ∀ a s, post' a s → post a s)
    (hexit : ∀ e s, exit' e s → exit e s) :
    Triple pre program post exit := by
  intro s hs
  have hrun := h s (hpre s hs)
  cases hresult : program.run s with
  | ok a s' =>
      rw [hresult] at hrun
      exact hpost a s' hrun
  | error e s' =>
      rw [hresult] at hrun
      exact hexit e s' hrun

theorem Triple.pre_mono {program : EStateM ε σ α} {pre' : σ → Prop}
    (h : Triple pre' program post exit) (hpre : ∀ s, pre s → pre' s) :
    Triple pre program post exit :=
  h.mono hpre (fun _ _ h => h) fun _ _ h => h

/-- A triple at one state of its precondition. -/
theorem Triple.from_state {program : EStateM ε σ α} {s : σ}
    (h : Triple pre program post exit) (hs : pre s) :
    Triple (· = s) program post exit :=
  fun _ heq => heq ▸ h s hs

/-- The postcondition at one state, with the run that leads to it. -/
theorem Triple.ran {program : EStateM ε σ α} {s : σ}
    (h : Triple (· = s) program post exit) :
    Triple (· = s) program
      (fun a s' => post a s' ∧ program.run s = .ok a s') exit := by
  rintro _ rfl
  have hrun := h _ rfl
  cases hresult : program.run _ with
  | ok a s' =>
      rw [hresult] at hrun
      exact ⟨hrun, rfl⟩
  | error e s' =>
      rw [hresult] at hrun
      exact hrun

theorem Triple.post_mono {program : EStateM ε σ α} {post' : α → σ → Prop}
    (h : Triple pre program post' exit)
    (hpost : ∀ a s, post' a s → post a s) :
    Triple pre program post exit :=
  h.mono (fun _ h => h) hpost fun _ _ h => h

/-- Nothing is said of the program. -/
theorem Triple.anything {program : EStateM ε σ α} :
    Triple pre program (fun _ _ => True) fun _ _ => True := by
  intro s _
  cases program.run s with
  | ok _ _ => trivial
  | error _ _ => trivial

/-- However the program exits. -/
theorem Triple.forget_exit {program : EStateM ε σ α}
    (h : Triple pre program post exit) :
    Triple pre program post fun _ _ => True :=
  h.mono (fun _ h => h) (fun _ _ h => h) fun _ _ _ => trivial

theorem Triple.ite {condition : Prop} [Decidable condition]
    {left right : EStateM ε σ α}
    (hleft : condition → Triple pre left post exit)
    (hright : ¬ condition → Triple pre right post exit) :
    Triple pre (if condition then left else right) post exit := by
  by_cases h : condition
  · rw [if_pos h]
    exact hleft h
  · rw [if_neg h]
    exact hright h

/-- A fact about the state may be assumed. -/
theorem Triple.assume {program : EStateM ε σ α} {fact : Prop}
    (hfact : ∀ s, pre s → fact) (h : fact → Triple pre program post exit) :
    Triple pre program post exit :=
  fun s hs => h (hfact s hs) s hs

/-- Values named in the precondition. -/
theorem Triple.exists_pre {ι : Type} {program : EStateM ε σ α}
    {pre : ι → σ → Prop} (h : ∀ i, Triple (pre i) program post exit) :
    Triple (fun s => ∃ i, pre i s) program post exit :=
  fun s ⟨i, hi⟩ => h i s hi

/-- Two postconditions of one program. -/
theorem Triple.and {program : EStateM ε σ α} {pre' : σ → Prop}
    {post' : α → σ → Prop} {exit' : ε → σ → Prop}
    (h : Triple pre program post exit)
    (h' : Triple pre' program post' exit') :
    Triple (fun s => pre s ∧ pre' s) program
      (fun a s => post a s ∧ post' a s) fun e s => exit e s ∧ exit' e s := by
  intro s hs
  have hrun := h s hs.1
  have hrun' := h' s hs.2
  cases hresult : program.run s with
  | ok a s' =>
      rw [hresult] at hrun hrun'
      exact ⟨hrun, hrun'⟩
  | error e s' =>
      rw [hresult] at hrun hrun'
      exact ⟨hrun, hrun'⟩

theorem Triple.together {program : EStateM ε σ α} {pre' : σ → Prop}
    {post' : α → σ → Prop} (h : Triple pre program post exit)
    (h' : Triple pre' program post' exit) :
    Triple (fun s => pre s ∧ pre' s) program
      (fun a s => post a s ∧ post' a s) exit :=
  (h.and h').mono (fun _ h => h) (fun _ _ h => h) fun _ _ h => h.1

/-! Invariants. -/

/-- The program returns and exits in states that satisfy what its first state
satisfies. -/
def Preserves (I : σ → Prop) (program : EStateM ε σ α) : Prop :=
  Triple I program (fun _ => I) fun _ => I

variable {I : σ → Prop}

theorem Preserves.ret (a : α) : Preserves I (pure a : EStateM ε σ α) :=
  fun _ h => h

theorem Preserves.throw (e : ε) :
    Preserves I (throw e : EStateM ε σ α) :=
  fun _ h => h

theorem Preserves.modify {f : σ → σ} (h : ∀ s, I s → I (f s)) :
    Preserves I (modify f : EStateM ε σ Unit) :=
  h

theorem Preserves.bind {program : EStateM ε σ α}
    {next : α → EStateM ε σ β} (hprogram : Preserves I program)
    (hnext : ∀ a, Preserves I (next a)) : Preserves I (program >>= next) :=
  Triple.bind hprogram hnext

theorem Preserves.get_bind {next : σ → EStateM ε σ β}
    (hnext : ∀ s, Preserves I (next s)) : Preserves I (get >>= next) :=
  fun s hs => hnext s s hs

theorem Preserves.ite {condition : Prop} [Decidable condition]
    {left right : EStateM ε σ α} (hleft : Preserves I left)
    (hright : Preserves I right) :
    Preserves I (if condition then left else right) :=
  Triple.ite (fun _ => hleft) fun _ => hright

/-- The state in which a run ends. -/
def finalState (program : EStateM ε σ α) (s : σ) : σ :=
  match program.run s with
  | .ok _ s' => s'
  | .error _ s' => s'

/-- What holds at every end of a program holds of its final state. -/
theorem Triple.finalState {program : EStateM ε σ α} {Q : σ → Prop}
    (h : Triple pre program (fun _ => Q) fun _ => Q) {s : σ} (hs : pre s) :
    Q (finalState program s) := by
  have hrun := h s hs
  rw [Hoare.finalState]
  cases hresult : program.run s with
  | ok a s' =>
      rw [hresult] at hrun
      exact hrun
  | error e s' =>
      rw [hresult] at hrun
      exact hrun

theorem Triple.run_ok {program : EStateM ε σ α}
    (h : Triple pre program post exit) {s s' : σ} {a : α} (hs : pre s)
    (hrun : program.run s = .ok a s') : post a s' := by
  have hresult := h s hs
  rw [hrun] at hresult
  exact hresult

theorem Triple.run_error {program : EStateM ε σ α}
    (h : Triple pre program post exit) {s s' : σ} {e : ε} (hs : pre s)
    (hrun : program.run s = .error e s') : exit e s' := by
  have hresult := h s hs
  rw [hrun] at hresult
  exact hresult

/-- The program does not exit. -/
def returns (program : EStateM ε σ α) (s : σ) : Bool :=
  match program.run s with
  | .ok _ _ => true
  | .error _ _ => false

theorem run_of_returns {program : EStateM ε σ α} {s : σ}
    (h : returns program s = true) :
    ∃ a, program.run s = .ok a (Hoare.finalState program s) := by
  rw [returns] at h
  rw [Hoare.finalState]
  cases hresult : program.run s with
  | ok a s' => exact ⟨a, rfl⟩
  | error e s' =>
      rw [hresult] at h
      cases h

/-- A program that cannot exit returns. -/
theorem Triple.exists_ok {program : EStateM ε σ α}
    (h : Triple pre program post fun _ _ => False) {s : σ} (hs : pre s) :
    ∃ a s', program.run s = .ok a s' ∧ post a s' := by
  have hresult := h s hs
  cases hrun : program.run s with
  | ok a s' =>
      rw [hrun] at hresult
      exact ⟨a, s', rfl, hresult⟩
  | error e s' =>
      rw [hrun] at hresult
      exact hresult.elim

end Hoare
