/-
The loop of `validate_path`, one component at a time.  The byte loop with its
skips is shown equal to a recursion over the pieces between slashes.
-/
import QubesUtils.SafeText
import QubesUtils.Separated

namespace QubesUtils

open Separated

/-- The pieces of a path between its slashes. -/
def components (path : List UInt8) : List (List UInt8) :=
  path.splitOn slash

def dotComponent : List UInt8 := [dot]
def dotdotComponent : List UInt8 := [dot, dot]

/-- Neither empty nor `.` nor `..`. -/
def Normal (component : List UInt8) : Prop :=
  component ≠ [] ∧ component ≠ dotComponent ∧ component ≠ dotdotComponent

instance (component : List UInt8) : Decidable (Normal component) :=
  inferInstanceAs (Decidable (_ ∧ _ ∧ _))

/-- The character rule for one component. -/
def CharactersAllowed (table : AllowTable) (flags : Flags)
    (component : List UInt8) : Prop :=
  hasFlag flags qubesPureAllowUnsafeCharacters = true ∨
    SafeText table component

open Classical in
/-- What one whole component does to the budget for `..` and to the count. -/
noncomputable def admitComponent (table : AllowTable) (flags : Flags)
    (component : List UInt8) (allowed count : Nat) :
    Except Int (Nat × Nat) :=
  if component = [] ∨ component = dotComponent then
    if hasFlag flags qubesPureAllowNonCanonicalPaths
      then .ok (allowed, count) else .error (-EILSEQ)
  else if component = dotdotComponent then
    if allowed < 1 then .error (-ENOLINK) else .ok (allowed - 1, count)
  else if CharactersAllowed table flags component then
    .ok (0, count + 1)
  else
    .error (-EILSEQ)

/-- The verdict on the remaining components.  An empty last component is the
end of a path with a trailing slash. -/
noncomputable def judgeComponents (table : AllowTable) (flags : Flags) :
    List (List UInt8) → Nat → Nat → Int
  | [], _, count => count
  | [[]], _, count =>
      if hasFlag flags qubesPureAllowTrailingSlash
        then count else -EILSEQ
  | component :: rest, allowed, count =>
      match admitComponent table flags component allowed count with
      | .error errno => errno
      | .ok (allowed, count) =>
          judgeComponents table flags rest allowed count

/-! One pass through the loop. -/

/-- The rest of a pass through the loop, once its body has run. -/
def resume (table : AllowTable) (s : CString) (flags : Flags) (fuel : Nat)
    (step : Except Fault PathStep) : Except Fault Int := do
  match ← step with
  | .ret value => .ok value
  | .next i allowed count =>
      validatePathLoop table s flags fuel i allowed count

section Loop

variable (table : AllowTable) (s : CString) (flags : Flags)

theorem validatePathLoop_succ {done rest : List UInt8} {byte : UInt8}
    (hbytes : s.bytes = done ++ byte :: rest) (fuel allowed count : Nat) :
    validatePathLoop table s flags (fuel + 1) done.length allowed count =
      resume table s flags fuel
        (validatePathBody table s flags done.length allowed count) := by
  have hmem : byte ∈ s.bytes := by simp [hbytes]
  rw [validatePathLoop, s.byteAt_of_eq_append hbytes]
  simp only [bind, Except.bind]
  rw [if_neg (s.ne_zero_of_mem hmem)]
  rfl

/-- Behind a byte that is not a slash the body checks a character. -/
theorem validatePathBody_inside {done rest : List UInt8} {last : UInt8}
    (hbytes : s.bytes = (done ++ [last]) ++ rest) (hlast : last ≠ slash)
    (allowed count : Nat) :
    validatePathBody table s flags (done ++ [last]).length allowed count =
      validatePathCharacter table s flags (done ++ [last]).length allowed
        count := by
  have hread : s.byteAt done.length = .ok last :=
    s.byteAt_of_eq_append
      (show s.bytes = done ++ last :: rest by simpa using hbytes)
  rw [validatePathBody, if_neg (by simp)]
  simp only [List.length_append, List.length_singleton,
    Nat.add_sub_cancel, hread, bind, Except.bind, pure, Except.pure]
  rw [if_neg (by simpa using hlast)]

/-- At the start, or behind a slash, the body looks at a component. -/
theorem validatePathBody_start {done rest : List UInt8}
    (hbytes : s.bytes = done ++ rest)
    (hstart : done = [] ∨ done.getLast? = some slash)
    (allowed count : Nat) :
    validatePathBody table s flags done.length allowed count =
      validatePathComponent table s flags done.length allowed count := by
  rcases hstart with rfl | hlast
  · rfl
  · obtain ⟨init, rfl⟩ : ∃ init, done = init ++ [slash] :=
      List.getLast?_eq_some_iff.mp hlast
    have hread : s.byteAt init.length = .ok slash :=
      s.byteAt_of_eq_append
        (show s.bytes = init ++ slash :: rest by simpa using hbytes)
    rw [validatePathBody, if_neg (by simp)]
    simp only [List.length_append, List.length_singleton,
      Nat.add_sub_cancel, hread, bind, Except.bind, pure, Except.pure]
    rw [if_pos (by simp)]

theorem validatePathLoop_end {done : List UInt8} {last : UInt8}
    (hbytes : s.bytes = done ++ [last]) (fuel allowed count : Nat) :
    validatePathLoop table s flags (fuel + 1) (done ++ [last]).length
        allowed count =
      .ok (if hasFlag flags qubesPureAllowTrailingSlash = false ∧
        last = slash then -EILSEQ else count) := by
  have hread := s.byteAt_of_eq_append hbytes
  have hnul := s.byteAt_end hbytes
  simp only [List.length_append, List.length_singleton] at hnul ⊢
  rw [validatePathLoop, hnul]
  simp only [bind, Except.bind, if_true, validatePathEnd, hnul]
  rw [if_neg (by simp)]
  simp only [Nat.add_sub_cancel, hread]
  by_cases htrailing : hasFlag flags qubesPureAllowTrailingSlash = false ∧
      last = slash
  · rw [if_pos htrailing, if_pos htrailing]
  · rw [if_neg htrailing, if_neg htrailing]

theorem printable_slash : 0x20 ≤ slash ∧ slash ≤ 0x7E := by decide

/-- A slash behind a component is stepped over. -/
theorem validatePathLoop_separator {done rest : List UInt8} {last : UInt8}
    (hbytes : s.bytes = (done ++ [last]) ++ slash :: rest)
    (hlast : last ≠ slash) (fuel allowed count : Nat) :
    validatePathLoop table s flags (fuel + 1) (done ++ [last]).length
        allowed count =
      validatePathLoop table s flags fuel
        (done ++ [last] ++ [slash]).length allowed count := by
  rw [validatePathLoop_succ table s flags hbytes,
    validatePathBody_inside table s flags hbytes hlast, resume,
    validatePathCharacter, s.byteAt_of_eq_append hbytes]
  simp only [bind, Except.bind]
  rw [if_neg (by decide), if_pos (Or.inl printable_slash)]
  simp only [List.length_append, List.length_singleton]

/-! A run of characters inside one component. -/

/-- The bytes behind a component: the end, or a slash. -/
def Boundary (rest : List UInt8) : Prop :=
  rest = [] ∨ ∃ rest', rest = slash :: rest'

/-- From inside a component the loop reaches its boundary, unless a character
is refused. -/
def ReachesBoundary (component : List UInt8) : Prop :=
  ∀ (done rest : List UInt8) (last : UInt8) (allowed count fuel : Nat)
    (value : Except Fault Int),
    s.bytes = (done ++ [last]) ++ (component ++ rest) →
    last ≠ slash → slash ∉ component → Boundary rest →
    component.length + rest.length < fuel →
    (∀ fuel, rest.length < fuel →
      validatePathLoop table s flags fuel
        (done ++ [last] ++ component).length allowed count = value) →
    (CharactersAllowed table flags component →
      validatePathLoop table s flags fuel (done ++ [last]).length allowed
        count = value) ∧
    (¬ CharactersAllowed table flags component →
      validatePathLoop table s flags fuel (done ++ [last]).length allowed
        count = .ok (-EILSEQ))

variable {table s flags}

theorem startsWithSafeChar_component {byte : UInt8}
    {component rest : List UInt8} (hboundary : Boundary rest)
    (hstarts : StartsWithSafeChar table ((byte :: component) ++ rest)) :
    ∃ c remainder, 0x80 ≤ c.toNat ∧
      qubesPureCodePointSafeForDisplay table c.toNat = true ∧
      byte :: component = String.utf8EncodeChar c ++ remainder := by
  obtain ⟨c, rest', hhigh, hsafe, heq⟩ := hstarts
  rcases List.append_eq_append_iff.mp heq with
    ⟨middle, hencode, hrest⟩ | ⟨middle, hcomponent, _⟩
  · cases middle with
    | nil => exact ⟨c, [], hhigh, hsafe, by simpa using hencode.symm⟩
    | cons head middle =>
        rcases hboundary with rfl | ⟨rest'', rfl⟩
        · simp at hrest
        · rw [List.cons_append, List.cons.injEq] at hrest
          have hmem : slash ∈ String.utf8EncodeChar c := by
            rw [hencode, ← hrest.1]
            simp
          have := Utf8.high_of_mem_encode hhigh hmem
          exact absurd this (by decide)
  · exact ⟨c, middle, hhigh, hsafe, hcomponent⟩

theorem charactersAllowed_cons_iff {byte : UInt8}
    {component : List UInt8}
    (hbyte : Printable byte ∨
      hasFlag flags qubesPureAllowUnsafeCharacters = true) :
    CharactersAllowed table flags (byte :: component) ↔
      CharactersAllowed table flags component := by
  rcases hbyte with hprintable | hflag
  · simp only [CharactersAllowed, safeText_cons_iff hprintable]
  · simp [CharactersAllowed, hflag]

/-- One character is checked, and the rest of the component follows. -/
theorem resume_character {done rest component : List UInt8} {byte : UInt8}
    {allowed count fuel : Nat} {value : Except Fault Int}
    (hshorter : ∀ shorter : List UInt8,
      shorter.length < (byte :: component).length →
      ReachesBoundary table s flags shorter)
    (hbytes : s.bytes = done ++ ((byte :: component) ++ rest))
    (hfree : slash ∉ byte :: component) (hboundary : Boundary rest)
    (hfuel : component.length + rest.length < fuel)
    (hvalue : ∀ fuel, rest.length < fuel →
      validatePathLoop table s flags fuel
        (done ++ (byte :: component)).length allowed count = value) :
    (CharactersAllowed table flags (byte :: component) →
      resume table s flags fuel (validatePathCharacter table s flags
        done.length allowed count) = value) ∧
    (¬ CharactersAllowed table flags (byte :: component) →
      resume table s flags fuel (validatePathCharacter table s flags
        done.length allowed count) = .ok (-EILSEQ)) := by
  have hmem : byte ∈ s.bytes := by simp [hbytes]
  have hread : s.byteAt done.length = .ok byte :=
    @CString.byteAt_of_eq_append s done byte (component ++ rest) hbytes
  rw [resume, validatePathCharacter, hread]
  simp only [bind, Except.bind]
  rw [if_neg (s.ne_zero_of_mem hmem)]
  have hbyteSlash : byte ≠ slash := fun h => hfree (by simp [h])
  by_cases hbyte : (0x20 ≤ byte ∧ byte ≤ 0x7E) ∨
      hasFlag flags qubesPureAllowUnsafeCharacters = true
  · rw [if_pos hbyte, charactersAllowed_cons_iff hbyte]
    have hrun := hshorter component (by simp) done rest byte allowed count
      fuel value (by simpa using hbytes) hbyteSlash
      (fun h => hfree (List.mem_cons_of_mem _ h)) hboundary hfuel
      (by simpa using hvalue)
    simpa using hrun
  · rw [if_neg hbyte]
    obtain ⟨hprintable, hflag⟩ := not_or.mp hbyte
    by_cases hstarts : StartsWithSafeChar table ((byte :: component) ++ rest)
    · obtain ⟨c, remainder, hhigh, hsafe, hcomponent⟩ :=
        startsWithSafeChar_component hboundary hstarts
      have hbytes' : s.bytes =
          done ++ (String.utf8EncodeChar c ++ (remainder ++ rest)) := by
        rw [hbytes, hcomponent, List.append_assoc]
      rw [validateUtf8CharSafe_of_encode table s hhigh hsafe hbytes']
      simp only
      obtain ⟨init, last, hencode⟩ :
          ∃ init last, String.utf8EncodeChar c = init ++ [last] :=
        ⟨_, _, (List.dropLast_append_getLast
          String.utf8EncodeChar_ne_nil).symm⟩
      have hlength : 0 < (String.utf8EncodeChar c).length :=
        List.length_pos_of_ne_nil String.utf8EncodeChar_ne_nil
      have hlast : last ≠ slash := by
        intro h
        apply hfree
        rw [hcomponent, hencode, h]
        simp
      have hallowed : CharactersAllowed table flags (byte :: component) ↔
          CharactersAllowed table flags remainder := by
        simp only [CharactersAllowed, hflag, Bool.false_eq_true, false_or]
        rw [hcomponent]
        exact ⟨fun h => h.tail.2,
          (safeText_encode (Or.inr ⟨hhigh, hsafe⟩)).append⟩
      have hposition : (done ++ String.utf8EncodeChar c).length =
          done.length + ((String.utf8EncodeChar c).length - 1) + 1 := by
        rw [List.length_append]
        omega
      have hrun := hshorter remainder
        (by rw [hcomponent, List.length_append]; omega)
        (done ++ init) rest last allowed count fuel value
        (by rw [hbytes', hencode]; simp)
        hlast (fun h => hfree (by rw [hcomponent]; simp [h])) hboundary
        (by
          have := congrArg List.length hcomponent
          simp only [List.length_cons, List.length_append] at this
          omega)
        (by
          intro fuel' hfuel'
          have := hvalue fuel' hfuel'
          rw [hcomponent, hencode] at this
          simpa using this)
      rw [List.append_assoc, ← hencode, hposition] at hrun
      rw [if_pos hlength, hallowed]
      exact hrun
    · have hnotComponent :
          ¬ StartsWithSafeChar table (byte :: component) := by
        rintro ⟨c, rest', hhigh, hsafe, heq⟩
        exact hstarts ⟨c, rest' ++ rest, hhigh, hsafe,
          by rw [heq, List.append_assoc]⟩
      have hunsafe := not_safeText_cons hprintable hnotComponent
      rw [validateUtf8CharSafe_eq_zero table s hbytes hstarts]
      simp only
      rw [if_neg (by omega)]
      refine ⟨fun hallowed => ?_, fun _ => rfl⟩
      rcases hallowed with h | h
      · exact absurd h hflag
      · exact absurd h hunsafe

theorem reachesBoundary (component : List UInt8) :
    ReachesBoundary table s flags component := by
  induction hn : component.length using Nat.strong_induction_on
    generalizing component with
  | h n ih =>
      intro done rest last allowed count fuel value hbytes hlast hfree
        hboundary hfuel hvalue
      cases component with
      | nil =>
          refine ⟨fun _ => ?_, fun hnot => ?_⟩
          · simpa using hvalue fuel (by simpa using hfuel)
          · exact absurd (Or.inr (safeText_nil table)) hnot
      | cons byte component =>
          obtain ⟨fuel, rfl⟩ : ∃ fuel', fuel = fuel' + 1 :=
            ⟨fuel - 1, by omega⟩
          have hbytes' : s.bytes =
              (done ++ [last]) ++ byte :: (component ++ rest) := hbytes
          rw [validatePathLoop_succ table s flags hbytes',
            validatePathBody_inside table s flags hbytes hlast]
          refine resume_character ?_ hbytes hfree hboundary ?_ hvalue
          · intro shorter hshorter
            exact ih shorter.length (hn ▸ hshorter) shorter rfl
          · simp only [List.length_cons] at hfuel
            omega

/-! Whole components. -/

theorem mem_ne_zero_slash {done component rest : List UInt8} {byte : UInt8}
    (hbytes : s.bytes = done ++ (component ++ rest))
    (hfree : slash ∉ component) (hmem : byte ∈ component) :
    ¬ (byte = 0 ∨ byte = slash) := by
  rintro (rfl | rfl)
  · exact s.noNul (by simp [hbytes, hmem])
  · exact hfree hmem

theorem boundary_head {rest : List UInt8} (hboundary : Boundary rest) :
    rest.headD 0 = 0 ∨ rest.headD 0 = slash := by
  rcases hboundary with rfl | ⟨rest', rfl⟩
  · exact Or.inl rfl
  · exact Or.inr rfl

/-- The loop body on a component that is neither `.` nor `..`. -/
theorem validatePathComponent_normal {done component rest : List UInt8}
    (hbytes : s.bytes = done ++ (component ++ rest))
    (hfree : slash ∉ component) (hnormal : Normal component)
    (allowed count : Nat) :
    validatePathComponent table s flags done.length allowed count =
      validatePathCharacter table s flags done.length 0 (count + 1) := by
  obtain ⟨hne, hdot, hdotdot⟩ := hnormal
  obtain ⟨byte, tail, rfl⟩ := List.exists_cons_of_ne_nil hne
  have hbyte : ¬ (byte = 0 ∨ byte = slash) :=
    mem_ne_zero_slash hbytes hfree (by simp)
  obtain ⟨hzero, hslash⟩ := not_or.mp hbyte
  have hbytes' : s.bytes = done ++ byte :: (tail ++ rest) := hbytes
  rw [validatePathComponent, s.byteAt_of_eq_append hbytes']
  simp only [bind, Except.bind]
  rw [if_neg hzero, if_neg hslash]
  by_cases hfirst : byte = dot
  · rw [if_pos hfirst]
    cases tail with
    | nil => exact absurd (by rw [hfirst]; rfl) hdot
    | cons byte₁ tail =>
        have hread : s.byteAt (done.length + 1) = .ok byte₁ := by
          have := s.byteAt_of_eq_append
            (show s.bytes = (done ++ [byte]) ++ byte₁ :: (tail ++ rest) by
              simpa using hbytes)
          simpa using this
        rw [hread]
        simp only
        rw [if_neg (mem_ne_zero_slash hbytes hfree (by simp))]
        by_cases hsecond : byte₁ = dot
        · rw [if_pos hsecond]
          cases tail with
          | nil => exact absurd (by rw [hfirst, hsecond]; rfl) hdotdot
          | cons byte₂ tail =>
              have hread : s.byteAt (done.length + 2) = .ok byte₂ := by
                have := s.byteAt_of_eq_append
                  (show s.bytes = (done ++ [byte, byte₁]) ++
                    byte₂ :: (tail ++ rest) by simpa using hbytes)
                simpa using this
              rw [hread]
              simp only
              rw [if_neg (mem_ne_zero_slash hbytes hfree (by simp))]
        · rw [if_neg hsecond]
  · rw [if_neg hfirst]

theorem validatePathComponent_dot {done rest : List UInt8}
    (hbytes : s.bytes = done ++ (dotComponent ++ rest))
    (hboundary : Boundary rest) (allowed count : Nat) :
    validatePathComponent table s flags done.length allowed count =
      .ok (if hasFlag flags qubesPureAllowNonCanonicalPaths
        then .next (done ++ dotComponent).length allowed count
        else .ret (-EILSEQ)) := by
  have hread : s.byteAt (done.length + 1) = .ok (rest.headD 0) := by
    have := s.byteAt_append
      (show s.bytes = (done ++ dotComponent) ++ rest by simpa using hbytes)
    simpa [dotComponent] using this
  have hbytes' : s.bytes = done ++ dot :: rest := hbytes
  rw [validatePathComponent, s.byteAt_of_eq_append hbytes']
  simp only [bind, Except.bind]
  rw [if_neg (by decide), if_neg (by decide), if_pos trivial, hread]
  simp only
  rw [if_pos (boundary_head hboundary)]
  split <;> simp [dotComponent]

theorem validatePathComponent_dotdot {done rest : List UInt8}
    (hbytes : s.bytes = done ++ (dotdotComponent ++ rest))
    (hboundary : Boundary rest) (allowed count : Nat) :
    validatePathComponent table s flags done.length allowed count =
      .ok (if allowed < 1 then .ret (-ENOLINK)
        else .next (done ++ dotdotComponent).length (allowed - 1) count) := by
  have hread₁ : s.byteAt (done.length + 1) = .ok dot := by
    have := s.byteAt_of_eq_append
      (show s.bytes = (done ++ [dot]) ++ dot :: rest by
        simpa [dotdotComponent] using hbytes)
    simpa using this
  have hread₂ : s.byteAt (done.length + 2) = .ok (rest.headD 0) := by
    have := s.byteAt_append
      (show s.bytes = (done ++ dotdotComponent) ++ rest by
        simpa using hbytes)
    simpa [dotdotComponent] using this
  have hbytes' : s.bytes = done ++ dot :: (dot :: rest) := hbytes
  rw [validatePathComponent, s.byteAt_of_eq_append hbytes']
  simp only [bind, Except.bind]
  rw [if_neg (by decide), if_neg (by decide), if_pos trivial, hread₁]
  simp only
  rw [if_neg (by decide), if_pos trivial, hread₂]
  simp only
  rw [if_pos (boundary_head hboundary)]
  split <;> simp [dotdotComponent]

theorem validatePathComponent_slash {done rest : List UInt8}
    (hbytes : s.bytes = done ++ slash :: rest) (allowed count : Nat) :
    validatePathComponent table s flags done.length allowed count =
      .ok (if hasFlag flags qubesPureAllowNonCanonicalPaths
        then .next (done ++ [slash]).length allowed count
        else .ret (-EILSEQ)) := by
  rw [validatePathComponent, s.byteAt_of_eq_append hbytes]
  simp only [bind, Except.bind]
  rw [if_neg (by decide), if_pos trivial]
  split <;> simp

/-- A nonempty component at its start, up to its boundary. -/
theorem validatePathLoop_component {done component rest : List UInt8}
    (hbytes : s.bytes = done ++ (component ++ rest))
    (hstart : done = [] ∨ done.getLast? = some slash)
    (hne : component ≠ []) (hfree : slash ∉ component)
    (hboundary : Boundary rest) {verdict : Nat → Nat → Int}
    (hverdict : ∀ allowed count fuel, rest.length < fuel →
      validatePathLoop table s flags fuel (done ++ component).length allowed
        count = .ok (verdict allowed count))
    {fuel : Nat} (hfuel : component.length + rest.length < fuel)
    (allowed count : Nat) :
    validatePathLoop table s flags fuel done.length allowed count =
      .ok (match admitComponent table flags component allowed count with
        | .error errno => errno
        | .ok (allowed, count) => verdict allowed count) := by
  obtain ⟨byte, tail, hcons⟩ := List.exists_cons_of_ne_nil hne
  obtain ⟨fuel, rfl⟩ : ∃ fuel', fuel = fuel' + 1 := ⟨fuel - 1, by omega⟩
  have hlength : 0 < component.length := List.length_pos_of_ne_nil hne
  have hbytes' : s.bytes = done ++ byte :: (tail ++ rest) := by
    rw [hbytes, hcons]
    rfl
  rw [validatePathLoop_succ table s flags hbytes',
    validatePathBody_start table s flags hbytes hstart, admitComponent]
  by_cases hdot : component = dotComponent
  · rw [if_pos (Or.inr hdot)]
    subst hdot
    rw [validatePathComponent_dot hbytes hboundary, resume]
    by_cases hflag : hasFlag flags qubesPureAllowNonCanonicalPaths = true
    · rw [if_pos hflag, if_pos hflag]
      exact hverdict allowed count fuel (by omega)
    · rw [if_neg hflag, if_neg hflag]
      rfl
  rw [if_neg (by simp [hne, hdot])]
  by_cases hdotdot : component = dotdotComponent
  · rw [if_pos hdotdot]
    subst hdotdot
    rw [validatePathComponent_dotdot hbytes hboundary, resume]
    by_cases hbudget : allowed < 1
    · rw [if_pos hbudget, if_pos hbudget]
      rfl
    · rw [if_neg hbudget, if_neg hbudget]
      exact hverdict (allowed - 1) count fuel (by omega)
  rw [if_neg hdotdot, validatePathComponent_normal hbytes hfree
    ⟨hne, hdot, hdotdot⟩]
  have hrun := @resume_character table s flags done rest tail byte 0
    (count + 1) fuel (.ok (verdict 0 (count + 1)))
    (fun shorter _ => reachesBoundary shorter)
    (by rw [hbytes, hcons]) (hcons ▸ hfree) hboundary
    (by rw [hcons, List.length_cons] at hfuel; omega)
    (by rw [← hcons]; exact fun fuel hfuel => hverdict 0 (count + 1) fuel hfuel)
  rw [← hcons] at hrun
  by_cases hallowed : CharactersAllowed table flags component
  · rw [if_pos hallowed, hrun.1 hallowed]
  · rw [if_neg hallowed, hrun.2 hallowed]

theorem judgeComponents_cons {component : List UInt8}
    {rest : List (List UInt8)} (hrest : component ≠ [] ∨ rest ≠ [])
    (allowed count : Nat) :
    judgeComponents table flags (component :: rest) allowed count =
      match admitComponent table flags component allowed count with
      | .error errno => errno
      | .ok (allowed, count) =>
          judgeComponents table flags rest allowed count := by
  cases component with
  | nil =>
      cases rest with
      | nil => simp at hrest
      | cons second rest => rw [judgeComponents]; simp
  | cons byte component => rw [judgeComponents]; simp

/-- From the start of a component the loop computes the verdict on the
components that are left. -/
theorem validatePathLoop_eq_judge (rest : List UInt8) :
    ∀ (done : List UInt8), s.bytes = done ++ rest →
      (done = [] ∨ done.getLast? = some slash) →
      (done ≠ [] ∨ rest ≠ []) →
      ∀ (allowed count fuel : Nat), rest.length < fuel →
        validatePathLoop table s flags fuel done.length allowed count =
          .ok (judgeComponents table flags (components rest) allowed
            count) := by
  induction rest using pieces_induction slash with
  | last component hfree =>
      intro done hbytes hstart hnonempty allowed count fuel hfuel
      rw [components, List.splitOn_eq_singleton hfree]
      by_cases hne : component = []
      · subst hne
        obtain ⟨fuel, rfl⟩ : ∃ fuel', fuel = fuel' + 1 :=
          ⟨fuel - 1, by omega⟩
        have hdone : done ≠ [] := by simpa using hnonempty
        have hlast : done.getLast? = some slash := by simpa [hdone] using hstart
        obtain ⟨init, rfl⟩ : ∃ init, done = init ++ [slash] :=
          List.getLast?_eq_some_iff.mp hlast
        rw [validatePathLoop_end table s flags (by simpa using hbytes),
          judgeComponents]
        by_cases hflag : hasFlag flags qubesPureAllowTrailingSlash = true
        · simp [hflag]
        · simp [hflag]
      · rw [judgeComponents_cons (Or.inl hne)]
        refine validatePathLoop_component
          (show s.bytes = done ++ (component ++ []) by simpa using hbytes)
          hstart hne hfree (Or.inl rfl) ?_
          (by simpa using hfuel) allowed count
        intro allowed count fuel' hfuel'
        obtain ⟨fuel', rfl⟩ : ∃ fuel'', fuel' = fuel'' + 1 :=
          ⟨fuel' - 1, by omega⟩
        obtain ⟨init, last, hlast⟩ :
            ∃ init last, component = init ++ [last] :=
          ⟨_, _, (List.dropLast_append_getLast hne).symm⟩
        have hlastSlash : last ≠ slash := fun h => hfree (by simp [hlast, h])
        rw [hlast, ← List.append_assoc, validatePathLoop_end table s flags
          (by rw [hbytes, hlast, List.append_assoc]), judgeComponents]
        simp [hlastSlash]
  | cons component rest hfree ih =>
      intro done hbytes hstart hnonempty allowed count fuel hfuel
      have hsplit : components (component ++ slash :: rest) =
          component :: components rest :=
        List.splitOn_append_cons_self_of_not_mem hfree rest
      have hrest : components rest ≠ [] := List.splitOn_ne_nil slash rest
      have hnext : ∀ allowed count fuel, rest.length < fuel →
          validatePathLoop table s flags fuel
            (done ++ component ++ [slash]).length allowed count =
          .ok (judgeComponents table flags (components rest) allowed
            count) := by
        refine ih _ ?_ (Or.inr ?_) (Or.inl ?_)
        · rw [hbytes]
          simp
        · simp
        · simp
      rw [List.length_append, List.length_cons] at hfuel
      rw [hsplit, judgeComponents_cons (Or.inr hrest)]
      by_cases hne : component = []
      · subst hne
        obtain ⟨fuel, rfl⟩ : ∃ fuel', fuel = fuel' + 1 :=
          ⟨fuel - 1, by omega⟩
        have hbytes' : s.bytes = done ++ slash :: rest := hbytes
        rw [validatePathLoop_succ table s flags hbytes',
          validatePathBody_start table s flags hbytes hstart,
          validatePathComponent_slash hbytes, resume, admitComponent,
          if_pos (Or.inl rfl)]
        by_cases hflag :
            hasFlag flags qubesPureAllowNonCanonicalPaths = true
        · rw [if_pos hflag, if_pos hflag]
          have hrun := hnext allowed count fuel (by simp at hfuel; omega)
          rw [List.append_nil] at hrun
          exact hrun
        · rw [if_neg hflag, if_neg hflag]
          rfl
      · refine validatePathLoop_component hbytes hstart hne hfree
          (Or.inr ⟨rest, rfl⟩) ?_ (by rw [List.length_cons]; omega)
          allowed count
        intro allowed count fuel' hfuel'
        rw [List.length_cons] at hfuel'
        obtain ⟨fuel', rfl⟩ : ∃ fuel'', fuel' = fuel'' + 1 :=
          ⟨fuel' - 1, by omega⟩
        obtain ⟨init, last, hlast⟩ :
            ∃ init last, component = init ++ [last] :=
          ⟨_, _, (List.dropLast_append_getLast hne).symm⟩
        have hlastSlash : last ≠ slash := fun h => hfree (by simp [hlast, h])
        have hrun := hnext allowed count fuel' (by omega)
        rw [hlast, ← List.append_assoc] at hrun ⊢
        have hbytes' : s.bytes =
            ((done ++ init) ++ [last]) ++ slash :: rest := by
          rw [hbytes, hlast]
          simp
        rw [validatePathLoop_separator table s flags hbytes' hlastSlash]
        exact hrun

end Loop

end QubesUtils
