/-
When the loop over `meminfo` stops inside its buffer: the six keys have to be
met, with something behind the last of them.
-/
import QubesUtils.Meminfo

namespace QubesUtils.Meminfo

/-! Reading by lines. -/

/-- How far a line of a text reaches: to where the format ends, or as far as
the line before. -/
def lineLength (len : Option Nat) (text : List UInt8) : Option Nat :=
  (sscanf text).consumed.or len

/-- The key of a line with a number. -/
def keyRead (text : List UInt8) (n : Nat) : Option Key :=
  if (sscanf text).value = none ∨ n < 8 then none else keyAt text

/-- A text is cut into lines, with some keys, and a rest. -/
inductive Lines : Option Nat → List UInt8 → List Key → List UInt8 → Prop
  | stop (len : Option Nat) (rest : List UInt8) : Lines len rest [] rest
  | line {len : Option Nat} {line text rest : List UInt8} {keys : List Key} :
      lineLength len (line ++ text) = some line.length →
      Lines (some line.length) text keys rest →
      Lines len (line ++ text)
        ((keyRead (line ++ text) line.length).toList ++ keys) rest

/-- All keys are met in front of the end. -/
def Complete (text : List UInt8) : Prop :=
  ∃ keys rest, Lines none text keys rest ∧ rest ≠ [] ∧ ∀ key : Key, key ∈ keys

/-- The loop returns, whatever `len` holds at first; it never uses `ptr`
outside the buffer. -/
def StopsInside (buffer : CString) : Prop :=
  ∀ garbage, ∃ fuel p, parseLoop buffer fuel (.start garbage) = .ok p

/-! The items. -/

/-- The bits of some keys are set. -/
structure Seen (keys : List Key) (nitems : Nat) : Prop where
  bit : ∀ key : Key, nitems.testBit key.index = true ↔ key ∈ keys
  small : nitems < 2 ^ 6

theorem Key.index_injective {key key' : Key} (h : key.index = key'.index) :
    key = key' := by
  cases key <;> cases key' <;> first | rfl | cases h

theorem Key.index_lt (key : Key) : key.index < 6 := by
  cases key <;> decide

theorem Key.exists_index {i : Nat} (h : i < 6) : ∃ key : Key, key.index = i := by
  have hall : ∀ i : Fin 6, ∃ key ∈ Key.all, key.index = i.val := by decide
  obtain ⟨key, _, hkey⟩ := hall ⟨i, h⟩
  exact ⟨key, hkey⟩

theorem Seen.nil : Seen [] 0 :=
  ⟨fun key => by simp, by decide⟩

theorem Seen.add {keys : List Key} {nitems : Nat} (h : Seen keys nitems)
    (key : Key) : Seen (keys ++ [key]) (nitems ||| 2 ^ key.index) where
  bit := by
    intro key'
    rw [Nat.testBit_or, Bool.or_eq_true, h.bit key', Nat.testBit_two_pow,
      List.mem_append, List.mem_singleton, decide_eq_true_iff]
    constructor
    · exact Or.imp_right fun heq => (Key.index_injective heq).symm
    · exact Or.imp_right fun heq => heq ▸ rfl
  small := Nat.or_lt_two_pow h.small
    (Nat.pow_lt_pow_right (by decide) key.index_lt)

theorem Seen.all_iff {keys : List Key} {nitems : Nat} (h : Seen keys nitems) :
    nitems = 63 ↔ ∀ key : Key, key ∈ keys := by
  constructor
  · rintro rfl key
    apply (h.bit key).mp
    cases key <;> decide
  · intro hall
    apply Nat.eq_of_testBit_eq
    intro i
    by_cases hi : i < 6
    · obtain ⟨key, rfl⟩ := Key.exists_index hi
      rw [(h.bit key).mpr (hall key)]
      cases key <;> decide
    · have hpow : 2 ^ 6 ≤ 2 ^ i := Nat.pow_le_pow_right (by decide) (by omega)
      rw [Nat.testBit_lt_two_pow (Nat.lt_of_lt_of_le h.small hpow),
        Nat.testBit_lt_two_pow (Nat.lt_of_lt_of_le (by decide) hpow)]

/-! One line. -/

/-- The loop has come to a text, with the length of the line before. -/
structure Arrived (buffer : CString) (len : Option Nat) (text : List UInt8)
    (keys : List Key) (p : Parser) : Prop where
  position : ∃ front, buffer.bytes = front ++ text ∧ p.ptr = front.length
  len : ∀ n, len = some n → p.len = n
  seen : Seen keys p.nitems

section

variable {buffer : CString} {len : Option Nat} {text : List UInt8}
  {keys : List Key} {p : Parser}

theorem Arrived.start (buffer : CString) (garbage : Int) :
    Arrived buffer none buffer.bytes [] (.start garbage) where
  position := ⟨[], rfl, rfl⟩
  len := fun _ h => by cases h
  seen := .nil

/-- The loop at a place inside of the buffer. -/
theorem Arrived.parseLoop_succ (h : Arrived buffer len text keys p)
    (fuel : Nat) :
    parseLoop buffer (fuel + 1) p =
      if p.nitems ≠ 63 ∨ text = [] then
        parseLoop buffer fuel (readLine text p)
      else .ok p := by
  obtain ⟨front, hbytes, hptr⟩ := h.position
  have hinside : ¬ (p.ptr < 0 ∨ p.ptr > buffer.bytes.length) := by
    rw [hptr, hbytes, List.length_append]
    omega
  have htext : buffer.bytes.drop p.ptr.toNat = text := by
    rw [hptr, Int.toNat_natCast, hbytes, List.drop_left]
  rw [parseLoop, if_neg hinside, htext]

/-- The variables behind a line whose length is known. -/
theorem Arrived.readLine (h : Arrived buffer len text keys p) {n : Nat}
    (hlength : lineLength len text = some n) :
    (Meminfo.readLine text p).ptr = p.ptr + n ∧
      (Meminfo.readLine text p).len = n ∧
      Seen (keys ++ (keyRead text n).toList)
        (Meminfo.readLine text p).nitems := by
  have hlen : (sscanf text).consumed.elim p.len Int.ofNat = n := by
    rw [lineLength] at hlength
    cases hconsumed : (sscanf text).consumed with
    | none =>
        rw [hconsumed] at hlength
        exact h.len n hlength
    | some n' =>
        rw [hconsumed] at hlength
        exact congrArg Int.ofNat (Option.some.inj hlength)
  rw [Meminfo.readLine, keyRead, hlen]
  cases hvalue : (sscanf text).value with
  | none =>
      rw [if_pos (Or.inl rfl), Option.toList_none, List.append_nil]
      exact ⟨rfl, rfl, h.seen⟩
  | some value =>
      by_cases hshort : n < 8
      · have hshort' : (n : Int) < 8 := by omega
        simp only [hshort, hshort', if_true, or_true, Option.toList_none,
          List.append_nil]
        exact ⟨rfl, rfl, h.seen⟩
      · have hshort' : ¬ (n : Int) < 8 := by omega
        simp only [hshort, hshort', if_false, reduceCtorEq, or_self]
        cases keyAt text with
        | none =>
            rw [Option.toList_none, List.append_nil]
            exact ⟨rfl, rfl, h.seen⟩
        | some key => exact ⟨rfl, rfl, h.seen.add key⟩

/-- The next line begins behind a line that is not too long. -/
theorem Arrived.next {line rest : List UInt8}
    (h : Arrived buffer len (line ++ rest) keys p)
    (hlength : lineLength len (line ++ rest) = some line.length) :
    Arrived buffer (some line.length) rest
      (keys ++ (keyRead (line ++ rest) line.length).toList)
      (Meminfo.readLine (line ++ rest) p) := by
  obtain ⟨hptr, hlen, hseen⟩ := h.readLine hlength
  obtain ⟨front, hbytes, hfront⟩ := h.position
  refine ⟨⟨front ++ line, ?_, ?_⟩, fun n hn => ?_, hseen⟩
  · rw [hbytes, List.append_assoc]
  · rw [hptr, hfront, List.length_append]
    omega
  · rw [hlen]
    exact congrArg Int.ofNat (Option.some.inj hn)

/-- A line without a length, in front of all others, is read again and again
when `len` is zero. -/
theorem readLine_stuck (hlength : lineLength none text = none)
    (hzero : p.len = 0) : readLine text p = p := by
  have hconsumed : (sscanf text).consumed = none := by
    rw [lineLength, Option.or_none] at hlength
    exact hlength
  have hadvance : p.advance 0 = p := by
    rw [Parser.advance, ← hzero, Int.add_comm, hzero, Int.zero_add, ← hzero]
  rw [readLine, hconsumed]
  simp only [Option.elim_none, hzero, hadvance]
  cases (sscanf text).value with
  | none => rfl
  | some value => rfl

/-! The loop. -/

theorem Arrived.stops {rest : List UInt8} {more : List Key}
    (hlines : Lines len text more rest) (hrest : rest ≠ [])
    (h : Arrived buffer len text keys p)
    (hall : ∀ key : Key, key ∈ keys ++ more) :
    ∃ fuel p', parseLoop buffer fuel p = .ok p' := by
  induction hlines generalizing keys p with
  | stop len rest =>
      refine ⟨1, p, ?_⟩
      rw [List.append_nil] at hall
      rw [h.parseLoop_succ, if_neg]
      exact not_or.mpr ⟨not_not.mpr (h.seen.all_iff.mpr hall), hrest⟩
  | @line len line text rest more hlength _ ih =>
      rw [← List.append_assoc] at hall
      obtain ⟨fuel, p', hrun⟩ := ih hrest (h.next hlength) hall
      by_cases hstop : p.nitems ≠ 63 ∨ line ++ text = []
      · exact ⟨fuel + 1, p', by rw [h.parseLoop_succ, if_pos hstop, hrun]⟩
      · exact ⟨1, p, by rw [h.parseLoop_succ, if_neg hstop]⟩

theorem Arrived.lines {fuel : Nat} {p' : Parser}
    (h : Arrived buffer len text keys p) (hzero : len = none → p.len = 0)
    (hrun : parseLoop buffer fuel p = .ok p') :
    ∃ more rest, Lines len text more rest ∧ rest ≠ [] ∧
      ∀ key : Key, key ∈ keys ++ more := by
  induction fuel generalizing len text keys p with
  | zero => cases hrun
  | succ fuel ih =>
      rw [h.parseLoop_succ] at hrun
      by_cases hstop : p.nitems ≠ 63 ∨ text = []
      · rw [if_pos hstop] at hrun
        cases hlength : lineLength len text with
        | none =>
            have hnone : len = none := by
              rw [lineLength, Option.or_eq_none_iff] at hlength
              exact hlength.2
            subst hnone
            rw [readLine_stuck hlength (hzero rfl)] at hrun
            exact ih h hzero hrun
        | some n =>
            have hinside : n ≤ text.length := by
              by_contra hlong
              obtain ⟨hptr, _, _⟩ := h.readLine hlength
              obtain ⟨front, hbytes, hfront⟩ := h.position
              cases fuel with
              | zero => cases hrun
              | succ fuel =>
                  rw [parseLoop, if_pos] at hrun
                  · cases hrun
                  · rw [hptr, hfront, hbytes, List.length_append]
                    omega
            have hsplit := List.take_append_drop n text
            have hlength' : lineLength len (text.take n ++ text.drop n) =
                some (text.take n).length := by
              rw [hsplit, List.length_take_of_le hinside, hlength]
            rw [← hsplit] at h hrun ⊢
            obtain ⟨more, rest, hlines, hrest, hall⟩ :=
              ih (h.next hlength') (fun hnone => by cases hnone) hrun
            refine ⟨_, rest, .line hlength' hlines, hrest, fun key => ?_⟩
            rw [← List.append_assoc]
            exact hall key
      · rw [not_or, not_not] at hstop
        refine ⟨[], text, .stop len text, hstop.2, fun key => ?_⟩
        rw [List.append_nil]
        exact h.seen.all_iff.mp hstop.1 key

end

/-- The loop stays inside the buffer and returns if and only if the six keys
are met with something behind them. -/
theorem parseLoop_stops_iff (buffer : CString) :
    StopsInside buffer ↔ Complete buffer.bytes := by
  constructor
  · intro h
    obtain ⟨fuel, p, hrun⟩ := h 0
    exact (Arrived.start buffer 0).lines (fun _ => rfl) hrun
  · rintro ⟨keys, rest, hlines, hrest, hall⟩ garbage
    exact Arrived.stops hlines hrest (.start buffer garbage) hall

/-- A loop that has left the buffer does not return with more time. -/
theorem parseLoop_left {buffer : CString} {fuel : Nat} {p : Parser}
    (h : parseLoop buffer fuel p = .error .outOfBounds) (fuel' : Nat)
    (p' : Parser) : parseLoop buffer fuel' p ≠ .ok p' := by
  induction fuel generalizing p fuel' with
  | zero => cases h
  | succ fuel ih =>
      cases fuel' with
      | zero =>
          intro hrun
          cases hrun
      | succ fuel' =>
          rw [parseLoop] at h ⊢
          split
          · intro hrun
            cases hrun
          · rename_i hinside
            rw [if_neg hinside] at h
            dsimp only at h ⊢
            split
            · rename_i hnext
              rw [if_pos hnext] at h
              exact ih h fuel'
            · rename_i hstop
              rw [if_neg hstop] at h
              cases h

/-- Six lines, the first of which is `MemTotal 1 kB`. -/
def sixLines : CString :=
  CString.ofBuffer (Key.all.flatMap fun key =>
    key.text ++ [0x20, 0x31, 0x20, 0x6B, 0x42, 0x0A])

/-- At the terminator behind the sixth line the loop goes on. -/
theorem sixLines_overrun :
    parseLoop sixLines 8 (.start 0) = .error .outOfBounds ∧
      ¬ StopsInside sixLines := by
  have hleft : parseLoop sixLines 8 (.start 0) = .error .outOfBounds := by
    decide +kernel
  refine ⟨hleft, fun h => ?_⟩
  obtain ⟨fuel, p, hrun⟩ := h 0
  exact parseLoop_left hleft fuel p hrun

end QubesUtils.Meminfo
