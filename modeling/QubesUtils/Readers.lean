/-
Two readers of Python on a stream that arrives in chunks: a buffered reader,
which waits in its calls, and a reader of `asyncio`, which has a limit for its
lines.  What they return is a matter of the bytes and not of the chunks.
-/
import Mathlib.Data.List.TakeDrop
import Mathlib.Data.List.Infix

namespace QubesUtils.Readers

def newline : UInt8 := 0x0A

/-- What arrives at once; nothing at all is the end of the stream. -/
abbrev Chunk := { chunk : List UInt8 // chunk ≠ [] }

def joined (chunks : List Chunk) : List UInt8 :=
  (chunks.map Subtype.val).flatten

/-- The first line, with its newline if it has one. -/
def lineOf : List UInt8 → List UInt8
  | [] => []
  | byte :: rest => if byte = newline then [byte] else byte :: lineOf rest

section

variable {left text : List UInt8}

theorem lineOf_front (text : List UInt8) : lineOf text <+: text := by
  induction text with
  | nil => exact List.prefix_rfl
  | cons byte rest ih =>
      rw [lineOf]
      split
      · exact ⟨rest, rfl⟩
      · exact (List.prefix_cons_inj byte).mpr ih

theorem lineOf_of_free (h : newline ∉ text) : lineOf text = text := by
  induction text with
  | nil => rfl
  | cons byte rest ih =>
      rw [List.mem_cons, not_or] at h
      rw [lineOf, if_neg (Ne.symm h.1), ih h.2]

/-- A line that has its newline does not change with what is behind. -/
theorem lineOf_append_of_mem (h : newline ∈ left) (right : List UInt8) :
    lineOf (left ++ right) = lineOf left := by
  induction left with
  | nil => exact absurd h List.not_mem_nil
  | cons byte rest ih =>
      rw [List.cons_append, lineOf, lineOf]
      by_cases hbyte : byte = newline
      · rw [if_pos hbyte, if_pos hbyte]
      · rw [if_neg hbyte, if_neg hbyte]
        rcases List.mem_cons.mp h with heq | h
        · exact absurd heq.symm hbyte
        · rw [ih h]

theorem lineOf_newline (h : newline ∉ left) (right : List UInt8) :
    lineOf (left ++ newline :: right) = left ++ [newline] := by
  induction left with
  | nil => simp [lineOf]
  | cons byte rest ih =>
      rw [List.mem_cons, not_or] at h
      rw [List.cons_append, lineOf, if_neg (Ne.symm h.1), ih h.2]
      rfl

/-- A line that is longer than some bytes goes on behind them. -/
theorem lineOf_append_of_free (h : newline ∉ left) (right : List UInt8) :
    lineOf (left ++ right) = left ++ lineOf right := by
  induction left with
  | nil => rfl
  | cons byte rest ih =>
      rw [List.mem_cons, not_or] at h
      rw [List.cons_append, lineOf, if_neg (Ne.symm h.1), ih h.2]
      rfl

/-- A text has its newline in its first line. -/
theorem newline_mem_lineOf (h : newline ∈ text) : newline ∈ lineOf text := by
  induction text with
  | nil => exact h
  | cons byte rest ih =>
      rw [lineOf]
      split
      · rename_i hbyte
        rw [hbyte]
        exact List.mem_cons_self
      · rename_i hbyte
        rcases List.mem_cons.mp h with heq | h
        · exact absurd heq.symm hbyte
        · exact List.mem_cons_of_mem _ (ih h)

end

/-! A buffered reader. -/

structure BufferedReader where
  buffer : List UInt8
  chunks : List Chunk

namespace BufferedReader

/-- What has not been read yet. -/
def content (stream : BufferedReader) : List UInt8 :=
  stream.buffer ++ joined stream.chunks

/-- `readline(limit)`: up to a newline, a number of bytes or the end. -/
def readline (limit : Nat) : List UInt8 → List Chunk →
    List UInt8 × BufferedReader
  | buffer, [] =>
      (lineOf (buffer.take limit),
        ⟨buffer.drop (lineOf (buffer.take limit)).length, []⟩)
  | buffer, chunk :: chunks =>
      if newline ∈ buffer.take limit ∨ limit ≤ buffer.length then
        (lineOf (buffer.take limit),
          ⟨buffer.drop (lineOf (buffer.take limit)).length, chunk :: chunks⟩)
      else readline limit (buffer ++ chunk.val) chunks

/-- `read(count)`: a number of bytes, or all there are. -/
def read (count : Nat) : List UInt8 → List Chunk → List UInt8 × BufferedReader
  | buffer, [] => (buffer.take count, ⟨buffer.drop count, []⟩)
  | buffer, chunk :: chunks =>
      if count ≤ buffer.length then
        (buffer.take count, ⟨buffer.drop count, chunk :: chunks⟩)
      else read count (buffer ++ chunk.val) chunks

end BufferedReader

section

variable {limit count : Nat} {buffer : List UInt8} {chunks : List Chunk}

theorem joined_cons (chunk : Chunk) (chunks : List Chunk) :
    joined (chunk :: chunks) = chunk.val ++ joined chunks :=
  rfl

theorem BufferedReader.readline_eq (limit : Nat) (buffer : List UInt8)
    (chunks : List Chunk) :
    (readline limit buffer chunks).1 =
        lineOf ((buffer ++ joined chunks).take limit) ∧
      (readline limit buffer chunks).2.content =
        (buffer ++ joined chunks).drop (readline limit buffer chunks).1.length := by
  induction chunks generalizing buffer with
  | nil =>
      rw [readline, joined, List.map_nil, List.flatten_nil, List.append_nil]
      exact ⟨rfl, List.append_nil _⟩
  | cons chunk chunks ih =>
      rw [readline]
      split
      · rename_i hstop
        have hline : lineOf ((buffer ++ joined (chunk :: chunks)).take limit) =
            lineOf (buffer.take limit) := by
          rw [List.take_append]
          rcases hstop with hmem | hlong
          · exact lineOf_append_of_mem hmem _
          · rw [Nat.sub_eq_zero_of_le hlong, List.take_zero, List.append_nil]
        have hshort : (lineOf (buffer.take limit)).length ≤ buffer.length :=
          ((lineOf_front _).trans (List.take_prefix limit buffer)).length_le
        refine ⟨hline.symm, ?_⟩
        rw [List.drop_append_of_le_length hshort]
        rfl
      · rw [joined_cons, ← List.append_assoc]
        exact ih (buffer ++ chunk.val)

theorem BufferedReader.read_eq (count : Nat) (buffer : List UInt8)
    (chunks : List Chunk) :
    (read count buffer chunks).1 = (buffer ++ joined chunks).take count ∧
      (read count buffer chunks).2.content =
        (buffer ++ joined chunks).drop count := by
  induction chunks generalizing buffer with
  | nil =>
      rw [read, joined, List.map_nil, List.flatten_nil, List.append_nil]
      exact ⟨rfl, List.append_nil _⟩
  | cons chunk chunks ih =>
      rw [read]
      split
      · rename_i hlong
        rw [List.take_append_of_le_length hlong,
          List.drop_append_of_le_length hlong]
        exact ⟨rfl, rfl⟩
      · rw [joined_cons, ← List.append_assoc]
        exact ih (buffer ++ chunk.val)

end

/-! A reader of `asyncio`. -/

structure StreamReader where
  limit : Nat
  buffer : List UInt8
  chunks : List Chunk

/-- `LimitOverrunError`, and `IncompleteReadError` with what was there. -/
inductive ReadError
  | limitOverrun (consumed : Nat)
  | incompleteRead (incomplete : List UInt8)
deriving DecidableEq

namespace StreamReader

def content (reader : StreamReader) : List UInt8 :=
  reader.buffer ++ joined reader.chunks

/-- `readuntil(b'\n')` -/
def readuntil (limit : Nat) : List UInt8 → List Chunk →
    Except ReadError (List UInt8 × StreamReader)
  | buffer, chunks =>
      if newline ∈ buffer then
        if (lineOf buffer).length > limit + 1 then
          .error (.limitOverrun ((lineOf buffer).length - 1))
        else
          .ok (lineOf buffer,
            ⟨limit, buffer.drop (lineOf buffer).length, chunks⟩)
      else if buffer.length > limit then
        .error (.limitOverrun buffer.length)
      else
        match chunks with
        | [] => .error (.incompleteRead buffer)
        | chunk :: chunks => readuntil limit (buffer ++ chunk.val) chunks

/-- `readline()`: the last line may be without a newline. -/
def readline (reader : StreamReader) :
    Except ReadError (List UInt8 × StreamReader) :=
  match readuntil reader.limit reader.buffer reader.chunks with
  | .ok result => .ok result
  | .error (.incompleteRead incomplete) =>
      .ok (incomplete, ⟨reader.limit, [], []⟩)
  | .error (.limitOverrun consumed) => .error (.limitOverrun consumed)

/-- `readexactly(count)` -/
def readexactly (limit count : Nat) : List UInt8 → List Chunk →
    Except ReadError (List UInt8 × StreamReader)
  | buffer, [] =>
      if buffer.length < count then .error (.incompleteRead buffer)
      else .ok (buffer.take count, ⟨limit, buffer.drop count, []⟩)
  | buffer, chunk :: chunks =>
      if buffer.length < count then
        readexactly limit count (buffer ++ chunk.val) chunks
      else .ok (buffer.take count, ⟨limit, buffer.drop count, chunk :: chunks⟩)

end StreamReader

section

variable {limit count : Nat} {buffer line : List UInt8} {chunks : List Chunk}
  {reader r : StreamReader}

theorem joined_nil : joined [] = [] :=
  rfl

/-- What is returned is the first line, or all that is left without one. -/
theorem StreamReader.readuntil_ok
    (h : readuntil limit buffer chunks = .ok (line, r)) :
    newline ∈ buffer ++ joined chunks ∧
      line = lineOf (buffer ++ joined chunks) ∧
      r.content = (buffer ++ joined chunks).drop line.length := by
  induction chunks generalizing buffer with
  | nil =>
      rw [readuntil] at h
      split at h
      · rename_i hmem
        split at h
        · cases h
        · cases h
          rw [joined_nil, List.append_nil]
          exact ⟨hmem, rfl, List.append_nil _⟩
      · split at h
        · cases h
        · cases h
  | cons chunk chunks ih =>
      rw [readuntil] at h
      split at h
      · rename_i hmem
        split at h
        · cases h
        · cases h
          rw [lineOf_append_of_mem hmem,
            List.drop_append_of_le_length (lineOf_front _).length_le]
          exact ⟨List.mem_append_left _ hmem, rfl, rfl⟩
      · split at h
        · cases h
        · rw [joined_cons, ← List.append_assoc]
          exact ih h

theorem StreamReader.readuntil_incomplete {incomplete : List UInt8}
    (h : readuntil limit buffer chunks = .error (.incompleteRead incomplete)) :
    newline ∉ buffer ++ joined chunks ∧
      incomplete = buffer ++ joined chunks := by
  induction chunks generalizing buffer with
  | nil =>
      rw [readuntil] at h
      split at h
      · split at h
        · cases h
        · cases h
      · rename_i hfree
        split at h
        · cases h
        · cases h
          rw [joined_nil, List.append_nil]
          exact ⟨hfree, rfl⟩
  | cons chunk chunks ih =>
      rw [readuntil] at h
      split at h
      · split at h
        · cases h
        · cases h
      · split at h
        · cases h
        · rw [joined_cons, ← List.append_assoc]
          exact ih h

theorem StreamReader.readline_ok (h : reader.readline = .ok (line, r)) :
    line = lineOf reader.content ∧
      r.content = reader.content.drop line.length := by
  rw [readline] at h
  split at h
  · rename_i result hresult
    cases h
    exact (readuntil_ok hresult).2
  · rename_i incomplete hincomplete
    obtain ⟨hfree, hall⟩ := readuntil_incomplete hincomplete
    cases h
    rw [content, content, lineOf_of_free hfree, hall, List.drop_length]
    exact ⟨rfl, rfl⟩
  · cases h

/-- A line within the limit is returned. -/
theorem StreamReader.readuntil_short
    (hmem : newline ∈ buffer ++ joined chunks)
    (hshort : (lineOf (buffer ++ joined chunks)).length ≤ limit + 1) :
    ∃ result, readuntil limit buffer chunks = .ok result := by
  induction chunks generalizing buffer with
  | nil =>
      rw [joined_nil, List.append_nil] at hmem hshort
      rw [readuntil, if_pos hmem, if_neg (Nat.not_lt.mpr hshort)]
      exact ⟨_, rfl⟩
  | cons chunk chunks ih =>
      rw [readuntil]
      by_cases hfirst : newline ∈ buffer
      · rw [lineOf_append_of_mem hfirst] at hshort
        rw [if_pos hfirst, if_neg (Nat.not_lt.mpr hshort)]
        exact ⟨_, rfl⟩
      · have hlonger : buffer.length < limit + 1 := by
          rw [lineOf_append_of_free hfirst, List.length_append] at hshort
          have hrest : newline ∈ joined (chunk :: chunks) :=
            (List.mem_append.mp hmem).resolve_left hfirst
          have hpos := List.length_pos_of_mem (newline_mem_lineOf hrest)
          omega
        rw [if_neg hfirst, if_neg (Nat.not_lt.mpr (Nat.le_of_lt_succ hlonger))]
        rw [joined_cons, ← List.append_assoc] at hmem hshort
        exact ih hmem hshort

theorem StreamReader.readline_short (hmem : newline ∈ reader.content)
    (hshort : (lineOf reader.content).length ≤ reader.limit + 1) :
    ∃ result, reader.readline = .ok result := by
  obtain ⟨result, hresult⟩ := readuntil_short hmem hshort
  rw [readline, hresult]
  exact ⟨result, rfl⟩

theorem StreamReader.readexactly_ok {data : List UInt8}
    (h : readexactly limit count buffer chunks = .ok (data, r)) :
    count ≤ (buffer ++ joined chunks).length ∧
      data = (buffer ++ joined chunks).take count ∧
      r.content = (buffer ++ joined chunks).drop count := by
  induction chunks generalizing buffer with
  | nil =>
      rw [readexactly] at h
      split at h
      · cases h
      · rename_i hlong
        cases h
        rw [joined_nil, List.append_nil]
        exact ⟨Nat.not_lt.mp hlong, rfl, List.append_nil _⟩
  | cons chunk chunks ih =>
      rw [readexactly] at h
      split at h
      · rw [joined_cons, ← List.append_assoc]
        exact ih h
      · rename_i hlong
        cases h
        have hle := Nat.not_lt.mp hlong
        rw [List.take_append_of_le_length hle,
          List.drop_append_of_le_length hle, List.length_append]
        exact ⟨Nat.le_add_right_of_le hle, rfl, rfl⟩

theorem StreamReader.readexactly_enough
    (h : count ≤ (buffer ++ joined chunks).length) :
    ∃ result, readexactly limit count buffer chunks = .ok result := by
  induction chunks generalizing buffer with
  | nil =>
      rw [joined_nil, List.append_nil] at h
      rw [readexactly, if_neg (Nat.not_lt.mpr h)]
      exact ⟨_, rfl⟩
  | cons chunk chunks ih =>
      rw [readexactly]
      split
      · rw [joined_cons, ← List.append_assoc] at h
        exact ih h
      · exact ⟨_, rfl⟩

end

end QubesUtils.Readers
