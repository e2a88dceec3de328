/-
The buffer of `wait_for_result` for the last file name, with its index
arithmetic.  The buffer has room for every length that is announced, so that
the sender does the same with it as with the name alone.
-/
import QubesUtils.Display
import QubesUtils.Pack
import QubesUtils.ProcessTrace

namespace QubesUtils

open ByteCodec Process

/-- A `char` may have a sign. -/
inductive CharSign
  | signed
  | unsigned
deriving DecidableEq

def CharSign.value : CharSign → UInt8 → Int
  | .signed, byte => byte.toInt8.toInt
  | .unsigned, byte => byte.toNat

/-- The loop of `sanitize_remote_filename` on the buffer that it is given. -/
def sanitizeRemoteLoop (sign : CharSign) :
    Nat → Nat → List UInt8 → Except Fault (List UInt8)
  | 0, _, _ => .error .outOfFuel
  | fuel + 1, i, buffer =>
      match buffer[i]? with
      | none => .error .outOfBounds
      | some byte =>
          if byte = 0 then
            .ok buffer
          else if sign.value byte < 0x20 ∨ sign.value byte > 0x7E ∨
              sign.value byte = 0x22 then
            sanitizeRemoteLoop sign fuel (i + 1) (buffer.set i 0x5F)
          else
            sanitizeRemoteLoop sign fuel (i + 1) buffer

def sanitizeRemoteBuffer (sign : CharSign) (buffer : List UInt8) :
    Except Fault (List UInt8) :=
  sanitizeRemoteLoop sign (buffer.length + 1) 0 buffer

/-- The bytes of a `read` into `buffer + i`. -/
def storeBytes (buffer : List UInt8) (i : Nat) (bytes : List UInt8) :
    Except Fault (List UInt8) :=
  if i + bytes.length ≤ buffer.length then
    .ok (buffer.take i ++ bytes ++ buffer.drop (i + bytes.length))
  else
    .error .outOfBounds

/-- `if (got_read == 0) set_block(fd);` -/
def blockIfFirst {σ : Type} (gotRead : Nat) : Process σ Unit :=
  if gotRead = 0 then setBlock else pure ()

/-- The result of `read_all`, and the buffer afterwards. -/
structure ReadInto where
  complete : Bool
  buffer : List UInt8

/-- The loop of `read_all` with its buffer. -/
def readAllIntoLoop {σ : Type} :
    Nat → Nat → Nat → List UInt8 → Process σ ReadInto
  | 0, _, _, buffer => pure ⟨true, buffer⟩
  | fuel + 1, missing, gotRead, buffer =>
      if missing = 0 then
        pure ⟨true, buffer⟩
      else do
        retryInterrupted
        match ← read missing with
        | .eof => do
            setErrno 0
            pure ⟨false, buffer⟩
        | .error => pure ⟨false, buffer⟩
        | .data bytes => do
            blockIfFirst gotRead
            let buffer ← liftFault (storeBytes buffer gotRead bytes)
            readAllIntoLoop fuel (missing - bytes.length)
              (gotRead + bytes.length) buffer

/-- `read_all(0, buf, size)` -/
def readAllInto {σ : Type} (size : Nat) (buffer : List UInt8) :
    Process σ ReadInto :=
  readAllIntoLoop size size 0 buffer

/-- `hdr_ext.last_namelen`, or zero from a remote that does not send it. -/
def announcedNamelen : Option (List UInt8) → Nat
  | none => 0
  | some bytes => (resultHeaderExtCodec.get bytes).toNat

/-- The read of the name, its terminator, and the sanitizing. -/
def readNameInto (sign : CharSign) (lastNamelen : Nat)
    (lastFilename : List UInt8) : Pack (List UInt8) := do
  let result ← readAllInto lastNamelen lastFilename
  let lastNamelen := if result.complete then lastNamelen else 0
  let lastFilename ← liftFault (storeByte result.buffer lastNamelen 0)
  let lastFilename ← liftFault (sanitizeRemoteBuffer sign lastFilename)
  return (CString.ofBuffer lastFilename).bytes

/-- The part of `wait_for_result` about `char last_filename[]`. -/
def readLastFilenameInto (sign : CharSign) (lastFilename : List UInt8) :
    Pack (List UInt8) := do
  let ext ← readAll resultHeaderExtCodec.width
  let lastNamelen := announcedNamelen ext
  readNameInto sign
    (if lastNamelen > MAX_PATH_LENGTH then MAX_PATH_LENGTH else lastNamelen)
    lastFilename

/-- `wait_for_result` -/
def waitForResultInto (ignoreQuotaError : Bool) (sign : CharSign)
    (lastFilename : List UInt8) : Pack Unit := do
  match ← readAll resultHeaderCodec.width with
  | none => do
      let w ← get
      if w.errno = UInt32.ofNat EAGAIN then
        pure ()
      else
        throw (.exit 1)
  | some bytes => do
      let lastFilename ← readLastFilenameInto sign lastFilename
      setErrno (resultHeaderCodec.get bytes).errorCode
      judgeResult ignoreQuotaError (resultHeaderCodec.get bytes) lastFilename

/-! The loop over the name. -/

/-- The byte that is shown. -/
def shownByte (byte : UInt8) : UInt8 :=
  if byte < 0x20 ∨ byte > 0x7E ∨ byte = 0x22 then 0x5F else byte

theorem sanitizeRemoteFilename_eq (name : List UInt8) :
    sanitizeRemoteFilename name = name.map shownByte :=
  rfl

/-- The sign does not matter. -/
theorem CharSign.replaces_iff (sign : CharSign) (byte : UInt8) :
    (sign.value byte < 0x20 ∨ sign.value byte > 0x7E ∨
      sign.value byte = 0x22) ↔
        (byte < 0x20 ∨ byte > 0x7E ∨ byte = 0x22) := by
  have hlt := byte.toNat_lt
  rw [UInt8.lt_iff_toNat_lt, gt_iff_lt, gt_iff_lt, UInt8.lt_iff_toNat_lt,
    ← UInt8.toNat_inj]
  simp only [UInt8.reduceToNat]
  cases sign with
  | unsigned =>
      rw [CharSign.value]
      omega
  | signed =>
      have hsigned : byte.toInt8.toInt =
          if 2 * byte.toNat < 256 then (byte.toNat : Int)
            else (byte.toNat : Int) - 256 :=
        BitVec.toInt_eq_toNat_cond byte.toBitVec
      rw [CharSign.value, hsigned]
      split
      · omega
      · omega

theorem shownByte_ne_zero {byte : UInt8} (hbyte : byte ≠ 0) :
    shownByte byte ≠ 0 := by
  rw [shownByte]
  split
  · decide
  · exact hbyte

/-- The loop goes over the bytes in front of the first NUL. -/
theorem sanitizeRemoteLoop_eq (sign : CharSign) (name : List UInt8) :
    ∀ (fuel : Nat) (done rest : List UInt8), (0 : UInt8) ∉ name →
      name.length < fuel →
        sanitizeRemoteLoop sign fuel done.length
            (done ++ (name ++ 0 :: rest)) =
          .ok (done ++ (name.map shownByte ++ 0 :: rest)) := by
  induction name with
  | nil =>
      intro fuel done rest _ hfuel
      obtain ⟨fuel, rfl⟩ := Nat.exists_eq_succ_of_ne_zero
        (Nat.ne_zero_of_lt hfuel)
      rw [sanitizeRemoteLoop]
      simp
  | cons byte name ih =>
      intro fuel done rest hnul hfuel
      obtain ⟨fuel, rfl⟩ := Nat.exists_eq_succ_of_ne_zero
        (Nat.ne_zero_of_lt hfuel)
      have hbyte : byte ≠ 0 := fun hzero => hnul (by simp [hzero])
      have hread : (done ++ (byte :: name ++ 0 :: rest))[done.length]? =
          some byte := by simp
      have hnext := ih fuel (done ++ [shownByte byte]) rest
        (fun hmem => hnul (List.mem_cons_of_mem _ hmem))
        (Nat.lt_of_succ_lt_succ hfuel)
      rw [List.length_append, List.length_singleton] at hnext
      rw [sanitizeRemoteLoop, hread]
      simp only
      rw [if_neg hbyte]
      by_cases hreplaced : byte < 0x20 ∨ byte > 0x7E ∨ byte = 0x22
      · have hshown : shownByte byte = 0x5F := if_pos hreplaced
        have hset : (done ++ (byte :: name ++ 0 :: rest)).set done.length
            0x5F = (done ++ [shownByte byte]) ++ (name ++ 0 :: rest) := by
          simp [hshown]
        rw [if_pos ((sign.replaces_iff byte).mpr hreplaced), hset, hnext]
        simp
      · have hshown : shownByte byte = byte := if_neg hreplaced
        have hsame : done ++ (byte :: name ++ 0 :: rest) =
            (done ++ [shownByte byte]) ++ (name ++ 0 :: rest) := by
          simp [hshown]
        rw [if_neg fun h => hreplaced ((sign.replaces_iff byte).mp h),
          hsame, hnext]
        simp

/-- What is shown of a buffer with a terminator. -/
theorem sanitizeRemoteBuffer_text (sign : CharSign) (all rest : List UInt8) :
    ∃ buffer, sanitizeRemoteBuffer sign (all ++ 0 :: rest) = .ok buffer ∧
      (CString.ofBuffer buffer).bytes =
        sanitizeRemoteFilename (CString.ofBuffer all).bytes := by
  obtain ⟨rest', hsplit⟩ := CString.ofBuffer_split all rest
  have hnul := (CString.ofBuffer all).noNul
  generalize (CString.ofBuffer all).bytes = name at hsplit hnul
  have hshown : (0 : UInt8) ∉ name.map shownByte := by
    intro hmem
    obtain ⟨byte, hbyte, hzero⟩ := List.mem_map.mp hmem
    exact shownByte_ne_zero (fun h => hnul (h ▸ hbyte)) hzero
  have hrun := sanitizeRemoteLoop_eq sign name
    ((name ++ 0 :: rest').length + 1) [] rest' hnul
    (by rw [List.length_append]; omega)
  rw [sanitizeRemoteBuffer, hsplit]
  exact ⟨_, hrun, CString.ofBuffer_bytes hshown rest'⟩

/-! The reads into the buffer. -/

/-- A read returns, and gets no more than it is asked for. -/
theorem read_returns {σ : Type} {count : Nat} (hcount : 0 < count)
    (w : World σ) :
    ∃ result w', (read count).run w = .ok result w' ∧
      ∀ bytes, result = .data bytes →
        0 < bytes.length ∧ bytes.length ≤ count := by
  obtain ⟨result, w', hrun, hmore⟩ := Hoare.Triple.exists_ok
    (@read_heard σ (fun _ _ => False) w [] count hcount) (Listening.start w)
  refine ⟨result, w', hrun, ?_⟩
  rintro bytes rfl
  exact ⟨hmore.1, hmore.2.1⟩

theorem blockIfFirst_eq {σ : Type} (got : List UInt8) :
    (blockIfFirst got.length : Process σ Unit) = blockAfterFirst got := by
  rw [blockIfFirst, blockAfterFirst]
  simp only [List.length_eq_zero_iff]

theorem storeBytes_append (got room bytes : List UInt8)
    (hlength : bytes.length ≤ room.length) :
    storeBytes (got ++ room) got.length bytes =
      .ok ((got ++ bytes) ++ room.drop bytes.length) := by
  rw [storeBytes, if_pos (by rw [List.length_append]; omega),
    List.take_left, List.drop_append]
  simp

/-- The buffer that a read leaves: what was got, at its front, if the read is
complete. -/
def Received (size : Nat) (room : List UInt8) :
    Option (List UInt8) → ReadInto → Prop
  | none, into => into.complete = false ∧ into.buffer.length = room.length
  | some all, into => into.complete = true ∧ all.length = size ∧
      into.buffer = all ++ room.drop size

theorem Received.congr {size : Nat} {room room' : List UInt8}
    {result : Option (List UInt8)} {into : ReadInto}
    (h : Received size room result into) (hlength : room.length = room'.length)
    (hdrop : room.drop size = room'.drop size) :
    Received size room' result into := by
  cases result with
  | none => exact ⟨h.1, h.2.trans hlength⟩
  | some all => exact ⟨h.1, h.2.1, hdrop ▸ h.2.2⟩

/-- Reading into a buffer with room is reading. -/
theorem readAllIntoLoop_run {σ : Type} (fuel : Nat) :
    ∀ (w : World σ) (missing : Nat) (got room : List UInt8),
      missing ≤ fuel → missing ≤ room.length →
        ∃ result into w', (readAllLoop fuel missing got).run w =
            .ok result w' ∧
          (readAllIntoLoop fuel missing got.length (got ++ room)).run w =
            .ok into w' ∧
          Received (got.length + missing) (got ++ room) result into := by
  induction fuel with
  | zero =>
      intro w missing got room hfuel _
      obtain rfl := Nat.le_zero.mp hfuel
      refine ⟨_, _, w, rfl, rfl, rfl, rfl, ?_⟩
      simp
  | succ fuel ih =>
      intro w missing got room hfuel hroom
      rw [readAllLoop, readAllIntoLoop]
      by_cases hmissing : missing = 0
      · subst hmissing
        refine ⟨_, _, w, rfl, rfl, rfl, rfl, ?_⟩
        simp
      rw [if_neg hmissing, if_neg hmissing]
      obtain ⟨w₁, hretry⟩ : ∃ w₁, (retryInterrupted : Process σ Unit).run w =
          .ok () w₁ := ⟨_, rfl⟩
      obtain ⟨result, w₂, hread, hbytes⟩ :=
        read_returns (Nat.pos_of_ne_zero hmissing) w₁
      rw [EStateM.run_bind, EStateM.run_bind, hretry]
      simp only
      rw [EStateM.run_bind, EStateM.run_bind, hread]
      cases result with
      | eof => exact ⟨_, _, _, rfl, rfl, rfl, rfl⟩
      | error => exact ⟨_, _, _, rfl, rfl, rfl, rfl⟩
      | data bytes =>
          obtain ⟨hpos, hcount⟩ := hbytes bytes rfl
          simp only
          obtain ⟨w₃, hblock⟩ : ∃ w₃,
              (blockAfterFirst got : Process σ Unit).run w₂ = .ok () w₃ := by
            rw [blockAfterFirst]
            split
            · exact ⟨_, rfl⟩
            · exact ⟨_, rfl⟩
          rw [blockIfFirst_eq, EStateM.run_bind, EStateM.run_bind, hblock]
          simp only
          rw [storeBytes_append _ _ _ (Nat.le_trans hcount hroom)]
          obtain ⟨result, into, w₄, hrun, hinto, hreceived⟩ := ih w₃
            (missing - bytes.length) (got ++ bytes) (room.drop bytes.length)
            (by omega) (by rw [List.length_drop]; omega)
          rw [List.length_append] at hinto
          refine ⟨result, into, w₄, hrun, hinto, ?_⟩
          have htotal : (got ++ bytes).length + (missing - bytes.length) =
              got.length + missing := by
            rw [List.length_append]
            omega
          rw [htotal] at hreceived
          refine hreceived.congr ?_ ?_
          · rw [List.length_append, List.length_append, List.length_append,
              List.length_drop]
            omega
          · rw [← htotal, List.drop_length_add_append, htotal,
              List.drop_length_add_append, List.drop_drop,
              Nat.add_sub_cancel' hcount]

theorem readAllInto_run {σ : Type} (w : World σ) (size : Nat)
    (buffer : List UInt8) (hroom : size ≤ buffer.length) :
    ∃ result into w', (readAll size).run w = .ok result w' ∧
      (readAllInto size buffer).run w = .ok into w' ∧
      Received size buffer result into := by
  obtain ⟨result, into, w', hrun, hinto, hreceived⟩ :=
    readAllIntoLoop_run size w size [] buffer (Nat.le_refl _) hroom
  rw [List.length_nil, Nat.zero_add] at hreceived
  exact ⟨result, into, w', hrun, hinto, hreceived⟩

theorem readAll_returns {σ : Type} (w : World σ) (size : Nat) :
    ∃ result w', (readAll size).run w = .ok result w' := by
  obtain ⟨result, _, w', hrun, _⟩ := readAllInto_run w size
    (List.replicate size 0) (Nat.le_of_eq List.length_replicate.symm)
  exact ⟨result, w', hrun⟩

/-- Terminating and sanitizing the buffer gives the name that was read. -/
theorem Received.shown {size : Nat} {buffer : List UInt8}
    {result : Option (List UInt8)} {into : ReadInto}
    (h : Received size buffer result into) (hroom : size < buffer.length)
    (sign : CharSign) :
    ∃ terminated shown, storeByte into.buffer
        (if into.complete then size else 0) 0 = .ok terminated ∧
      sanitizeRemoteBuffer sign terminated = .ok shown ∧
      (CString.ofBuffer shown).bytes =
        sanitizeRemoteFilename (CString.ofBuffer (result.getD [])).bytes := by
  cases result with
  | none =>
      obtain ⟨hcomplete, hlength⟩ := h
      obtain ⟨old, rest, hbuffer⟩ := List.exists_cons_of_length_pos
        (by omega : 0 < into.buffer.length)
      obtain ⟨shown, hshown, htext⟩ := sanitizeRemoteBuffer_text sign [] rest
      refine ⟨0 :: rest, shown, ?_, hshown, htext⟩
      rw [hcomplete, hbuffer]
      exact storeByte_append [] rest old 0
  | some all =>
      obtain ⟨hcomplete, rfl, hbuffer⟩ := h
      obtain ⟨old, rest, hdrop⟩ := List.exists_cons_of_length_pos
        (by rw [List.length_drop]; omega :
          0 < (buffer.drop all.length).length)
      obtain ⟨shown, hshown, htext⟩ := sanitizeRemoteBuffer_text sign all rest
      refine ⟨all ++ 0 :: rest, shown, ?_, hshown, htext⟩
      rw [hcomplete, hbuffer, hdrop, if_pos rfl, storeByte_append]
      simp

theorem clamp_eq_min (announced : Nat) :
    (if announced > MAX_PATH_LENGTH then MAX_PATH_LENGTH else announced) =
      min announced MAX_PATH_LENGTH := by
  split
  · omega
  · omega

theorem readNameInto_run (w : World Packer) (sign : CharSign)
    {lastNamelen : Nat} {lastFilename : List UInt8}
    (hroom : lastNamelen < lastFilename.length) :
    ∃ last w', (readAll lastNamelen).run w = .ok last w' ∧
      (readNameInto sign lastNamelen lastFilename).run w =
        .ok (sanitizeRemoteFilename
          (CString.ofBuffer (last.getD [])).bytes) w' := by
  obtain ⟨last, into, w', hrun, hinto, hreceived⟩ :=
    readAllInto_run w lastNamelen lastFilename (Nat.le_of_lt hroom)
  obtain ⟨terminated, shown, hstore, hsanitize, htext⟩ :=
    hreceived.shown hroom sign
  refine ⟨last, w', hrun, ?_⟩
  rw [readNameInto, EStateM.run_bind, hinto]
  simp only
  rw [hstore, EStateM.run_bind]
  simp only [liftFault, EStateM.run_pure]
  rw [hsanitize, ← htext]
  rfl

/-- The two reads of `readLastFilename`. -/
theorem readLastFilename_run {w w₁ w₂ : World Packer}
    {ext last : Option (List UInt8)}
    (hext : (readAll resultHeaderExtCodec.width).run w = .ok ext w₁)
    (hlast : (readAll (min (announcedNamelen ext) MAX_PATH_LENGTH)).run w₁ =
      .ok last w₂) :
    readLastFilename.run w = .ok (sanitizeRemoteFilename
      (CString.ofBuffer (last.getD [])).bytes) w₂ := by
  rw [readLastFilename, EStateM.run_bind, hext]
  cases ext with
  | none =>
      rw [announcedNamelen, Nat.zero_min] at hlast
      simp only
      rw [EStateM.run_bind, hlast]
      rfl
  | some bytes =>
      rw [announcedNamelen] at hlast
      simp only
      rw [EStateM.run_bind, hlast]
      rfl

/-- With room for the longest name and a terminator, the buffer is as good as
the name. -/
theorem readLastFilenameInto_eq (sign : CharSign) (lastFilename : List UInt8)
    (hsize : lastFilename.length = MAX_PATH_LENGTH + 1) :
    readLastFilenameInto sign lastFilename = readLastFilename := by
  funext w
  change (readLastFilenameInto sign lastFilename).run w =
    readLastFilename.run w
  obtain ⟨ext, w₁, hext⟩ := readAll_returns w resultHeaderExtCodec.width
  obtain ⟨last, w₂, hlast, hinto⟩ := @readNameInto_run w₁ sign
    (min (announcedNamelen ext) MAX_PATH_LENGTH) lastFilename (by omega)
  rw [readLastFilename_run hext hlast, readLastFilenameInto,
    EStateM.run_bind, hext]
  simp only [clamp_eq_min]
  exact hinto

/-- No index of the buffer is out of bounds, whatever arrives, and the sign
of a `char` makes no difference. -/
theorem waitForResultInto_eq (ignoreQuotaError : Bool) (sign : CharSign)
    (lastFilename : List UInt8)
    (hsize : lastFilename.length = MAX_PATH_LENGTH + 1) :
    waitForResultInto ignoreQuotaError sign lastFilename =
      waitForResult ignoreQuotaError := by
  funext w
  change (waitForResultInto ignoreQuotaError sign lastFilename).run w =
    (waitForResult ignoreQuotaError).run w
  obtain ⟨result, w₁, hrun⟩ := readAll_returns w resultHeaderCodec.width
  rw [waitForResultInto, waitForResult, EStateM.run_bind, EStateM.run_bind,
    hrun]
  cases result with
  | none => rfl
  | some bytes =>
      exact congrArg (fun readName : Pack (List UInt8) => (do
        let lastFilename ← readName
        setErrno (resultHeaderCodec.get bytes).errorCode
        judgeResult ignoreQuotaError (resultHeaderCodec.get bytes)
          lastFilename : Pack Unit).run w₁)
        (readLastFilenameInto_eq sign lastFilename hsize)

end QubesUtils
