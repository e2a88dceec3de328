/-
Both ways to read an image accept the same streams, those of one language, and
leave the same bytes.
-/
import QubesUtils.ImageStream
import QubesUtils.Results

namespace QubesUtils.Imgconverter

open Numeral CNumber Readers

/-! The header. -/

/-- A header of two numerals. -/
structure Header (width height : List UInt8) : Prop where
  digits : AllDigits 10 width
  digits' : AllDigits 10 height
  nonempty : width ≠ []
  nonempty' : height ≠ []

def headerText (width height : List UInt8) : List UInt8 :=
  width ++ space :: (height ++ [newline])

/-! Conversions. -/

theorem str_ok_iff {n : Nat} {text : List UInt8} :
    str n = .ok text ↔
      (write 10 n).length ≤ maxStrDigits ∧ text = write 10 n := by
  rw [str]
  split
  · rename_i hlong
    exact ⟨nofun, fun h => absurd h.1 (Nat.not_le.mpr hlong)⟩
  · rename_i hshort
    rw [Except.ok.injEq]
    exact ⟨fun h => ⟨Nat.le_of_not_lt hshort, h.symm⟩, fun h => h.2.symm⟩

theorem int_ok_iff {text : List UInt8} {n : Nat} :
    int text = .ok n ↔ text.length ≤ maxStrDigits ∧ n = value 10 text := by
  rw [int]
  split
  · rename_i hlong
    exact ⟨nofun, fun h => absurd h.1 (Nat.not_le.mpr hlong)⟩
  · rename_i hshort
    rw [Except.ok.injEq]
    exact ⟨fun h => ⟨Nat.le_of_not_lt hshort, h.symm⟩, fun h => h.2.symm⟩

theorem imghdrlen_ok_iff {w h length : Nat} :
    imghdrlen w h = .ok length ↔
      (write 10 w).length ≤ maxStrDigits ∧
      (write 10 h).length ≤ maxStrDigits ∧
      length = (write 10 w).length + (write 10 h).length + 2 := by
  rw [imghdrlen, bind_eq_ok]
  simp only [bind_eq_ok, str_ok_iff]
  constructor
  · rintro ⟨_, ⟨hw, rfl⟩, _, ⟨hh, rfl⟩, hlength⟩
    exact ⟨hw, hh, (Except.ok.inj hlength).symm⟩
  · rintro ⟨hw, hh, rfl⟩
    exact ⟨_, ⟨hw, rfl⟩, _, ⟨hh, rfl⟩, rfl⟩

section

variable {width height header rest : List UInt8}

theorem not_digit : isDigit 10 space = false ∧ isDigit 10 newline = false := by
  decide

theorem not_space {text : List UInt8} (h : AllDigits 10 text) :
    ∀ byte ∈ text, isSpace byte = false :=
  fun byte hbyte =>
    (not_space_of_digit (isDigit_mono (by decide) (h byte hbyte))).1

theorem newline_not_mem {text : List UInt8} (h : AllDigits 10 text) :
    newline ∉ text :=
  fun hmem => absurd (h newline hmem) (by decide)

theorem takeWhile_before {text : List UInt8} (h : AllDigits 10 text)
    {byte : UInt8} (hbyte : isDigit 10 byte = false) :
    (text ++ byte :: rest).takeWhile (isDigit 10) = text ∧
      (text ++ byte :: rest).dropWhile (isDigit 10) = byte :: rest := by
  rw [List.takeWhile_append_of_pos h, List.dropWhile_append_of_pos h,
    List.takeWhile_cons_of_neg (by simp [hbyte]),
    List.dropWhile_cons_of_neg (by simp [hbyte]), List.append_nil]
  exact ⟨rfl, rfl⟩

theorem reImghdr_iff (hend : newline ∉ header.dropLast) :
    reImghdr header = true ↔
      ∃ width height, Header width height ∧ header = headerText width height := by
  constructor
  · intro h
    rw [reImghdr] at h
    have hsplit := @List.takeWhile_append_dropWhile _ (isDigit 10) header
    cases hbehind : header.dropWhile (isDigit 10) with
    | nil =>
        rw [hbehind] at h
        cases h
    | cons byte rest =>
        rw [hbehind] at h hsplit
        simp only [Bool.and_eq_true, Bool.not_eq_true', List.isEmpty_eq_false_iff,
          beq_iff_eq, Bool.or_eq_true] at h
        obtain ⟨⟨⟨hwidth, rfl⟩, hheight⟩, hnewline⟩ := h
        have hsplit' := @List.takeWhile_append_dropWhile _ (isDigit 10) rest
        refine ⟨header.takeWhile (isDigit 10), rest.takeWhile (isDigit 10),
          ⟨fun b hb => List.mem_takeWhile_imp hb,
            fun b hb => List.mem_takeWhile_imp hb, hwidth, hheight⟩, ?_⟩
        rcases hnewline with hone | htwo
        · rw [hone] at hsplit'
          rw [headerText, hsplit', hsplit]
        · rw [htwo] at hsplit'
          rw [← hsplit, ← hsplit'] at hend
          have hlast : newline ∈ (header.takeWhile (isDigit 10) ++ space ::
              (rest.takeWhile (isDigit 10) ++ [newline, newline])).dropLast := by
            rw [List.dropLast_append_of_ne_nil (by simp),
              List.dropLast_cons_of_ne_nil (by simp),
              List.dropLast_append_of_ne_nil (by simp)]
            simp
          exact absurd hlast hend
  · rintro ⟨width, height, hheader, rfl⟩
    obtain ⟨htake, hdrop⟩ := @takeWhile_before (height ++ [newline]) width
      hheader.digits space not_digit.1
    obtain ⟨htake', hdrop'⟩ := @takeWhile_before [] height hheader.digits'
      newline not_digit.2
    rw [reImghdr, headerText, htake, hdrop]
    simp [htake', hdrop', hheader.nonempty, hheader.nonempty']

theorem words_headerText (h : Header width height) :
    words (headerText width height) = [width, height] := by
  have hstrip : (headerText width height).rdropWhile isSpace =
      width ++ space :: height := by
    rw [headerText, ← List.cons_append, ← List.append_assoc,
      List.rdropWhile_concat_pos _ _ _ (by decide),
      List.rdropWhile_eq_self_iff]
    intro hne hspace
    rw [List.getLast_append_of_ne_nil _ (List.cons_ne_nil _ _),
      List.getLast_cons h.nonempty',
      not_space h.digits' _ (List.getLast_mem h.nonempty')] at hspace
    cases hspace
  rw [words, hstrip,
    List.splitOnP_append_cons_of_forall_mem (not_space h.digits) space
      (by decide), List.splitOnP_eq_singleton (not_space h.digits')]
  simp [h.nonempty, h.nonempty']

/-- The size is what the two numerals stand for, if they can be converted. -/
theorem headerSize_iff (h : Header width height) {size : Nat × Nat} :
    headerSize (headerText width height) = .ok size ↔
      (width.length ≤ maxStrDigits ∧ height.length ≤ maxStrDigits) ∧
        size = (value 10 width, value 10 height) := by
  rw [headerSize, words_headerText h]
  simp only [bind_eq_ok, int_ok_iff]
  constructor
  · rintro ⟨_, ⟨hwidth, rfl⟩, _, ⟨hheight, rfl⟩, hsize⟩
    exact ⟨⟨hwidth, hheight⟩, (Except.ok.inj hsize).symm⟩
  · rintro ⟨⟨hwidth, hheight⟩, rfl⟩
    exact ⟨_, ⟨hwidth, rfl⟩, _, ⟨hheight, rfl⟩, rfl⟩

/-- A header is accepted with the size that its numerals stand for. -/
theorem parseHeader_iff {maxWidth maxHeight : Nat} {size : Nat × Nat}
    (hend : newline ∉ header.dropLast) :
    parseHeader maxWidth maxHeight header = .ok size ↔
      ∃ width height, Header width height ∧
        header = headerText width height ∧
        (width.length ≤ maxStrDigits ∧ height.length ≤ maxStrDigits) ∧
        size = (value 10 width, value 10 height) ∧
        0 < size.1 ∧ size.1 ≤ maxWidth ∧ 0 < size.2 ∧ size.2 ≤ maxHeight := by
  constructor
  · intro h
    rw [parseHeader] at h
    split at h
    · cases h
    rename_i hmatch
    obtain ⟨width, height, hheader, rfl⟩ :=
      (reImghdr_iff hend).mp (Bool.not_eq_false _ ▸ hmatch)
    obtain ⟨found, hfound, h⟩ := bind_eq_ok.mp h
    obtain ⟨hshort, hsize⟩ := (headerSize_iff hheader).mp hfound
    split at h
    · rename_i hbounds
      obtain rfl := Except.ok.inj h
      exact ⟨width, height, hheader, rfl, hshort, hsize, hbounds⟩
    · cases h
  · rintro ⟨width, height, hheader, rfl, hshort, hsize, hbounds⟩
    have hmatch : reImghdr (headerText width height) = true :=
      (reImghdr_iff hend).mpr ⟨width, height, hheader, rfl⟩
    rw [parseHeader, if_neg (by rw [hmatch]; decide),
      (headerSize_iff hheader).mpr ⟨hshort, hsize⟩]
    exact if_pos hbounds

end

/-! The language. -/

/-- A stream begins with an image; what is behind is not part of it. -/
structure Begins (maxWidth maxHeight : Nat) (stream : List UInt8)
    (image : Image) (rest : List UInt8) : Prop where
  text : ∃ width height, Header width height ∧
    stream = headerText width height ++ (image.rgba ++ rest) ∧
    image.size = (value 10 width, value 10 height) ∧
    (width.length ≤ maxStrDigits ∧ height.length ≤ maxStrDigits) ∧
    ∃ maxhdrlen, imghdrlen maxWidth maxHeight = .ok maxhdrlen ∧
      (headerText width height).length ≤ maxhdrlen
  width : 0 < image.size.1 ∧ image.size.1 ≤ maxWidth
  height : 0 < image.size.2 ∧ image.size.2 ≤ maxHeight
  rgba : image.rgba.length = image.size.1 * image.size.2 * 4

/-- The image that is read, and what is left for the next reader. -/
def Reads (maxWidth maxHeight : Nat) (chunks : List Chunk) (image : Image)
    (rest : List UInt8) : Prop :=
  ∃ stream, getFromStream maxWidth maxHeight ⟨[], chunks⟩ =
    .ok (image, stream) ∧ stream.content = rest

def ReadsAsync (maxWidth maxHeight limit : Nat) (chunks : List Chunk)
    (image : Image) (rest : List UInt8) : Prop :=
  ∃ reader, getFromStreamAsync maxWidth maxHeight ⟨limit, [], chunks⟩ =
    .ok (image, reader) ∧ reader.content = rest

section

variable {maxWidth maxHeight maxhdrlen limit : Nat} {chunks : List Chunk}
  {image : Image} {rest : List UInt8}

theorem newline_not_mem_dropLast (text : List UInt8) :
    newline ∉ (lineOf text).dropLast := by
  induction text with
  | nil => exact List.not_mem_nil
  | cons byte text ih =>
      rw [lineOf]
      split
      · exact List.not_mem_nil
      · rename_i hbyte
        cases hline : lineOf text with
        | nil => exact List.not_mem_nil
        | cons second more =>
            rw [hline] at ih
            rw [List.dropLast_cons_of_ne_nil (List.cons_ne_nil _ _),
              List.mem_cons, not_or]
            exact ⟨Ne.symm hbyte, ih⟩

/-- The header is the first line. -/
theorem lineOf_header {width height : List UInt8} (h : Header width height)
    (text : List UInt8) :
    lineOf (headerText width height ++ text) = headerText width height := by
  have hfree : newline ∉ width ++ space :: height := by
    rw [List.mem_append, List.mem_cons, not_or, not_or]
    exact ⟨newline_not_mem h.digits, by decide, newline_not_mem h.digits'⟩
  have hline := lineOf_newline hfree text
  rw [headerText]
  simpa using hline

theorem headerText_length (width height : List UInt8) :
    (headerText width height).length ≠ 0 := by
  rw [headerText, List.length_append, List.length_cons]
  omega

/-- A header that has been accepted, with what follows it. -/
theorem Begins.of_header {stream header : List UInt8} {size : Nat × Nat}
    (hparse : parseHeader maxWidth maxHeight header = .ok size)
    (hend : newline ∉ header.dropLast)
    (hbegins : header ++ stream.drop header.length = stream)
    (hmax : imghdrlen maxWidth maxHeight = .ok maxhdrlen)
    (hshort : header.length ≤ maxhdrlen)
    (hlong : size.1 * size.2 * 4 ≤ (stream.drop header.length).length) :
    Begins maxWidth maxHeight stream
      ⟨(stream.drop header.length).take (size.1 * size.2 * 4), size⟩
      ((stream.drop header.length).drop (size.1 * size.2 * 4)) := by
  obtain ⟨width, height, hheader, rfl, hdigits, hsize, hw, hw', hh, hh'⟩ :=
    (parseHeader_iff hend).mp hparse
  refine ⟨⟨width, height, hheader, ?_, hsize, hdigits, maxhdrlen, hmax,
    hshort⟩, ⟨hw, hw'⟩, ⟨hh, hh'⟩, ?_⟩
  · rw [List.take_append_drop, hbegins]
  · exact List.length_take_of_le hlong

/-- The parts of a stream that begins with an image. -/
theorem Begins.parts {stream : List UInt8}
    (h : Begins maxWidth maxHeight stream image rest) :
    ∃ maxhdrlen header, imghdrlen maxWidth maxHeight = .ok maxhdrlen ∧
      parseHeader maxWidth maxHeight header = .ok image.size ∧
      header.length ≠ 0 ∧ header.length ≤ maxhdrlen ∧
      newline ∈ stream ∧ lineOf stream = header ∧
      lineOf (stream.take maxhdrlen) = header ∧
      stream.drop header.length = image.rgba ++ rest := by
  obtain ⟨width, height, hheader, rfl, hsize, hdigits, maxhdrlen, hmax,
    hshort⟩ := h.text
  have hline := lineOf_header hheader (image.rgba ++ rest)
  have hend : newline ∉ (headerText width height).dropLast :=
    hline ▸ newline_not_mem_dropLast _
  refine ⟨maxhdrlen, headerText width height, hmax, ?_,
    headerText_length _ _, hshort, ?_, hline, ?_, List.drop_left⟩
  · exact (parseHeader_iff hend).mpr ⟨width, height, hheader, rfl, hdigits,
      hsize, h.width.1, h.width.2, h.height.1, h.height.2⟩
  · rw [List.mem_append]
    exact Or.inl (by simp [headerText])
  · rw [List.take_append, List.take_of_length_le hshort]
    exact lineOf_header hheader _

/-- The reader that waits. -/
theorem reads_iff :
    Reads maxWidth maxHeight chunks image rest ↔
      Begins maxWidth maxHeight (joined chunks) image rest := by
  cases hmax : imghdrlen maxWidth maxHeight with
  | error e =>
    constructor
    · rintro ⟨stream, hread, -⟩
      rw [getFromStream, hmax] at hread
      cases hread
    · intro h
      obtain ⟨maxhdrlen, _, hlength, _⟩ := h.parts
      rw [hmax] at hlength
      cases hlength
  | ok maxhdrlen =>
  obtain ⟨hline, hbehind⟩ := BufferedReader.readline_eq maxhdrlen [] chunks
  rw [List.nil_append] at hline hbehind
  rw [Reads]
  simp only [getFromStream, hmax]
  change (∃ stream, (ite _ _ _ : Except _ _) = _ ∧ _) ↔ _
  generalize BufferedReader.readline maxhdrlen [] chunks = line
    at hline hbehind ⊢
  have hdata := fun count => BufferedReader.read_eq count line.2.buffer
    line.2.chunks
  have hcontent : line.2.buffer ++ joined line.2.chunks =
      (joined chunks).drop line.1.length := hbehind
  rw [hcontent] at hdata
  constructor
  · rintro ⟨stream, hread, rfl⟩
    split at hread
    · cases hread
    cases hparse : parseHeader maxWidth maxHeight line.1 with
    | error e =>
        rw [hparse] at hread
        cases hread
    | ok size =>
        rw [hparse] at hread
        change (if _ then _ else _) = _ at hread
        obtain ⟨htake, hrest⟩ := hdata (size.1 * size.2 * 4)
        split at hread
        · cases hread
        · rename_i hlength
          have htaken := hline ▸ lineOf_front ((joined chunks).take maxhdrlen)
          have hresult := Prod.mk.inj (Except.ok.inj hread)
          rw [← hresult.1, ← hresult.2, hrest, htake]
          rw [not_not, htake, List.length_take] at hlength
          apply Begins.of_header hparse
          · exact hline ▸ newline_not_mem_dropLast _
          · exact List.prefix_iff_eq_append.mp
              (htaken.trans (List.take_prefix _ _))
          · exact hmax
          · exact htaken.length_le.trans (List.length_take_le _ _)
          · omega
  · intro h
    obtain ⟨_, header, hlength, hparse, hne, _, _, _, hheader, hdrop⟩ := h.parts
    obtain rfl := Except.ok.inj (hmax.symm.trans hlength)
    rw [hheader] at hline
    subst hline
    obtain ⟨htake, hrest⟩ := hdata (image.size.1 * image.size.2 * 4)
    rw [hdrop, ← h.rgba, List.take_left] at htake
    rw [hdrop, ← h.rgba, List.drop_left] at hrest
    refine ⟨_, ?_, hrest⟩
    rw [if_neg hne, hparse]
    change (if _ then _ else _) = _
    rw [← h.rgba, htake]
    exact if_neg (not_not.mpr rfl)

/-- The reader of `asyncio`. -/
theorem readsAsync_iff
    (hlimit : ∀ maxhdrlen, imghdrlen maxWidth maxHeight = .ok maxhdrlen →
      maxhdrlen ≤ limit) :
    ReadsAsync maxWidth maxHeight limit chunks image rest ↔
      Begins maxWidth maxHeight (joined chunks) image rest := by
  cases hmax : imghdrlen maxWidth maxHeight with
  | error e =>
    constructor
    · rintro ⟨reader, hread, -⟩
      rw [getFromStreamAsync, hmax] at hread
      cases hread
    · intro h
      obtain ⟨maxhdrlen, _, hlength, _⟩ := h.parts
      rw [hmax] at hlength
      cases hlength
  | ok maxhdrlen =>
  rw [ReadsAsync]
  simp only [getFromStreamAsync, hmax]
  change (∃ reader, (Except.mapError _ (StreamReader.readline _) >>= _) = _ ∧
    _) ↔ _
  have hcontent : StreamReader.content ⟨limit, [], chunks⟩ = joined chunks :=
    List.nil_append _
  constructor
  · rintro ⟨reader, hread, rfl⟩
    cases hline : StreamReader.readline ⟨limit, [], chunks⟩ with
    | error e =>
        rw [hline] at hread
        cases hread
    | ok line =>
        rw [hline] at hread
        obtain ⟨hfirst, hbehind⟩ := StreamReader.readline_ok hline
        rw [hcontent] at hfirst hbehind
        change (if _ then _ else _) = _ at hread
        split at hread
        · cases hread
        split at hread
        · cases hread
        rename_i hshort
        cases hparse : parseHeader maxWidth maxHeight line.1 with
        | error e =>
            rw [hparse] at hread
            cases hread
        | ok size =>
            rw [hparse] at hread
            cases hdata : StreamReader.readexactly line.2.limit
                (size.1 * size.2 * 4) line.2.buffer line.2.chunks with
            | error e =>
                change (Except.mapError _ (StreamReader.readexactly _ _ _ _) >>=
                  _) = _ at hread
                rw [hdata] at hread
                cases hread
            | ok data =>
                change (Except.mapError _ (StreamReader.readexactly _ _ _ _) >>=
                  _) = _ at hread
                rw [hdata] at hread
                change (if _ then _ else _) = _ at hread
                obtain ⟨hlong, htake, hrest⟩ :=
                  StreamReader.readexactly_ok hdata
                change _ ≤ line.2.content.length at hlong
                change _ = line.2.content.take _ at htake
                change _ = line.2.content.drop _ at hrest
                rw [hbehind] at hlong htake hrest
                split at hread
                · cases hread
                · have hresult := Prod.mk.inj (Except.ok.inj hread)
                  rw [← hresult.1, ← hresult.2, hrest, htake]
                  apply Begins.of_header hparse
                  · exact hfirst ▸ newline_not_mem_dropLast _
                  · exact List.prefix_iff_eq_append.mp
                      (hfirst ▸ lineOf_front _)
                  · exact hmax
                  · exact Nat.not_lt.mp hshort
                  · exact hlong
  · intro h
    obtain ⟨_, header, hlength, hparse, hne, hshort, hmem, hheader, _, hdrop⟩ :=
      h.parts
    obtain rfl := Except.ok.inj (hmax.symm.trans hlength)
    obtain ⟨line, hline⟩ := @StreamReader.readline_short ⟨limit, [], chunks⟩
      (by rw [hcontent]; exact hmem)
      (by
        rw [hcontent, hheader]
        exact Nat.le_succ_of_le (hshort.trans (hlimit _ hmax)))
    obtain ⟨hfirst, hbehind⟩ := StreamReader.readline_ok hline
    rw [hcontent, hheader] at hfirst
    rw [hcontent, hfirst, hdrop] at hbehind
    obtain ⟨data, hdata⟩ := @StreamReader.readexactly_enough line.2.limit
      (image.size.1 * image.size.2 * 4) line.2.buffer line.2.chunks
      (by
        change _ ≤ line.2.content.length
        rw [hbehind, ← h.rgba, List.length_append]
        exact Nat.le_add_right _ _)
    obtain ⟨_, htake, hrest⟩ := StreamReader.readexactly_ok hdata
    change _ = line.2.content.take _ at htake
    change _ = line.2.content.drop _ at hrest
    rw [hbehind, ← h.rgba, List.take_left] at htake
    rw [hbehind, ← h.rgba, List.drop_left] at hrest
    refine ⟨data.2, ?_, hrest⟩
    rw [hline]
    change (if _ then _ else _) = _
    rw [hfirst, if_neg hne, if_neg (Nat.not_lt.mpr hshort), hparse]
    change (Except.mapError _ (StreamReader.readexactly _ _ _ _) >>= _) = _
    rw [hdata]
    change (if _ then _ else _) = _
    rw [htake, ← h.rgba]
    exact if_neg (not_not.mpr rfl)

/-- An image within the limits has a header that is not too long. -/
theorem begins_serialise
    (hmax : (write 10 maxWidth).length ≤ maxStrDigits ∧
      (write 10 maxHeight).length ≤ maxStrDigits)
    (hwidth : 0 < image.size.1 ∧ image.size.1 ≤ maxWidth)
    (hheight : 0 < image.size.2 ∧ image.size.2 ≤ maxHeight)
    (hrgba : image.rgba.length = image.size.1 * image.size.2 * 4)
    (rest : List UInt8) :
    Begins maxWidth maxHeight (serialise image ++ rest) image rest := by
  have hplain := fun n => @write_plain 10 (by decide) (by decide) n
  have hvalue := fun n => @value_write 10 (by decide) (by decide) n
  have hw := @length_write_mono 10 maxWidth image.size.1 hwidth.2
  have hh := @length_write_mono 10 maxHeight image.size.2 hheight.2
  refine ⟨⟨write 10 image.size.1, write 10 image.size.2,
    ⟨(hplain _).digits, (hplain _).digits, (hplain _).nonempty,
      (hplain _).nonempty⟩, ?_, ?_, ⟨hw.trans hmax.1, hh.trans hmax.2⟩, _,
      imghdrlen_ok_iff.mpr ⟨hmax.1, hmax.2, rfl⟩, ?_⟩, hwidth, hheight, hrgba⟩
  · simp [serialise, headerText]
  · rw [hvalue, hvalue]
  · rw [headerText, List.length_append, List.length_cons, List.length_append,
      List.length_singleton]
    omega

end

/-- Both ways to read an image accept the streams that begin with one, return
it and leave what is behind, however the stream is cut into chunks; an image
that is sent is read as it is, where the limits can be converted to text. -/
theorem getFromStream_agrees (maxWidth maxHeight limit : Nat)
    (hlimit : ∀ maxhdrlen, imghdrlen maxWidth maxHeight = .ok maxhdrlen →
      maxhdrlen ≤ limit) (chunks : List Chunk) :
    (∀ image rest,
      (Reads maxWidth maxHeight chunks image rest ↔
        Begins maxWidth maxHeight (joined chunks) image rest) ∧
      (ReadsAsync maxWidth maxHeight limit chunks image rest ↔
        Begins maxWidth maxHeight (joined chunks) image rest)) ∧
    ((write 10 maxWidth).length ≤ maxStrDigits ∧
      (write 10 maxHeight).length ≤ maxStrDigits →
      ∀ (image : Image) rest, 0 < image.size.1 ∧ image.size.1 ≤ maxWidth →
        0 < image.size.2 ∧ image.size.2 ≤ maxHeight →
        image.rgba.length = image.size.1 * image.size.2 * 4 →
        joined chunks = serialise image ++ rest →
          Reads maxWidth maxHeight chunks image rest ∧
            ReadsAsync maxWidth maxHeight limit chunks image rest) := by
  refine ⟨fun image rest => ⟨reads_iff, readsAsync_iff hlimit⟩, ?_⟩
  intro hmax image rest hwidth hheight hrgba hjoined
  have hbegins := begins_serialise hmax hwidth hheight hrgba rest
  rw [← hjoined] at hbegins
  exact ⟨reads_iff.mpr hbegins, (readsAsync_iff hlimit).mpr hbegins⟩

/-- One pixel, the header of which arrives in two parts. -/
def samplePixel : Image where
  rgba := [0x00, 0xFF, 0x00, 0xFF]
  size := (1, 1)

def sampleChunks : List Chunk :=
  [⟨[0x31, 0x20], by decide⟩,
    ⟨[0x31, 0x0A, 0x00, 0xFF, 0x00, 0xFF, 0x21], by decide⟩]

theorem getFromStream_agrees_pixel :
    Reads 256 256 sampleChunks samplePixel [0x21] ∧
      ReadsAsync 256 256 65536 sampleChunks samplePixel [0x21] :=
  (getFromStream_agrees 256 256 65536
    (fun _ hmax => (imghdrlen_ok_iff.mp hmax).2.2 ▸ by decide)
    sampleChunks).2 (by decide) samplePixel [0x21] (by decide) (by decide)
    (by decide) (by decide)

theorem length_write_pow (count : Nat) :
    (write 10 (10 ^ count)).length = count + 1 := by
  have hlong : count < (write 10 (10 ^ count)).length := by
    have hvalue := value_lt (@write_digits 10 (by decide) (by decide)
      (10 ^ count))
    rw [value_write (by decide) (by decide)] at hvalue
    exact (Nat.pow_lt_pow_iff_right (by decide)).mp hvalue
  have hshort := @length_write_le 10 (10 ^ count) (count + 1) (by decide)
    (Nat.succ_pos _) (Nat.pow_lt_pow_right (by decide) (Nat.lt_succ_self _))
  omega

/-- The number one, with more digits than can be converted. -/
def longNumeral : List UInt8 :=
  List.replicate maxStrDigits zero ++ [0x31]

theorem longNumeral_digits : AllDigits 10 longNumeral := by
  intro byte hbyte
  rcases List.mem_append.mp hbyte with hzero | hone
  · rw [List.eq_of_mem_replicate hzero]
    decide
  · rw [List.mem_singleton.mp hone]
    decide

theorem longNumeral_length : longNumeral.length = maxStrDigits + 1 := by
  rw [longNumeral, List.length_append, List.length_replicate]
  rfl

theorem longNumeral_header : Header longNumeral [0x31] where
  digits := longNumeral_digits
  digits' := by decide
  nonempty := List.append_ne_nil_of_right_ne_nil _ (List.cons_ne_nil _ _)
  nonempty' := List.cons_ne_nil _ _

def longChunk : Chunk :=
  ⟨headerText longNumeral [0x31] ++ samplePixel.rgba,
    List.append_ne_nil_of_right_ne_nil _ (List.cons_ne_nil _ _)⟩

/-- A stream that begins with so long a numeral begins with no image. -/
theorem not_begins_longNumeral {maxWidth maxHeight : Nat} {image : Image}
    {rest : List UInt8} :
    ¬ Begins maxWidth maxHeight (joined [longChunk]) image rest := by
  intro h
  obtain ⟨width, height, hheader, hstream, _, ⟨hshort, _⟩, _⟩ := h.text
  have hjoined : joined [longChunk] =
      longNumeral ++ space :: 0x31 :: newline :: samplePixel.rgba := by
    simp [joined, longChunk, headerText]
  have hbegins : width ++ space :: (height ++ newline :: (image.rgba ++ rest)) =
      longNumeral ++ space :: 0x31 :: newline :: samplePixel.rgba := by
    rw [← hjoined, hstream, headerText]
    simp
  have htake := (@takeWhile_before (0x31 :: newline :: samplePixel.rgba) _
    longNumeral_digits _ not_digit.1).1
  rw [← hbegins, (takeWhile_before hheader.digits not_digit.1).1] at htake
  rw [htake, longNumeral_length] at hshort
  exact Nat.not_succ_le_self _ hshort

/-- Limits that cannot be converted to text refuse a pixel, and a numeral that
cannot be converted is refused although its header is short enough and its
number within the limits. -/
theorem longNumeral_refused :
    ((0 < samplePixel.size.1 ∧ samplePixel.size.1 ≤ 10 ^ maxStrDigits) ∧
      (0 < samplePixel.size.2 ∧ samplePixel.size.2 ≤ 1) ∧
      joined sampleChunks = serialise samplePixel ++ [0x21] ∧
      ¬ Reads (10 ^ maxStrDigits) 1 sampleChunks samplePixel [0x21] ∧
      ¬ ReadsAsync (10 ^ maxStrDigits) 1 65536 sampleChunks samplePixel
        [0x21]) ∧
    (imghdrlen (10 ^ 2200) (10 ^ 2200) = .ok 4404 ∧
      Header longNumeral [0x31] ∧
      (headerText longNumeral [0x31]).length ≤ 4404 ∧
      (value 10 longNumeral, value 10 [0x31]) = samplePixel.size ∧
      joined [longChunk] = headerText longNumeral [0x31] ++ samplePixel.rgba ∧
      ¬ Reads (10 ^ 2200) (10 ^ 2200) [longChunk] samplePixel [] ∧
      ¬ ReadsAsync (10 ^ 2200) (10 ^ 2200) 65536 [longChunk] samplePixel
        []) := by
  have hpositive := @Nat.pow_pos 10 maxStrDigits (by decide)
  have hwide : ∀ maxhdrlen, imghdrlen (10 ^ maxStrDigits) 1 ≠ .ok maxhdrlen := by
    intro maxhdrlen hmax
    have hshort := (imghdrlen_ok_iff.mp hmax).1
    rw [length_write_pow] at hshort
    exact Nat.not_succ_le_self _ hshort
  have hrefused : ¬ Begins (10 ^ maxStrDigits) 1 (joined sampleChunks)
      samplePixel [0x21] := by
    intro h
    obtain ⟨maxhdrlen, _, hmax, _⟩ := h.parts
    exact hwide maxhdrlen hmax
  have hmax : imghdrlen (10 ^ 2200) (10 ^ 2200) = .ok 4404 := by
    rw [imghdrlen_ok_iff, length_write_pow]
    decide
  refine ⟨⟨⟨by decide, hpositive⟩, by decide, by decide,
    fun h => hrefused (reads_iff.mp h), fun h => hrefused
      ((readsAsync_iff fun n hn => absurd hn (hwide n)).mp h)⟩,
    hmax, longNumeral_header, ?_, ?_, by simp [joined, longChunk],
    fun h => not_begins_longNumeral (reads_iff.mp h),
    fun h => not_begins_longNumeral ((readsAsync_iff fun n hn => ?_).mp h)⟩
  · rw [headerText, List.length_append, longNumeral_length]
    decide
  · rw [longNumeral, value_zeros]
    rfl
  · obtain rfl := Except.ok.inj (hmax.symm.trans hn)
    decide

end QubesUtils.Imgconverter
