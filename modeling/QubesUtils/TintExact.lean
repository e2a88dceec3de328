/-
No number of `Image.tint` leaves its 32 bits, and what comes out is the lower
bound of what the formula says.
-/
import Mathlib.Data.Rat.Floor
import Mathlib.Tactic.FieldSimp
import Mathlib.Tactic.Linarith
import QubesUtils.ImageTint
import QubesUtils.Words

namespace QubesUtils.Imgconverter

open Numeral CNumber Words

/-! Pixels. -/

/-- The minimum of a pixel, and its maximum minus that. -/
def Pixel.least (pixel : Pixel) : Int :=
  (min (min pixel.r pixel.g) pixel.b).toNat

def Pixel.range (pixel : Pixel) : Int :=
  (max (max pixel.r pixel.g) pixel.b).toNat - pixel.least

theorem min_le_max (r g b : UInt8) :
    (min (min r g) b).toNat ≤ (max (max r g) b).toNat := by
  have hmin : ∀ u v : UInt8, (min u v).toNat = min u.toNat v.toNat := by
    intro u v
    change (if u ≤ v then u else v).toNat = _
    rw [min_def, apply_ite UInt8.toNat]
    rfl
  have hmax : ∀ u v : UInt8, (max u v).toNat = max u.toNat v.toNat := by
    intro u v
    change (if u ≤ v then v else u).toNat = _
    rw [max_def, apply_ite UInt8.toNat]
    rfl
  rw [hmin, hmin, hmax, hmax]
  omega

theorem Pixel.bounds (pixel : Pixel) :
    0 ≤ pixel.least ∧ 0 ≤ pixel.range ∧ pixel.range + pixel.least ≤ 255 := by
  have hle := min_le_max pixel.r pixel.g pixel.b
  have hmax := (max (max pixel.r pixel.g) pixel.b).toNat_lt
  rw [Pixel.range, Pixel.least]
  omega

/-- A colour with maximum saturation has a full channel. -/
structure Saturated.Full (tint : Saturated) : Prop where
  tdn : 0 < tint.tdn ∧ tint.tdn ≤ 255
  trn : 0 ≤ tint.trn ∧ tint.trn ≤ tint.tdn
  tgn : 0 ≤ tint.tgn ∧ tint.tgn ≤ tint.tdn
  tbn : 0 ≤ tint.tbn ∧ tint.tbn ≤ tint.tdn

/-- A colour of 24 bits. -/
structure Colour.Bytes (colour : Colour) : Prop where
  r : 0 ≤ colour.r ∧ colour.r ≤ 255
  g : 0 ≤ colour.g ∧ colour.g ≤ 255
  b : 0 ≤ colour.b ∧ colour.b ≤ 255

theorem saturate_full {colour : Colour} (h : colour.Bytes) :
    (saturate colour).Full := by
  obtain ⟨hr, hg, hb⟩ := h
  rw [saturate]
  split
  · exact ⟨by decide, by decide, by decide, by decide⟩
  · refine ⟨?_, ?_, ?_, ?_⟩ <;> dsimp only <;> omega

/-! No overflow. -/

def Chroma.map {α β : Type} (f : α → β) (chroma : Chroma α) : Chroma β where
  c := f chroma.c
  spread := f chroma.spread
  c2 := f chroma.c2
  room := f chroma.room
  m2 := f chroma.m2
  gap := f chroma.gap
  gapC2d := f chroma.gapC2d
  m2d := f chroma.m2d
  m2C2dTdn := f chroma.m2C2dTdn
  m2dC2dTdn := f chroma.m2dC2dTdn
  c2M2d := f chroma.c2M2d

def Channel.map {α β : Type} (f : α → β) (channel : Channel α) :
    Channel β where
  product := f channel.product
  sum := f channel.sum
  quotient := f channel.quotient

/-- The number of a word. -/
def number (word : UInt32) : Int := word.toNat

/-- The words of a pixel, and the numbers they stand for. -/
structure ChromaDenotes (words : Chroma UInt32) (numbers : Chroma Int) :
    Prop where
  c : Denotes words.c numbers.c 255
  spread : Denotes words.spread numbers.spread (3 * 255)
  c2 : Denotes words.c2 numbers.c2 (255 + 3 * 255)
  room : Denotes words.room numbers.room 1020
  m2 : Denotes words.m2 numbers.m2 (1020 * 255)
  gap : Denotes words.gap numbers.gap 255
  gapC2d : Denotes words.gapC2d numbers.gapC2d (255 * 4)
  m2d : Denotes words.m2d numbers.m2d (max (255 * 4) 1)
  m2C2dTdn : Denotes words.m2C2dTdn numbers.m2C2dTdn (1020 * 255 * 1020)
  m2dC2dTdn : Denotes words.m2dC2dTdn numbers.m2dC2dTdn
    (max (255 * 4) 1 * 1020)
  c2M2d : Denotes words.c2M2d numbers.c2M2d
    ((255 + 3 * 255) * max (255 * 4) 1)

section

variable {tdn tvn : Int} {pixel : Pixel}

theorem chroma_denotes (htdn : 0 < tdn ∧ tdn ≤ 255) (pixel : Pixel) :
    ChromaDenotes (chroma UInt32.ofInt tdn pixel) (chroma id tdn pixel) := by
  have hbytes := min_le_max pixel.r pixel.g pixel.b
  have hbyte := (max (max pixel.r pixel.g) pixel.b).toNat_lt
  simp only [chroma, id]
  generalize (max (max pixel.r pixel.g) pixel.b).toNat = M at hbytes hbyte ⊢
  generalize (min (min pixel.r pixel.g) pixel.b).toNat = m at hbytes ⊢
  have hconst : ∀ n b : Int, 0 ≤ n → n ≤ b → b < 2 ^ 32 →
      Denotes (UInt32.ofInt n) n b := fun n b => Denotes.of_int
  have hM : Denotes (UInt32.ofInt M) M 255 :=
    hconst M 255 (by omega) (by omega) (by decide)
  have hm : Denotes (UInt32.ofInt m) m 255 :=
    hconst m 255 (by omega) (by omega) (by decide)
  have hc := hM.sub hm (by omega)
  have hspread := (hconst (td - tn) 3 (by decide) (by decide) (by decide)).mul
    hc (by decide)
  have hc2 := (hconst (tn * 255) 255 (by decide) (by decide) (by decide)).add
    hspread (by decide)
  have hroom := (hconst (255 * td) 1020 (by decide) (by decide)
    (by decide)).sub hc2 (by rw [td, tn]; omega)
  have hm2 := hroom.mul hm (by decide)
  have hgap := (hconst 255 255 (by decide) (by decide) (by decide)).sub hc
    (by omega)
  have hgapC2d := hgap.mul (hconst td 4 (by decide) (by decide) (by decide))
    (by decide)
  have hm2d := hgapC2d.max (hconst 1 1 (by decide) (by decide) (by decide))
  have hC2dTdn := hconst (tdn * td) 1020 (by rw [td]; omega) (by rw [td]; omega)
    (by decide)
  exact ⟨hc, hspread, hc2, hroom, hm2, hgap, hgapC2d, hm2d,
    hm2.mul hC2dTdn (by decide), hm2d.mul hC2dTdn (by decide),
    hc2.mul hm2d (by decide)⟩

theorem ChromaDenotes.map {words : Chroma UInt32} {numbers : Chroma Int}
    (h : ChromaDenotes words numbers) : words.map number = numbers := by
  apply Chroma.ext
  · exact h.c.value
  · exact h.spread.value
  · exact h.c2.value
  · exact h.room.value
  · exact h.m2.value
  · exact h.gap.value
  · exact h.gapC2d.value
  · exact h.m2d.value
  · exact h.m2C2dTdn.value
  · exact h.m2dC2dTdn.value
  · exact h.c2M2d.value

/-! The quotient. -/

/-- What both sides of the division are multiples of. -/
theorem chroma_eq (tdn : Int) (pixel : Pixel) :
    ∃ m2d : Int, 0 < m2d ∧
      (chroma id tdn pixel).m2C2dTdn = m2d * (3 * pixel.least * tdn) ∧
      (chroma id tdn pixel).m2dC2dTdn = m2d * (4 * tdn) ∧
      (chroma id tdn pixel).c2M2d = m2d * (255 + 3 * pixel.range) := by
  obtain ⟨hleast, hrange, hsum⟩ := pixel.bounds
  have hfour : (1020 - (255 + 3 * pixel.range)) * pixel.least * 4 =
      max ((255 - pixel.range) * 4) 1 * (3 * pixel.least) := by
    by_cases hfull : pixel.range = 255
    · have hzero : pixel.least = 0 := by omega
      rw [hzero]
      ring
    · rw [max_eq_left (by omega)]
      ring
  refine ⟨max ((255 - pixel.range) * 4) 1, by omega, ?_, ?_, ?_⟩
  · calc
      _ = (1020 - (255 + 3 * pixel.range)) * pixel.least * (tdn * 4) := rfl
      _ = (1020 - (255 + 3 * pixel.range)) * pixel.least * 4 * tdn := by ring
      _ = _ := by rw [hfour]; ring
  · calc
      _ = max ((255 - pixel.range) * 4) 1 * (tdn * 4) := rfl
      _ = _ := by ring
  · calc
      _ = (255 + 3 * pixel.range) * max ((255 - pixel.range) * 4) 1 := rfl
      _ = _ := by ring

theorem quotient_eq (tdn tvn : Int) (pixel : Pixel) :
    (channel id tvn (chroma id tdn pixel)).quotient =
      (3 * pixel.least * tdn + tvn * (255 + 3 * pixel.range)) / (4 * tdn) := by
  obtain ⟨m2d, hpos, hm2, hm2d, hc2⟩ := chroma_eq tdn pixel
  calc
    _ = ((chroma id tdn pixel).m2C2dTdn + tvn * (chroma id tdn pixel).c2M2d) /
        (chroma id tdn pixel).m2dC2dTdn := rfl
    _ = m2d * (3 * pixel.least * tdn + tvn * (255 + 3 * pixel.range)) /
        (m2d * (4 * tdn)) := by
      rw [hm2, hm2d, hc2]
      ring_nf
    _ = _ := Int.mul_ediv_mul_of_pos _ _ hpos

theorem quotient_le (htdn : 0 < tdn) (htvn : tvn ≤ tdn) (pixel : Pixel) :
    (channel id tvn (chroma id tdn pixel)).quotient ≤ 255 := by
  obtain ⟨_, hrange, hsum⟩ := pixel.bounds
  rw [quotient_eq]
  apply Int.ediv_le_of_le_mul (by omega)
  have hle : tvn * (255 + 3 * pixel.range) ≤ tdn * (255 + 3 * pixel.range) :=
    mul_le_mul_of_nonneg_right htvn (by omega)
  have hle' : tdn * (3 * (pixel.range + pixel.least)) ≤ tdn * (3 * 255) :=
    mul_le_mul_of_nonneg_left (by omega) (le_of_lt htdn)
  linarith

/-- The quotient is what the formula says, rounded down. -/
theorem quotient_floor (htdn : 0 < tdn) (tvn : Int) (pixel : Pixel) :
    (channel id tvn (chroma id tdn pixel)).quotient =
      ⌊(3 * pixel.least / 4 + tvn / tdn * (255 + 3 * pixel.range) / 4 : ℚ)⌋ := by
  obtain ⟨d, rfl⟩ := Int.eq_ofNat_of_zero_le (le_of_lt htdn)
  have hd : (d : ℚ) ≠ 0 := by
    have hpos : 0 < d := by omega
    exact_mod_cast hpos.ne'
  rw [quotient_eq]
  have hfloor := Rat.floor_intCast_div_natCast
    (3 * pixel.least * d + tvn * (255 + 3 * pixel.range)) (4 * d)
  have hden : (4 * d : Int) = ((4 * d : Nat) : Int) := (Nat.cast_mul 4 d).symm
  rw [hden, ← hfloor]
  congr 1
  push_cast
  field_simp

/-- A channel of a pixel: nothing overflows, nothing is divided by zero, and
the value is that of the formula. -/
structure ChannelExact (tdn tvn : Int) (pixel : Pixel) (byte : UInt8) :
    Prop where
  chroma : (chroma UInt32.ofInt tdn pixel).map number = chroma id tdn pixel
  channel : (channel UInt32.ofInt tvn
    (Imgconverter.chroma UInt32.ofInt tdn pixel)).map number =
      channel id tvn (Imgconverter.chroma id tdn pixel)
  divisor : (Imgconverter.chroma UInt32.ofInt tdn pixel).m2dC2dTdn ≠ 0
  small : (Imgconverter.channel UInt32.ofInt tvn
    (Imgconverter.chroma UInt32.ofInt tdn pixel)).quotient.toNat ≤ 255
  value : (byte.toNat : Int) =
    ⌊(3 * pixel.least / 4 + tvn / tdn * (255 + 3 * pixel.range) / 4 : ℚ)⌋

theorem tintChannel_exact (htdn : 0 < tdn ∧ tdn ≤ 255)
    (htvn : 0 ≤ tvn ∧ tvn ≤ tdn) (pixel : Pixel) :
    ChannelExact tdn tvn pixel (tintChannel tdn tvn pixel) := by
  have hdenotes := chroma_denotes htdn pixel
  have hproduct := (Denotes.of_int htvn.1 (htvn.2.trans htdn.2)
    (by decide)).mul hdenotes.c2M2d (by decide)
  have hsum := hdenotes.m2C2dTdn.add hproduct (by decide)
  have hle := quotient_le htdn.1 htvn.2 pixel
  have hquotient : Denotes (channel UInt32.ofInt tvn
      (chroma UInt32.ofInt tdn pixel)).quotient
      (channel id tvn (chroma id tdn pixel)).quotient 255 :=
    hsum.div hdenotes.m2dC2dTdn hle
  have hvalue := hquotient.value
  refine ⟨hdenotes.map, ?_, ?_, by omega, ?_⟩
  · apply Channel.ext
    · exact hproduct.value
    · exact hsum.value
    · exact hquotient.value
  · intro hzero
    obtain ⟨m2d, hpos, _, hm2d, _⟩ := chroma_eq tdn pixel
    have hword := hdenotes.m2dC2dTdn.value
    rw [hzero, hm2d] at hword
    have hproduct := Int.mul_pos hpos (Int.mul_pos (by decide : (0 : Int) < 4)
      htdn.1)
    exact absurd hword (Int.ne_of_lt hproduct)
  · rw [← quotient_floor htdn.1, tintChannel, UInt32.toNat_toUInt8]
    omega

end

/-! The image. -/

/-- A pixel, and what it becomes. -/
structure PixelExact (tint : Saturated) (pixel tinted : Pixel) : Prop where
  r : ChannelExact tint.tdn tint.trn pixel tinted.r
  g : ChannelExact tint.tdn tint.tgn pixel tinted.g
  b : ChannelExact tint.tdn tint.tbn pixel tinted.b
  a : tinted.a = pixel.a

theorem tintPixel_exact {tint : Saturated} (h : tint.Full) (pixel : Pixel) :
    PixelExact tint pixel (tintPixel tint pixel) :=
  ⟨tintChannel_exact h.tdn h.trn pixel, tintChannel_exact h.tdn h.tgn pixel,
    tintChannel_exact h.tdn h.tbn pixel, rfl⟩

theorem reshape_tobytes (pixels : List Pixel) :
    reshape (tobytes pixels) = pixels := by
  induction pixels with
  | nil => rfl
  | cons pixel rest ih =>
      change pixel :: reshape (tobytes rest) = pixel :: rest
      rw [ih]

theorem length_tobytes (pixels : List Pixel) :
    (tobytes pixels).length = pixels.length * 4 := by
  induction pixels with
  | nil => rfl
  | cons pixel rest ih =>
      change (tobytes rest).length + 4 = (rest.length + 1) * 4
      omega

theorem four_of_length {rgba : List UInt8} (h : 4 ≤ rgba.length) :
    ∃ r g b a rest, rgba = r :: g :: b :: a :: rest := by
  cases rgba with
  | nil => simp at h
  | cons r rest =>
      cases rest with
      | nil => simp at h
      | cons g rest =>
          cases rest with
          | nil => simp at h
          | cons b rest =>
              cases rest with
              | nil => simp at h
              | cons a rest => exact ⟨r, g, b, a, rest, rfl⟩

theorem length_reshape {count : Nat} {rgba : List UInt8}
    (h : rgba.length = count * 4) : (reshape rgba).length = count := by
  induction rgba using reshape.induct generalizing count with
  | case1 r g b a rest ih =>
      simp only [List.length_cons] at h
      have hrest := @ih (count - 1) (by omega)
      rw [reshape, List.length_cons, hrest]
      omega
  | case2 rgba hshort =>
      have hlength : rgba.length < 4 := by
        by_contra hlong
        obtain ⟨r, g, b, a, rest, rfl⟩ := four_of_length (not_lt.mp hlong)
        exact hshort r g b a rest rfl
      rw [reshape]
      · simp only [List.length_nil]
        omega
      · exact hshort

/-! The colour. -/

section

variable {text digits : List UInt8}

theorem pythonInt_digits (hne : text ≠ []) (h : AllDigits 16 text) :
    pythonInt text = some (value 16 text : Int) := by
  obtain ⟨byte, rest, rfl⟩ := List.exists_cons_of_ne_nil hne
  obtain ⟨hspace, hminus, hplus⟩ :=
    not_space_of_digit (h byte List.mem_cons_self)
  have hlast : ((byte :: rest).rdropWhile isSpace) = byte :: rest := by
    rw [List.rdropWhile_eq_self_iff]
    intro hne
    rw [(not_space_of_digit (h _ (List.getLast_mem hne))).1]
    decide
  have hstrip : ((byte :: rest).dropWhile isSpace).rdropWhile isSpace =
      byte :: rest := by
    rw [List.dropWhile_cons_of_neg (by simp [hspace]), hlast]
  have hsign : takeSign (byte :: rest) = (false, byte :: rest) := by
    rw [takeSign, if_neg hminus, if_neg hplus]
  have hall : ((byte :: rest).all (isDigit 16)) = true :=
    List.all_eq_true.mpr h
  rw [pythonInt, hstrip, hsign]
  simp [hall]

/-- The colour of six digits. -/
def colourOf (digits : List UInt8) : Colour where
  r := value 16 (digits.take 2)
  g := value 16 ((digits.drop 2).take 2)
  b := value 16 (digits.drop 4)

theorem AllDigits.sublist (h : AllDigits 16 digits)
    (hsub : ∀ byte ∈ text, byte ∈ digits) : AllDigits 16 text :=
  fun byte hbyte => h byte (hsub byte hbyte)

theorem hexToInt_eq (front : List UInt8) (hlength : digits.length = 6)
    (h : AllDigits 16 digits) :
    hexToInt (front ++ digits) = .ok (colourOf digits) := by
  have hdigits : (front ++ digits).drop ((front ++ digits).length - 6) =
      digits := by
    rw [List.length_append, hlength, Nat.add_sub_cancel, List.drop_left]
  have hne : ∀ {text : List UInt8}, text.length = 2 → text ≠ [] := by
    rintro text htwo rfl
    cases htwo
  have hr := pythonInt_digits (hne (by simp [hlength]))
    (AllDigits.sublist h fun byte => List.mem_of_mem_take (i := 2))
  have hg := pythonInt_digits (hne (by simp [hlength]))
    (AllDigits.sublist h fun byte hbyte =>
      List.mem_of_mem_drop (i := 2) (List.mem_of_mem_take (i := 2) hbyte))
  have hb := pythonInt_digits (hne (by simp [hlength]))
    (AllDigits.sublist h fun byte => List.mem_of_mem_drop (i := 4))
  rw [hexToInt, hdigits]
  simp only [hr, hg, hb]
  rfl

theorem colourOf_bytes (hlength : digits.length = 6) (h : AllDigits 16 digits) :
    (colourOf digits).Bytes := by
  have hbound : ∀ text : List UInt8, text.length = 2 →
      (∀ byte ∈ text, byte ∈ digits) →
        0 ≤ (value 16 text : Int) ∧ (value 16 text : Int) ≤ 255 := by
    intro text htwo hsub
    have hlt := value_lt (AllDigits.sublist h hsub)
    rw [htwo] at hlt
    omega
  refine ⟨?_, ?_, ?_⟩
  · exact hbound _ (by simp [hlength]) fun byte => List.mem_of_mem_take
  · exact hbound _ (by simp [hlength]) fun byte hbyte =>
      List.mem_of_mem_drop (List.mem_of_mem_take hbyte)
  · exact hbound _ (by simp [hlength]) fun byte => List.mem_of_mem_drop

end

/-- Every image and every colour of six digits: the numbers are exact, and the
size and the alpha stay. -/
theorem tint_exact (image : Image) (front digits : List UInt8)
    (hrgba : image.rgba.length = image.size.1 * image.size.2 * 4)
    (hlength : digits.length = 6) (hdigits : AllDigits 16 digits) :
    ∃ rgba, tint image (front ++ digits) = .ok ⟨rgba, image.size⟩ ∧
      rgba.length = image.rgba.length ∧
      List.Forall₂ (PixelExact (saturate (colourOf digits)))
        (reshape image.rgba) (reshape rgba) := by
  have hfull := saturate_full (colourOf_bytes hlength hdigits)
  refine ⟨tobytes ((reshape image.rgba).map
    (tintPixel (saturate (colourOf digits)))), ?_, ?_, ?_⟩
  · rw [tint, hexToInt_eq front hlength hdigits]
    change (if _ then _ else _) = _
    rw [if_neg (not_not.mpr hrgba)]
  · rw [length_tobytes, List.length_map, length_reshape hrgba, hrgba]
  · rw [reshape_tobytes, List.forall₂_map_right_iff, List.forall₂_same]
    exact fun pixel _ => tintPixel_exact hfull pixel

/-- A red pixel, and a grey tint. -/
theorem tint_exact_grey :
    ∃ rgba, tint ⟨[0xFF, 0x00, 0x00, 0x7F], (1, 1)⟩
        ([0x23] ++ [0x38, 0x30, 0x38, 0x30, 0x38, 0x30]) = .ok ⟨rgba, (1, 1)⟩ ∧
      rgba.length = 4 ∧
      List.Forall₂ (PixelExact ⟨1, 1, 1, 2⟩) [⟨0xFF, 0x00, 0x00, 0x7F⟩]
        (reshape rgba) :=
  tint_exact ⟨[0xFF, 0x00, 0x00, 0x7F], (1, 1)⟩ [0x23]
    [0x38, 0x30, 0x38, 0x30, 0x38, 0x30] rfl rfl (by decide)

end QubesUtils.Imgconverter
