/-
`Image.tint`: the pixels get the hue of a colour.  The arithmetic is that of
`numpy` on `uint32`; it is written for any numbers, so that it can be looked at
without bounds.
-/
import QubesUtils.ImageStream

namespace QubesUtils.Imgconverter

open Numeral CNumber

inductive TintError
  | invalidInt
  | reshape
deriving DecidableEq

/-- `int(text, 0x10)` for a text of two characters. -/
def pythonInt (text : List UInt8) : Option Int :=
  let signed := takeSign ((text.dropWhile isSpace).rdropWhile isSpace)
  if signed.2 = [] ∨ signed.2.all (isDigit 16) = false then none
  else some (if signed.1 then -(value 16 signed.2 : Int) else value 16 signed.2)

structure Colour where
  r : Int
  g : Int
  b : Int
deriving DecidableEq

/-- `hex_to_int` with three channels of one byte. -/
def hexToInt (colour : List UInt8) : Except TintError Colour :=
  let digits := colour.drop (colour.length - 6)
  match pythonInt (digits.take 2), pythonInt ((digits.drop 2).take 2),
      pythonInt (digits.drop 4) with
  | some r, some g, some b => .ok ⟨r, g, b⟩
  | _, _, _ => .error .invalidInt

/-- The colour with maximum saturation: `trn/tdn`, `tgn/tdn` and `tbn/tdn`. -/
structure Saturated where
  trn : Int
  tgn : Int
  tbn : Int
  tdn : Int
deriving DecidableEq

def saturate (colour : Colour) : Saturated :=
  let tM := max (max colour.r colour.g) colour.b
  let tm := min (min colour.r colour.g) colour.b
  if tm = tM then ⟨1, 1, 1, 2⟩
  else ⟨colour.r - tm, colour.g - tm, colour.b - tm, tM - tm⟩

structure Pixel where
  r : UInt8
  g : UInt8
  b : UInt8
  a : UInt8
deriving DecidableEq

/-- What is computed for one pixel in front of the channels. -/
@[ext]
structure Chroma (α : Type) where
  c : α
  spread : α
  c2 : α
  room : α
  m2 : α
  gap : α
  gapC2d : α
  m2d : α
  m2C2dTdn : α
  m2dC2dTdn : α
  c2M2d : α

/-- What is computed for a channel. -/
@[ext]
structure Channel (α : Type) where
  product : α
  sum : α
  quotient : α

section

variable {α : Type} [Add α] [Sub α] [Mul α] [Div α] [Max α] (lift : Int → α)

/-- `Tn` and `Td`, which is `c2d` also -/
def tn : Int := 1
def td : Int := 4

def chroma (tdn : Int) (pixel : Pixel) : Chroma α :=
  let M := lift (max (max pixel.r pixel.g) pixel.b).toNat
  let m := lift (min (min pixel.r pixel.g) pixel.b).toNat
  let c := M - m
  let spread := lift (td - tn) * c
  let c2 := lift (tn * 255) + spread
  let room := lift (255 * td) - c2
  let m2 := room * m
  let gap := lift 255 - c
  let gapC2d := gap * lift td
  let m2d := max gapC2d (lift 1)
  { c := c
    spread := spread
    c2 := c2
    room := room
    m2 := m2
    gap := gap
    gapC2d := gapC2d
    m2d := m2d
    m2C2dTdn := m2 * lift (tdn * td)
    m2dC2dTdn := m2d * lift (tdn * td)
    c2M2d := c2 * m2d }

def channel (tvn : Int) (chroma : Chroma α) : Channel α :=
  let product := lift tvn * chroma.c2M2d
  let sum := chroma.m2C2dTdn + product
  { product := product
    sum := sum
    quotient := sum / chroma.m2dC2dTdn }

end

/-- A channel of the new pixel, as a `uint8`. -/
def tintChannel (tdn tvn : Int) (pixel : Pixel) : UInt8 :=
  (channel UInt32.ofInt tvn (chroma UInt32.ofInt tdn pixel)).quotient.toUInt8

def tintPixel (tint : Saturated) (pixel : Pixel) : Pixel where
  r := tintChannel tint.tdn tint.trn pixel
  g := tintChannel tint.tdn tint.tgn pixel
  b := tintChannel tint.tdn tint.tbn pixel
  a := pixel.a

def reshape : List UInt8 → List Pixel
  | r :: g :: b :: a :: rest => ⟨r, g, b, a⟩ :: reshape rest
  | _ => []

def tobytes (pixels : List Pixel) : List UInt8 :=
  pixels.flatMap fun pixel => [pixel.r, pixel.g, pixel.b, pixel.a]

/-- `Image.tint` -/
def tint (image : Image) (colour : List UInt8) : Except TintError Image := do
  let colour ← hexToInt colour
  if image.rgba.length ≠ image.size.1 * image.size.2 * 4 then
    .error .reshape
  else
    .ok ⟨tobytes ((reshape image.rgba).map (tintPixel (saturate colour))),
      image.size⟩

/-- The image of the test suite, and a blue tint. -/
example : (tint ⟨[0x00, 0x00, 0x00, 0xFF, 0xFF, 0x00, 0x00, 0xFF, 0x00, 0xFF,
      0x00, 0xFF, 0x00, 0x00, 0x00, 0xFF], (2, 2)⟩
    [0x23, 0x30, 0x30, 0x30, 0x30, 0x66, 0x66]).map Image.rgba =
      .ok [0x00, 0x00, 0x3F, 0xFF, 0x00, 0x00, 0xFF, 0xFF, 0x00, 0x00, 0xFF,
        0xFF, 0x00, 0x00, 0x3F, 0xFF] := by
  decide +kernel

end QubesUtils.Imgconverter
