/-
Images on a stream: a header with the width and the height, and the pixels.
They are read from a stream that waits, or from one of `asyncio`.
-/
import Mathlib.Data.List.DropRight
import QubesUtils.CNumber
import QubesUtils.Readers

namespace QubesUtils.Imgconverter

open Numeral CNumber Readers

structure Image where
  rgba : List UInt8
  size : Nat × Nat
deriving DecidableEq

inductive ImageError
  | tooManyDigits (digits : Nat)
  | noIcon
  | formatViolation
  | headerTooLong (length : Nat)
  | invalidInt
  | sizeViolation (width height maxWidth maxHeight : Nat)
  | dataLengthViolation (length expected : Nat)
  | read (error : ReadError)
deriving DecidableEq

def space : UInt8 := 0x20

/-- The digits that `int` and `str` convert, zeros in front included. -/
def maxStrDigits : Nat := 4300

def str (n : Nat) : Except ImageError (List UInt8) :=
  if maxStrDigits < (write 10 n).length then
    .error (.tooManyDigits (write 10 n).length)
  else
    .ok (write 10 n)

/-- `int` of a text of digits. -/
def int (text : List UInt8) : Except ImageError Nat :=
  if maxStrDigits < text.length then .error (.tooManyDigits text.length)
  else .ok (value 10 text)

def imghdrlen (w h : Nat) : Except ImageError Nat := do
  let width ← str w
  let height ← str h
  return width.length + height.length + 2

/-- `^\d+ \d+\n$`, where `$` is the end or a newline that ends the text. -/
def reImghdr (header : List UInt8) : Bool :=
  match header.dropWhile (isDigit 10) with
  | [] => false
  | byte :: rest =>
      !(header.takeWhile (isDigit 10)).isEmpty && byte == space &&
        !(rest.takeWhile (isDigit 10)).isEmpty &&
          (rest.dropWhile (isDigit 10) == [newline] ||
            rest.dropWhile (isDigit 10) == [newline, newline])

/-- `rstrip` and `split` -/
def words (text : List UInt8) : List (List UInt8) :=
  ((text.rdropWhile isSpace).splitOnP isSpace).filter (· ≠ [])

/-- `(int(i) for i in header.rstrip().split())` -/
def headerSize (header : List UInt8) : Except ImageError (Nat × Nat) :=
  match words header with
  | [width, height] => do return (← int width, ← int height)
  | _ => .error .invalidInt

section

variable (maxWidth maxHeight : Nat)

/-- The checks of a header that both functions make. -/
def parseHeader (header : List UInt8) : Except ImageError (Nat × Nat) :=
  if reImghdr header = false then .error .formatViolation
  else do
    let size ← headerSize header
    if 0 < size.1 ∧ size.1 ≤ maxWidth ∧ 0 < size.2 ∧ size.2 ≤ maxHeight then
      .ok size
    else
      .error (.sizeViolation size.1 size.2 maxWidth maxHeight)

/-- The error for data of another length than the size says. -/
def dataLengthError (length expected : Nat) : ImageError :=
  match str expected with
  | .error e => e
  | .ok _ => .dataLengthViolation length expected

def getFromStream (stream : BufferedReader) :
    Except ImageError (Image × BufferedReader) := do
  let maxhdrlen ← imghdrlen maxWidth maxHeight
  let line := BufferedReader.readline maxhdrlen stream.buffer stream.chunks
  if line.1.length = 0 then .error .noIcon
  else do
    let size ← parseHeader maxWidth maxHeight line.1
    let data := BufferedReader.read (size.1 * size.2 * 4) line.2.buffer
      line.2.chunks
    if data.1.length ≠ size.1 * size.2 * 4 then
      .error (dataLengthError data.1.length (size.1 * size.2 * 4))
    else
      .ok (⟨data.1, size⟩, data.2)

def getFromStreamAsync (reader : StreamReader) :
    Except ImageError (Image × StreamReader) := do
  let maxhdrlen ← imghdrlen maxWidth maxHeight
  let line ← reader.readline.mapError .read
  if line.1.length = 0 then .error .noIcon
  else if line.1.length > maxhdrlen then
    .error (.headerTooLong line.1.length)
  else
    let size ← parseHeader maxWidth maxHeight line.1
    let data ← (StreamReader.readexactly line.2.limit (size.1 * size.2 * 4)
      line.2.buffer line.2.chunks).mapError .read
    if data.1.length ≠ size.1 * size.2 * 4 then
      .error (dataLengthError data.1.length (size.1 * size.2 * 4))
    else
      .ok (⟨data.1, size⟩, data.2)

end

/-- `'{0[0]} {0[1]}\n'` and the pixels, as an image is sent. -/
def serialise (image : Image) : List UInt8 :=
  write 10 image.size.1 ++ space :: (write 10 image.size.2 ++
    newline :: image.rgba)

end QubesUtils.Imgconverter
