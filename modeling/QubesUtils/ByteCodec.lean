/-
Fixed-width little-endian codecs.  A codec is a bijection between a type and
the byte strings of one length; records are products of codecs.
-/
import Mathlib.Data.List.Basic
import Mathlib.Algebra.Group.Nat.Defs

namespace ByteCodec

universe u v

/-- The `width` low bytes of a number, least significant first. -/
def bytes : Nat → Nat → List UInt8
  | 0, _ => []
  | width + 1, n => UInt8.ofNat n :: bytes width (n / 256)

/-- The number with the given bytes. -/
def value : List UInt8 → Nat
  | [] => 0
  | byte :: rest => byte.toNat + 256 * value rest

@[simp] theorem length_bytes (width n : Nat) :
    (bytes width n).length = width := by
  induction width generalizing n with
  | zero => rfl
  | succ width ih => rw [bytes, List.length_cons, ih]

theorem value_lt (text : List UInt8) : value text < 256 ^ text.length := by
  induction text with
  | nil => simp [value]
  | cons byte text ih =>
      have hbyte := byte.toNat_lt
      rw [value, List.length_cons, Nat.pow_succ]
      omega

theorem value_bytes (width n : Nat) :
    value (bytes width n) = n % 256 ^ width := by
  induction width generalizing n with
  | zero => simp [bytes, value, Nat.mod_one]
  | succ width ih =>
      have hsplit := @Nat.mod_mul 256 (256 ^ width) n
      have hpow : 256 ^ (width + 1) = 256 * 256 ^ width := by
        rw [Nat.pow_succ, Nat.mul_comm]
      rw [bytes, value, ih, UInt8.toNat_ofNat', hpow, hsplit]

theorem bytes_value (text : List UInt8) :
    bytes text.length (value text) = text := by
  induction text with
  | nil => rfl
  | cons byte text ih =>
      have hbyte := byte.toNat_lt
      have hrest : (byte.toNat + 256 * value text) / 256 = value text := by
        omega
      have hfirst : UInt8.ofNat (byte.toNat + 256 * value text) = byte := by
        apply UInt8.toNat_inj.mp
        rw [UInt8.toNat_ofNat']
        omega
      rw [List.length_cons, value, bytes, hrest, hfirst, ih]

theorem value_append (left right : List UInt8) :
    value (left ++ right) =
      value left + 256 ^ left.length * value right := by
  induction left with
  | nil => simp [value]
  | cons byte left ih =>
      rw [List.cons_append, value, ih, value, List.length_cons, Nat.pow_succ,
        Nat.mul_add, ← Nat.mul_assoc, Nat.mul_comm 256 (256 ^ left.length),
        Nat.add_assoc]

/-- Encodings of one length, inverse to each other. -/
structure Codec (α : Type u) where
  width : Nat
  put : α → List UInt8
  get : List UInt8 → α
  length_put : ∀ a, (put a).length = width
  get_put : ∀ a, get (put a) = a
  put_get : ∀ text, text.length = width → put (get text) = text

attribute [simp] Codec.length_put Codec.get_put

variable {α : Type u} {β : Type v}

/-- Unsigned integers of `width` bytes. -/
def unsigned (width : Nat) (toNat : α → Nat) (ofNat : Nat → α)
    (hlt : ∀ a, toNat a < 256 ^ width) (hleft : ∀ a, ofNat (toNat a) = a)
    (hright : ∀ n, n < 256 ^ width → toNat (ofNat n) = n) : Codec α where
  width := width
  put a := bytes width (toNat a)
  get text := ofNat (value text)
  length_put a := length_bytes width _
  get_put a := by rw [value_bytes, Nat.mod_eq_of_lt (hlt a), hleft]
  put_get text htext := by
    have hvalue : value text < 256 ^ width := htext ▸ value_lt text
    rw [hright _ hvalue, ← htext, bytes_value]

def u8 : Codec UInt8 :=
  unsigned 1 UInt8.toNat UInt8.ofNat (fun x => x.toNat_lt)
    (fun _ => UInt8.ofNat_toNat) fun _ h => UInt8.toNat_ofNat_of_lt' h

def u16 : Codec UInt16 :=
  unsigned 2 UInt16.toNat UInt16.ofNat (fun x => x.toNat_lt)
    (fun _ => UInt16.ofNat_toNat) fun _ h => UInt16.toNat_ofNat_of_lt' h

def u32 : Codec UInt32 :=
  unsigned 4 UInt32.toNat UInt32.ofNat (fun x => x.toNat_lt)
    (fun _ => UInt32.ofNat_toNat) fun _ h => UInt32.toNat_ofNat_of_lt' h

def u64 : Codec UInt64 :=
  unsigned 8 UInt64.toNat UInt64.ofNat (fun x => x.toNat_lt)
    (fun _ => UInt64.ofNat_toNat) fun _ h => UInt64.toNat_ofNat_of_lt' h

/-- An array of bytes. -/
def raw (n : Nat) : Codec (Vector UInt8 n) where
  width := n
  put v := v.toList
  get text := if h : text.length = n then ⟨text.toArray, h⟩
    else Vector.replicate n 0
  length_put v := v.length_toList
  get_put v := by
    rw [dif_pos v.length_toList]
    rfl
  put_get text htext := by
    rw [dif_pos htext]
    rfl

/-- One field after the other. -/
def Codec.prod (c : Codec α) (d : Codec β) : Codec (α × β) where
  width := c.width + d.width
  put x := c.put x.1 ++ d.put x.2
  get text := (c.get (text.take c.width), d.get (text.drop c.width))
  length_put x := by
    rw [List.length_append, c.length_put, d.length_put]
  get_put x := by
    have hleft := c.length_put x.1
    rw [List.take_left' hleft, List.drop_left' hleft, c.get_put, d.get_put]
  put_get text htext := by
    have hleft : (text.take c.width).length = c.width := by
      rw [List.length_take]
      omega
    have hright : (text.drop c.width).length = d.width := by
      rw [List.length_drop]
      omega
    rw [c.put_get _ hleft, d.put_get _ hright, List.take_append_drop]

/-- The same bytes read as another type. -/
def Codec.iso (c : Codec α) (pack : α → β) (unpack : β → α)
    (hleft : ∀ b, pack (unpack b) = b) (hright : ∀ a, unpack (pack a) = a) :
    Codec β where
  width := c.width
  put b := c.put (unpack b)
  get text := pack (c.get text)
  length_put b := c.length_put _
  get_put b := by rw [c.get_put, hleft]
  put_get text htext := by rw [hright, c.put_get text htext]

/-- The first field of a longer text. -/
theorem Codec.get_take_append (c : Codec α) (a : α) (rest : List UInt8) :
    c.get ((c.put a ++ rest).take c.width) = a := by
  rw [List.take_left' (c.length_put a), c.get_put]

/-- Encodings of the elements of a list, one after the other. -/
def Codec.putAll (c : Codec α) (items : List α) : List UInt8 :=
  items.flatMap c.put

def Codec.getAll (c : Codec α) : Nat → List UInt8 → List α
  | 0, _ => []
  | n + 1, text => c.get (text.take c.width) :: c.getAll n (text.drop c.width)

@[simp] theorem Codec.length_getAll (c : Codec α) (n : Nat)
    (text : List UInt8) : (c.getAll n text).length = n := by
  induction n generalizing text with
  | zero => rfl
  | succ n ih => rw [getAll, List.length_cons, ih]

@[simp] theorem Codec.length_putAll (c : Codec α) (items : List α) :
    (c.putAll items).length = items.length * c.width := by
  induction items with
  | nil => simp [putAll]
  | cons item items ih =>
      rw [putAll, List.flatMap_cons, List.length_append, c.length_put]
      rw [putAll] at ih
      rw [ih, List.length_cons, Nat.succ_mul, Nat.add_comm]

theorem Codec.getAll_putAll_append (c : Codec α) (items : List α)
    (rest : List UInt8) :
    c.getAll items.length (c.putAll items ++ rest) = items := by
  induction items with
  | nil => rfl
  | cons item items ih =>
      rw [putAll] at ih ⊢
      rw [List.flatMap_cons, List.length_cons, getAll, List.append_assoc,
        c.get_take_append, List.drop_left' (c.length_put item), ih]

end ByteCodec
