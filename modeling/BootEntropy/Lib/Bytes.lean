import Mathlib.Data.List.Basic
import Mathlib.Tactic.Ring

/-!
# Byte strings and fixed-width integers

Lists of octets, arrays of a fixed size, and the two byte orders. Every wire
layout is written over these, so a layout proof only has to move lists around.
-/

namespace BootEntropy.Lib

set_option autoImplicit false

abbrev Bytes := List UInt8

/-- A C array of exactly `count` bytes. The length travels with the value. -/
abbrev Block (count : Nat) := { bytes : Bytes // bytes.length = count }

def zeroBlock (count : Nat) : Block count :=
  ⟨List.replicate count 0, List.length_replicate⟩

/-- Little-endian digits of `value`, silently truncated to `width` bytes as an
unsigned store is. -/
def leBytes : Nat → Nat → Bytes
  | 0, _ => []
  | width + 1, value => UInt8.ofNat value :: leBytes width (value / 256)

def leValue : Bytes → Nat
  | [] => 0
  | byte :: rest => byte.toNat + 256 * leValue rest

def beBytes (width value : Nat) : Bytes := (leBytes width value).reverse

def beValue (bytes : Bytes) : Nat := leValue bytes.reverse

/-- The `len` bytes at offset `off`. -/
def slice (bytes : Bytes) (off len : Nat) : Bytes := (bytes.drop off).take len

/-- `memcpy(&bytes[off], source, sizeof(source))`. -/
def store (bytes : Bytes) (off : Nat) (source : Bytes) : Bytes :=
  bytes.take off ++ source ++ bytes.drop (off + source.length)

@[simp] theorem le_bytes_length (width value : Nat) : (leBytes width value).length = width := by
  induction width generalizing value with
  | zero => rfl
  | succ width ih => simp [leBytes, ih]

@[simp] theorem be_bytes_length (width value : Nat) : (beBytes width value).length = width := by
  simp [beBytes]

theorem le_value_bytes (width value : Nat) :
    leValue (leBytes width value) = value % 256 ^ width := by
  induction width generalizing value with
  | zero => simp [leBytes, leValue, Nat.mod_one]
  | succ width ih =>
      have byte : (UInt8.ofNat value).toNat = value % 256 := UInt8.toNat_ofNat'
      rw [leBytes, leValue, ih, byte, Nat.pow_succ, Nat.mul_comm (256 ^ width) 256, Nat.mod_mul]

theorem le_value_bytes_of_lt {width value : Nat} (fits : value < 256 ^ width) :
    leValue (leBytes width value) = value := by
  rw [le_value_bytes, Nat.mod_eq_of_lt fits]

theorem le_value_lt (bytes : Bytes) : leValue bytes < 256 ^ bytes.length := by
  induction bytes with
  | nil => simp [leValue]
  | cons byte rest ih =>
      have bounded : byte.toNat < 256 := byte.toNat_lt
      simp only [leValue, List.length_cons, pow_succ]
      omega

theorem le_bytes_value (bytes : Bytes) : leBytes bytes.length (leValue bytes) = bytes := by
  induction bytes with
  | nil => rfl
  | cons byte rest ih =>
      have bounded : byte.toNat < 256 := byte.toNat_lt
      have quotient : (byte.toNat + 256 * leValue rest) / 256 = leValue rest := by omega
      have digit : UInt8.ofNat (byte.toNat + 256 * leValue rest) = byte := by
        apply UInt8.toNat_inj.mp
        rw [UInt8.toNat_ofNat']
        omega
      simp only [List.length_cons, leBytes, leValue, quotient, digit, ih]

theorem slice_length (bytes : Bytes) (off len : Nat) (fits : off + len ≤ bytes.length) :
    (slice bytes off len).length = len := by
  simp only [slice, List.length_take, List.length_drop]
  omega

theorem slice_append_slice (bytes : Bytes) (off left right : Nat) :
    slice bytes off left ++ slice bytes (off + left) right = slice bytes off (left + right) := by
  rw [slice, slice, slice, List.take_add, List.drop_drop]

theorem le_bytes_slice {bytes : Bytes} {off len : Nat} (fits : off + len ≤ bytes.length) :
    leBytes len (leValue (slice bytes off len)) = slice bytes off len := by
  have digits := le_bytes_value (slice bytes off len)
  rwa [slice_length bytes off len fits] at digits

theorem le_value_slice_lt (bytes : Bytes) (off len : Nat) :
    leValue (slice bytes off len) < 256 ^ len := by
  have short : (slice bytes off len).length ≤ len := List.length_take_le _ _
  exact lt_of_lt_of_le (le_value_lt _) (Nat.pow_le_pow_right (by decide) short)

theorem be_bytes_slice {bytes : Bytes} {off len : Nat} (fits : off + len ≤ bytes.length) :
    beBytes len (beValue (slice bytes off len)) = slice bytes off len := by
  have digits := le_bytes_value (slice bytes off len).reverse
  rw [List.length_reverse, slice_length bytes off len fits] at digits
  rw [beBytes, beValue, digits, List.reverse_reverse]

theorem be_value_slice_lt (bytes : Bytes) (off len : Nat) :
    beValue (slice bytes off len) < 256 ^ len := by
  have short : (slice bytes off len).reverse.length ≤ len := by
    rw [List.length_reverse]
    exact List.length_take_le _ _
  exact lt_of_lt_of_le (le_value_lt _) (Nat.pow_le_pow_right (by decide) short)

theorem be_value_bytes_of_lt {width value : Nat} (fits : value < 256 ^ width) :
    beValue (beBytes width value) = value := by
  rw [beBytes, beValue, List.reverse_reverse, le_value_bytes_of_lt fits]

theorem slice_one {bytes : Bytes} {off : Nat} (inside : off < bytes.length) :
    slice bytes off 1 = [bytes.getD off 0] := by
  rw [slice, List.drop_eq_getElem_cons inside, List.getD_eq_getElem?_getD,
    List.getElem?_eq_getElem inside]
  rfl

theorem slice_take {bytes : Bytes} {off len limit : Nat} (inside : off + len ≤ limit) :
    slice (bytes.take limit) off len = slice bytes off len := by
  rw [slice, slice, List.drop_take, List.take_take, min_eq_left (by omega)]

theorem store_length (bytes : Bytes) (off : Nat) (source : Bytes)
    (fits : off + source.length ≤ bytes.length) :
    (store bytes off source).length = bytes.length := by
  rw [store, List.length_append, List.length_append, List.length_take, List.length_drop]
  omega

theorem store_get_inside {bytes source : Bytes} {off index : Nat} (room : off ≤ bytes.length)
    (lower : off ≤ index) (upper : index < off + source.length) :
    (store bytes off source)[index]? = source[index - off]? := by
  have front : (bytes.take off).length = off := List.length_take_of_le room
  rw [store, List.append_assoc, List.getElem?_append_right (by omega), front,
    List.getElem?_append_left (by omega)]

theorem store_get_outside {bytes source : Bytes} {off index : Nat}
    (room : off + source.length ≤ bytes.length)
    (outside : index < off ∨ off + source.length ≤ index) :
    (store bytes off source)[index]? = bytes[index]? := by
  have front : (bytes.take off).length = off := List.length_take_of_le (by omega)
  rw [store, List.append_assoc]
  rcases outside with before | behind
  · rw [List.getElem?_append_left (by omega), List.getElem?_take_of_lt before]
  · rw [List.getElem?_append_right (by omega), List.getElem?_append_right (by omega), front,
      List.getElem?_drop]
    congr 1
    omega

theorem store_zeros (source : Bytes) (left : Nat) {written : Bytes} {off : Nat}
    (behind : written.length = off) :
    store (written ++ List.replicate (source.length + left) 0) off source =
      (written ++ source) ++ List.replicate left 0 := by
  rw [store, ← behind, List.take_left, ← List.drop_drop, List.drop_left, List.drop_replicate,
    Nat.add_sub_cancel_left]

/-- `struct.unpack` of one little-endian field: its value and the rest. -/
def unpackLe (width : Nat) (bytes : Bytes) : Nat × Bytes :=
  (leValue (bytes.take width), bytes.drop width)

theorem unpack_le_bytes (width value : Nat) (rest : Bytes) :
    unpackLe width (leBytes width value ++ rest) = (value % 256 ^ width, rest) := by
  rw [unpackLe, List.take_left' (le_bytes_length width value),
    List.drop_left' (le_bytes_length width value), le_value_bytes]

def unpackBe (width : Nat) (bytes : Bytes) : Nat × Bytes :=
  (beValue (bytes.take width), bytes.drop width)

/-! ## Layouts -/

theorem slice_flatten {fields : List Bytes} {field : Bytes} {off len : Nat} (index : Nat)
    (here : fields[index]? = some field) (front : (fields.take index).flatten.length = off)
    (width : field.length = len) : slice fields.flatten off len = field := by
  obtain ⟨inside, rfl⟩ := List.getElem?_eq_some_iff.mp here
  have split : fields.flatten =
      (fields.take index).flatten ++ (fields[index] ++ (fields.drop (index + 1)).flatten) := by
    rw [← List.flatten_cons, ← List.drop_eq_getElem_cons inside, ← List.flatten_append,
      List.take_append_drop]
  rw [slice, split, ← front, List.drop_left, List.take_left' width]

def cut : List Nat → Bytes → List Bytes
  | [], _ => []
  | width :: widths, bytes => bytes.take width :: cut widths (bytes.drop width)

theorem cut_flatten (widths : List Nat) (bytes : Bytes) :
    (cut widths bytes).flatten = bytes.take widths.sum := by
  induction widths generalizing bytes with
  | nil => rw [cut, List.flatten_nil, List.sum_nil, List.take_zero]
  | cons width widths ih => rw [cut, List.flatten_cons, ih, List.sum_cons, List.take_add]

/-! ## Bits -/

theorem shifted_bit (value bit : Nat) : value >>> bit &&& 1 = (value.testBit bit).toNat := by
  rw [Nat.toNat_testBit, Nat.and_one_is_mod, Nat.shiftRight_eq_div_pow]

end BootEntropy.Lib
