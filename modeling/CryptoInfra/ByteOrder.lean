import Mathlib.Algebra.Ring.Nat
import Mathlib.Tactic.Common

/-!
# Byte orders

A number below `256 ^ width` is a word of `width` bytes. This file fixes the two byte orders of such
words, their round trips, and the byte swap between them.
-/

namespace ByteOrder

/-- The `width` low bytes of a value, least significant byte first. -/
def toLittle : (width value : ℕ) → List UInt8
  | 0, _ => []
  | width + 1, value => UInt8.ofNat value :: toLittle width (value / 256)

/-- The value of bytes whose least significant byte comes first. -/
def ofLittle : (bytes : List UInt8) → ℕ
  | [] => 0
  | byte :: bytes => byte.toNat + 256 * ofLittle bytes

/-- The `width` low bytes of a value, most significant byte first. -/
def toBig (width value : ℕ) : List UInt8 := (toLittle width value).reverse

/-- The value of bytes whose most significant byte comes first. -/
def ofBig (bytes : List UInt8) : ℕ := ofLittle bytes.reverse

@[simp]
theorem length_toLittle (width value : ℕ) : (toLittle width value).length = width := by
  induction width generalizing value with
  | zero => rfl
  | succ width induction => simp [toLittle, induction]

@[simp]
theorem length_toBig (width value : ℕ) : (toBig width value).length = width := by
  simp [toBig]

theorem ofLittle_lt (bytes : List UInt8) : ofLittle bytes < 256 ^ bytes.length := by
  induction bytes with
  | nil => simp [ofLittle]
  | cons byte bytes induction =>
      have byte_lt := byte.toNat_lt
      rw [ofLittle, List.length_cons, pow_succ]
      omega

theorem ofBig_lt (bytes : List UInt8) : ofBig bytes < 256 ^ bytes.length := by
  simpa [ofBig] using ofLittle_lt bytes.reverse

theorem ofLittle_toLittle {width value : ℕ} (fits : value < 256 ^ width) :
    ofLittle (toLittle width value) = value := by
  induction width generalizing value with
  | zero =>
      rw [pow_zero, Nat.lt_one_iff] at fits
      rw [fits]
      rfl
  | succ width induction =>
      have rest : value / 256 < 256 ^ width := by
        rw [pow_succ] at fits
        omega
      rw [toLittle, ofLittle, induction rest, UInt8.toNat_ofNat']
      omega

theorem toLittle_ofLittle (bytes : List UInt8) :
    toLittle bytes.length (ofLittle bytes) = bytes := by
  induction bytes with
  | nil => rfl
  | cons byte bytes induction =>
      have byte_lt : byte.toNat < 256 := byte.toNat_lt
      have quotient : (byte.toNat + 256 * ofLittle bytes) / 256 = ofLittle bytes := by omega
      have low : UInt8.ofNat (byte.toNat + 256 * ofLittle bytes) = byte := by
        apply UInt8.toNat_inj.mp
        rw [UInt8.toNat_ofNat']
        omega
      rw [List.length_cons, ofLittle, toLittle, low, quotient, induction]

/-- A word is read back from its bytes. -/
theorem ofBig_toBig {width value : ℕ} (fits : value < 256 ^ width) :
    ofBig (toBig width value) = value := by
  rw [ofBig, toBig, List.reverse_reverse, ofLittle_toLittle fits]

/-- Bytes are written back from their word. -/
theorem toBig_ofBig (bytes : List UInt8) : toBig bytes.length (ofBig bytes) = bytes := by
  have written := toLittle_ofLittle bytes.reverse
  rw [List.length_reverse] at written
  rw [toBig, ofBig, written, List.reverse_reverse]

/-- Words of the same width are equal exactly when their bytes are. -/
theorem ofBig_inj {left right : List UInt8} (lengths : left.length = right.length) :
    ofBig left = ofBig right ↔ left = right := by
  constructor
  · intro values
    rw [← toBig_ofBig left, ← toBig_ofBig right, values, lengths]
  · exact congrArg ofBig

/-- Exchange the byte orders of a word. -/
def swap (width value : ℕ) : ℕ := ofLittle (toBig width value)

/-- Swapping a word loaded in the one order gives the word in the other. -/
theorem swap_ofLittle (bytes : List UInt8) : swap bytes.length (ofLittle bytes) = ofBig bytes := by
  rw [swap, toBig, toLittle_ofLittle, ofBig]

/-- Storing a swapped word in the one order stores the word in the other. -/
theorem toLittle_swap {width : ℕ} (value : ℕ) :
    toLittle width (swap width value) = toBig width value := by
  have written := toLittle_ofLittle (toBig width value)
  rwa [length_toBig] at written

end ByteOrder
