import BlindSign.Proofs.Net.Writing
import BlindSign.Proofs.Trimming
import BlindSign.Settings

set_option autoImplicit false

/-! # Formats of values

The values of variables have five types of numbers and one of addresses. What they have in common is
a format: which texts denote a value, and which of them is written for it (`Format`). Its laws say
that just the texts that denote a value are read as it, that a value is denoted just if it is within
bounds, and then by what is written for it, and that no such text is empty or has a blank character
in it.

**So what is written for a value is left of it when the blank characters around it are dropped**
(`Format.trim_eq_text`), and is read as this value.
-/

namespace BlindSign.Settings

open Numeral

/-- A format for the values of a type. -/
structure Format (α : Type) where
  /-- How a text is read. -/
  read : String → Except ValueFault α
  /-- Which texts denote a value. -/
  Denotes : List Char → α → Prop
  /-- Which values have a text. -/
  Fits : α → Prop
  /-- The text that is written for a value. -/
  text : α → String
  read_eq_ok_iff {s : String} {a : α} : read s = .ok a ↔ Denotes s.toList a
  denotes_text {a : α} : Fits a → Denotes (text a).toList a
  fits {cs : List Char} {a : α} : Denotes cs a → Fits a
  isBlank_eq_false {cs : List Char} {a : α} : Denotes cs a → ∀ c ∈ cs, Text.isBlank c = false
  ne_nil {cs : List Char} {a : α} : Denotes cs a → cs ≠ []

namespace Format

variable {α : Type} (format : Format α) {a : α}

theorem text_ne_empty (h : format.Fits a) : format.text a ≠ "" := fun hempty =>
  format.ne_nil (format.denotes_text h) (String.toList_eq_nil_iff.2 hempty)

/-- What is written for a value is what is left of it between blank characters. -/
theorem trim_eq_text {value : String} (h : format.Fits a)
    (hvalue : Text.IsPadded value (format.text a)) : Text.trim value = format.text a :=
  Text.trim_of_isPadded hvalue (format.isBlank_eq_false (format.denotes_text h))
    (format.text_ne_empty h)

end Format

/-! ## Integers -/

/-- A type whose values stand for the integers within bounds. -/
structure IntegerType (α : Type) where
  /-- The integers that have a value. -/
  bounds : Bounds
  /-- The value of an integer. -/
  ofInt : Int → α
  /-- The integer of a value. -/
  toInt : α → Int
  contains_zero : bounds.contains 0 = true
  ofInt_toInt (a : α) : ofInt (toInt a) = a
  toInt_ofInt {z : Int} : bounds.contains z = true → toInt (ofInt z) = z

namespace IntegerType

variable {α : Type} (type : IntegerType α) {a : α} {z : Int} {s : String} {cs : List Char}

def read (s : String) : Except ValueFault α := (readInteger type.bounds s).map type.ofInt

theorem readInteger_eq_ok_iff :
    readInteger type.bounds s = .ok z ↔ IsNumeral 10 type.bounds s.toList z := by
  rw [← read_eq_ok_iff type.contains_zero]
  unfold readInteger readDecimal
  cases Numeral.read 10 type.bounds s.toList with
  | error fault => simp [Except.mapError]
  | ok n => simp [Except.mapError]

theorem read_eq_ok_iff : type.read s = .ok a ↔ IsNumeral 10 type.bounds s.toList (type.toInt a) := by
  rw [← type.readInteger_eq_ok_iff, read]
  cases hread : readInteger type.bounds s with
  | error fault => simp [Except.map]
  | ok z =>
      -- what was read lies within the bounds, where integers and values stand for one another
      have hz := (type.readInteger_eq_ok_iff.1 hread).contains
      simp only [Except.map, Except.ok.injEq]
      constructor
      · rintro rfl
        exact (type.toInt_ofInt hz).symm
      · rintro rfl
        exact type.ofInt_toInt a

theorem isBlank_eq_false (h : IsNumeral 10 type.bounds cs (type.toInt a)) :
    ∀ c ∈ cs, Text.isBlank c = false :=
  h.spells.isBlank_eq_false

theorem ne_nil (h : IsNumeral 10 type.bounds cs (type.toInt a)) : cs ≠ [] := h.spells.ne_nil

theorem denotes_text (h : type.bounds.contains (type.toInt a) = true) :
    IsNumeral 10 type.bounds (String.ofList (integerChars (type.toInt a))).toList (type.toInt a) := by
  rw [String.toList_ofList]
  exact isNumeral_integerChars h

/-- The decimal numerals of the values within the bounds, written without plus signs and without
zeros in front. -/
def format : Format α where
  read := type.read
  Denotes cs a := IsNumeral 10 type.bounds cs (type.toInt a)
  Fits a := type.bounds.contains (type.toInt a) = true
  text a := String.ofList (integerChars (type.toInt a))
  read_eq_ok_iff := type.read_eq_ok_iff
  denotes_text := type.denotes_text
  fits := IsNumeral.contains
  isBlank_eq_false := type.isBlank_eq_false
  ne_nil := type.ne_nil

end IntegerType

theorem toInt_ofInt_uint64 {z : Int} (h : (Bounds.unsigned 64).contains z = true) :
    ((UInt64.ofNat z.toNat).toNat : Int) = z := by
  obtain ⟨n, rfl, hn⟩ := contains_unsigned_iff.1 h
  rw [Int.toNat_natCast, UInt64.toNat_ofNat_of_lt' hn]

theorem toInt_ofInt_uint32 {z : Int} (h : (Bounds.unsigned 32).contains z = true) :
    ((UInt32.ofNat z.toNat).toNat : Int) = z := by
  obtain ⟨n, rfl, hn⟩ := contains_unsigned_iff.1 h
  rw [Int.toNat_natCast, UInt32.toNat_ofNat_of_lt' hn]

theorem toInt_ofInt_amount {z : Int} (h : (Bounds.unsigned 128).contains z = true) :
    (z.toNat : Int) = z := by
  obtain ⟨n, rfl, _⟩ := contains_unsigned_iff.1 h
  rfl

theorem toInt_ofInt_int64 {z : Int} (h : (Bounds.signed 64).contains z = true) :
    (Int64.ofInt z).toInt = z := by
  obtain ⟨hleast, hgreatest⟩ := contains_iff.1 h
  apply Int64.toInt_ofInt_of_le
  · exact hleast
  · exact Int.lt_of_le_sub_one hgreatest

theorem ofInt_toInt_uint64 (a : UInt64) : UInt64.ofNat (a.toNat : Int).toNat = a :=
  UInt64.ofNat_toNat

theorem ofInt_toInt_uint32 (a : UInt32) : UInt32.ofNat (a.toNat : Int).toNat = a :=
  UInt32.ofNat_toNat

theorem contains_signed_zero : (Bounds.signed 64).contains 0 = true := by decide

def uint64 : IntegerType UInt64 where
  bounds := .unsigned 64
  ofInt z := UInt64.ofNat z.toNat
  toInt a := a.toNat
  contains_zero := contains_unsigned_zero 64
  ofInt_toInt := ofInt_toInt_uint64
  toInt_ofInt := toInt_ofInt_uint64

def uint32 : IntegerType UInt32 where
  bounds := .unsigned 32
  ofInt z := UInt32.ofNat z.toNat
  toInt a := a.toNat
  contains_zero := contains_unsigned_zero 32
  ofInt_toInt := ofInt_toInt_uint32
  toInt_ofInt := toInt_ofInt_uint32

def int64 : IntegerType Int64 where
  bounds := .signed 64
  ofInt := Int64.ofInt
  toInt := Int64.toInt
  contains_zero := contains_signed_zero
  ofInt_toInt := Int64.ofInt_toInt
  toInt_ofInt := toInt_ofInt_int64

def amount : IntegerType Nat where
  bounds := .unsigned 128
  ofInt := Int.toNat
  toInt n := n
  contains_zero := contains_unsigned_zero 128
  ofInt_toInt := Int.toNat_natCast
  toInt_ofInt := toInt_ofInt_amount

/-! ## Addresses -/

theorem readAddress_eq_ok_iff {s : String} {x : Net.SocketAddress} :
    readAddress s = .ok x ↔ x.IsWrittenIn s.toList := by
  rw [← Net.SocketAddress.ofChars?_eq_some_iff, readAddress, Net.SocketAddress.ofText?]
  cases Net.SocketAddress.ofChars? s.toList with
  | none => simp
  | some y => simp

theorem isWrittenIn_text (x : Net.SocketAddress) : x.IsWrittenIn x.text.toList := by
  rw [Net.SocketAddress.text, String.toList_ofList]
  exact x.isWrittenIn_chars

theorem ne_nil_of_isWrittenIn {x : Net.SocketAddress} {cs : List Char} (h : x.IsWrittenIn cs) :
    cs ≠ [] := by
  cases h with
  | v4 _ _ => simp
  | v6 _ _ _ => exact List.cons_ne_nil _ _

def socketAddress : Format Net.SocketAddress where
  read := readAddress
  Denotes cs x := x.IsWrittenIn cs
  Fits _ := True
  text := Net.SocketAddress.text
  read_eq_ok_iff := readAddress_eq_ok_iff
  denotes_text _ := isWrittenIn_text _
  fits _ := trivial
  isBlank_eq_false := Net.SocketAddress.IsWrittenIn.isBlank_eq_false
  ne_nil := ne_nil_of_isWrittenIn

end BlindSign.Settings
