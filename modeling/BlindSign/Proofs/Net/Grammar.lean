import BlindSign.Net.Address
import BlindSign.Proofs.Integers

set_option autoImplicit false

/-! # Texts of addresses

The texts that denote addresses, part by part. A version 4 address has four decimal octets without
zeros in front. A version 6 address has eight groups of up to four hexadecimal digits in either case,
or fewer and `::` for the zero groups that are left out; its last two groups may be written as a
version 4 address. A socket address has a port after it, and a version 6 address with its zone, if it
has one, stands in brackets there. None of it is blank.

These are all texts that are read, not only those that are written: groups may have zeros in front,
and `::` may stand for any zero groups, even for a single one.
-/

namespace BlindSign.Net

open Numeral

/-- Digits of a number below a bound. How many there may be can be limited, and zeros in front of a
number can be excluded. -/
structure IsNumber (radix bound : Nat) (most : Option Nat) (leadingZero : Bool) (cs : List Char)
    (n : Nat) : Prop where
  spells : Spells radix cs n
  lt : n < bound
  length_le : ∀ m ∈ most, cs.length ≤ m
  zero : leadingZero = false → cs.head? = some '0' → cs.length = 1

def IsOctet (cs : List Char) (x : UInt8) : Prop := IsNumber 10 256 (some 3) false cs x.toNat

def IsGroup (cs : List Char) (g : UInt16) : Prop := IsNumber 16 65536 (some 4) true cs g.toNat

def IsPort (cs : List Char) (port : UInt16) : Prop := IsNumber 10 65536 none true cs port.toNat

/-- A text of a version 4 address: four octets with dots between them. -/
inductive V4Address.IsWrittenIn : V4Address → List Char → Prop
  | octets {a b c d : UInt8} {as bs cs ds : List Char} (ha : IsOctet as a) (hb : IsOctet bs b)
      (hc : IsOctet cs c) (hd : IsOctet ds d) :
      IsWrittenIn ⟨a, b, c, d⟩ (as ++ '.' :: (bs ++ '.' :: (cs ++ '.' :: ds)))

/-- The two groups that a version 4 address makes. -/
def V4Address.groups (x : V4Address) : List UInt16 :=
  [(x.a.toNat * 256 + x.b.toNat).toUInt16, (x.c.toNat * 256 + x.d.toNat).toUInt16]

/-- What stands in front of a group: a colon, unless it is the first one. -/
def separator (isFirst : Bool) : List Char := if isFirst then [] else [':']

/-- A text of groups with colons between them, and whether it ends in a version 4 address, which
makes the last two groups. -/
inductive Groups : Bool → List Char → List UInt16 → Bool → Prop
  | nil (isFirst : Bool) : Groups isFirst [] [] false
  | embedded (isFirst : Bool) {cs : List Char} {x : V4Address} (h : x.IsWrittenIn cs) :
      Groups isFirst (separator isFirst ++ cs) x.groups true
  | cons (isFirst : Bool) {cs rest : List Char} {g : UInt16} {gs : List UInt16} {endsInV4 : Bool}
      (hg : IsGroup cs g) (h : Groups false rest gs endsInV4) :
      Groups isFirst (separator isFirst ++ (cs ++ rest)) (g :: gs) endsInV4

/-- A text of a version 6 address: all groups, or some of them and `::` for zeros. -/
inductive V6Address.IsWrittenIn (x : V6Address) : List Char → Prop
  | full {cs : List Char} {endsInV4 : Bool} (h : Groups true cs x.groups endsInV4) :
      IsWrittenIn x cs
  | short {front back : List Char} {gs hs : List UInt16} {endsInV4 : Bool}
      (hfront : Groups true front gs false) (hback : Groups true back hs endsInV4)
      (hlength : gs.length + hs.length < 8)
      (hx : x.groups = gs ++ List.replicate (8 - gs.length - hs.length) 0 ++ hs) :
      IsWrittenIn x (front ++ ':' :: ':' :: back)

def Address.IsWrittenIn : Address → List Char → Prop
  | .v4 x, cs => x.IsWrittenIn cs
  | .v6 x, cs => x.IsWrittenIn cs

/-- A text of a zone: nothing for none, or its number after a percent sign. -/
inductive IsZone : List Char → UInt32 → Prop
  | none : IsZone [] 0
  | number {cs : List Char} {zone : UInt32}
      (h : IsNumber 10 UInt32.size none true cs zone.toNat) : IsZone ('%' :: cs) zone

inductive SocketAddress.IsWrittenIn : SocketAddress → List Char → Prop
  | v4 {x : V4Address} {port : UInt16} {cs ps : List Char} (hx : x.IsWrittenIn cs)
      (hp : IsPort ps port) : IsWrittenIn (.v4 x port) (cs ++ ':' :: ps)
  | v6 {x : V6Address} {port : UInt16} {zone : UInt32} {cs zs ps : List Char}
      (hx : x.IsWrittenIn cs) (hz : IsZone zs zone) (hp : IsPort ps port) :
      IsWrittenIn (.v6 x port zone) ('[' :: (cs ++ (zs ++ ']' :: ':' :: ps)))

/-! ## Characters -/

section

variable {p : Char → Prop} {cs : List Char}

/-- A number is made of digits of radix sixteen. -/
theorem IsNumber.forall_mem {radix bound n : Nat} {most : Option Nat} {leadingZero : Bool}
    (h : IsNumber radix bound most leadingZero cs n) (hdigit : ∀ c d, IsDigit 16 c d → p c) :
    ∀ c ∈ cs, p c := by
  intro c hc
  obtain ⟨d, hd⟩ := Option.isSome_iff_exists.1 ((spells_iff.1 h.spells).2.1 c hc)
  obtain ⟨-, hsixteen, hchar⟩ := digit?_eq_some_iff.1 hd
  exact hdigit c d ⟨hsixteen, hsixteen, hchar⟩

/-- What holds of digits and of the dot holds of all characters of a version 4 address. -/
theorem V4Address.IsWrittenIn.forall_mem {x : V4Address} (h : x.IsWrittenIn cs)
    (hdigit : ∀ c d, IsDigit 16 c d → p c) (hdot : p '.') : ∀ c ∈ cs, p c := by
  obtain ⟨ha, hb, hc, hd⟩ := h
  simp only [List.forall_mem_append, List.forall_mem_cons]
  exact ⟨ha.forall_mem hdigit, hdot, hb.forall_mem hdigit, hdot, hc.forall_mem hdigit, hdot,
    hd.forall_mem hdigit⟩

theorem forall_mem_separator (hcolon : p ':') (isFirst : Bool) : ∀ c ∈ separator isFirst, p c := by
  cases isFirst with
  | true => exact List.forall_mem_nil _
  | false => exact List.forall_mem_cons.2 ⟨hcolon, List.forall_mem_nil _⟩

theorem Groups.forall_mem {isFirst : Bool} {gs : List UInt16} {endsInV4 : Bool}
    (h : Groups isFirst cs gs endsInV4) (hdigit : ∀ c d, IsDigit 16 c d → p c) (hdot : p '.')
    (hcolon : p ':') : ∀ c ∈ cs, p c := by
  induction h with
  | nil isFirst => exact List.forall_mem_nil _
  | embedded isFirst h =>
      exact List.forall_mem_append.2
        ⟨forall_mem_separator hcolon isFirst, h.forall_mem hdigit hdot⟩
  | cons isFirst hg _ ih =>
      simp only [List.forall_mem_append]
      exact ⟨forall_mem_separator hcolon isFirst, hg.forall_mem hdigit, ih⟩

theorem V6Address.IsWrittenIn.forall_mem {x : V6Address} (h : x.IsWrittenIn cs)
    (hdigit : ∀ c d, IsDigit 16 c d → p c) (hdot : p '.') (hcolon : p ':') : ∀ c ∈ cs, p c := by
  cases h with
  | full h => exact h.forall_mem hdigit hdot hcolon
  | short hfront hback hlength hx =>
      simp only [List.forall_mem_append, List.forall_mem_cons]
      exact ⟨hfront.forall_mem hdigit hdot hcolon, hcolon, hcolon,
        hback.forall_mem hdigit hdot hcolon⟩

/-- **What holds of digits, of the dot and of the colon holds of all characters of an address.** -/
theorem Address.IsWrittenIn.forall_mem {x : Address} (h : x.IsWrittenIn cs)
    (hdigit : ∀ c d, IsDigit 16 c d → p c) (hdot : p '.') (hcolon : p ':') : ∀ c ∈ cs, p c := by
  cases x with
  | v4 x => exact V4Address.IsWrittenIn.forall_mem h hdigit hdot
  | v6 x => exact V6Address.IsWrittenIn.forall_mem h hdigit hdot hcolon

end

/-! ## No blank characters -/

theorem V4Address.IsWrittenIn.isBlank_eq_false {x : V4Address} {cs : List Char}
    (h : x.IsWrittenIn cs) : ∀ c ∈ cs, Text.isBlank c = false :=
  h.forall_mem (fun _ _ hd => hd.isBlank_eq_false) (by decide)

theorem V6Address.IsWrittenIn.isBlank_eq_false {x : V6Address} {cs : List Char}
    (h : x.IsWrittenIn cs) : ∀ c ∈ cs, Text.isBlank c = false :=
  h.forall_mem (fun _ _ hd => hd.isBlank_eq_false) (by decide) (by decide)

theorem Address.IsWrittenIn.isBlank_eq_false {x : Address} {cs : List Char}
    (h : x.IsWrittenIn cs) : ∀ c ∈ cs, Text.isBlank c = false :=
  h.forall_mem (fun _ _ hd => hd.isBlank_eq_false) (by decide) (by decide)

theorem IsZone.isBlank_eq_false {cs : List Char} {zone : UInt32} (h : IsZone cs zone) :
    ∀ c ∈ cs, Text.isBlank c = false := by
  cases h with
  | none => exact List.forall_mem_nil _
  | number h => exact List.forall_mem_cons.2 ⟨by decide, h.spells.isBlank_eq_false⟩

/-- **No text of a socket address has a blank character.** -/
theorem SocketAddress.IsWrittenIn.isBlank_eq_false {x : SocketAddress} {cs : List Char}
    (h : x.IsWrittenIn cs) : ∀ c ∈ cs, Text.isBlank c = false := by
  have hcolon : Text.isBlank ':' = false := by decide
  cases h with
  | v4 hx hp =>
      simp only [List.forall_mem_append, List.forall_mem_cons]
      exact ⟨hx.isBlank_eq_false, hcolon, hp.spells.isBlank_eq_false⟩
  | v6 hx hz hp =>
      simp only [List.forall_mem_append, List.forall_mem_cons]
      exact ⟨by decide, hx.isBlank_eq_false, hz.isBlank_eq_false, by decide, hcolon,
        hp.spells.isBlank_eq_false⟩

end BlindSign.Net
