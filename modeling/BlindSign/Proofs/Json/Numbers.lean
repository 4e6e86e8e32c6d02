import BlindSign.Json.Number
import BlindSign.Proofs.Utf8

set_option autoImplicit false

/-! # Numbers in JSON text are read back

A number as the grammar has it (`IsLegal`), in front of anything that does not go on with it, is
read as it is spelled (`IsLegal.next?_eq`).

Decimal digits that were written denote what they were written for (`digitsValue_digitsOf`), and a
written integer is legal (`isLegal_ofInt`) and denotes the integer that it was written for
(`integer?_ofInt`). An integer has no other legal spelling (`IsLegal.integer?_eq_some_iff`).
-/

namespace BlindSign.Json

/-! ## Digits -/

theorem toNat_of_mem_naturalChars {n : Nat} {c : Char} (h : c ∈ Numeral.naturalChars n) :
    0x30 ≤ c.toNat ∧ c.toNat ≤ 0x39 := by
  have hd : c.isDigit = true := Nat.isDigit_of_mem_toDigits (by decide) (by decide) h
  obtain ⟨hlow, hhigh⟩ := Bool.and_eq_true_iff.1 hd
  exact ⟨UInt32.le_iff_toNat_le.1 (of_decide_eq_true hlow),
    UInt32.le_iff_toNat_le.1 (of_decide_eq_true hhigh)⟩

theorem isDigit_of_mem_digitsOf {n : Nat} : ∀ b ∈ digitsOf n, isDigit b = true := by
  intro b hb
  obtain ⟨c, hc, rfl⟩ := List.mem_map.1 hb
  obtain ⟨hlow, hhigh⟩ := toNat_of_mem_naturalChars hc
  have hn : c.toNat.toUInt8.toNat = c.toNat := Text.Utf8.toNat_ofNat_of_lt (by omega)
  simp [isDigit, hn, hlow, hhigh]

theorem digitsOf_ne_nil (n : Nat) : digitsOf n ≠ [] := by
  simp [digitsOf, Numeral.naturalChars]

/-- Written digits are read as the number that they were written for. -/
theorem digitsValue_digitsOf (n : Nat) : digitsValue (digitsOf n) = n := by
  have hfold : ∀ (cs : List Char) (acc : Nat), (∀ c ∈ cs, c.toNat < 256) →
      (cs.map fun c => c.toNat.toUInt8).foldl (fun n b => n * 10 + (b.toNat - 0x30)) acc =
        Nat.ofDigitChars 10 cs acc := by
    intro cs
    induction cs with
    | nil => intro acc _; rfl
    | cons c cs ih =>
        intro acc h
        have hc : c.toNat.toUInt8.toNat = c.toNat :=
          Text.Utf8.toNat_ofNat_of_lt (h c List.mem_cons_self)
        rw [List.map_cons, List.foldl_cons, ih _ fun c hc => h c (List.mem_cons_of_mem _ hc),
          Nat.ofDigitChars_cons, hc, Nat.mul_comm]
        rfl
  have hlt : ∀ c ∈ Numeral.naturalChars n, c.toNat < 256 := by
    intro c hc
    have := (toNat_of_mem_naturalChars hc).2
    omega
  rw [digitsValue, digitsOf, hfold _ 0 hlt]
  exact Nat.ofDigitChars_ten_toDigits

/-- No digit but a zero that stands alone leads as a zero. -/
theorem head?_digitsOf {n : Nat} (h : 0 < n) : (digitsOf n).head? ≠ some 0x30 := by
  unfold digitsOf Numeral.naturalChars
  induction n using Nat.strongRecOn with
  | ind n ih =>
      by_cases hsmall : n < 10
      · rw [Nat.toDigits_of_lt_base hsmall]
        have hall : ∀ n < 10, 0 < n →
            ([n.digitChar].map fun c => c.toNat.toUInt8).head? ≠ some 0x30 := by decide
        exact hall n hsmall h
      · rw [Nat.toDigits_of_base_le (by decide) (Nat.le_of_not_lt hsmall), List.map_append,
          List.head?_append]
        have hhead := ih (n / 10) (by omega) (by omega)
        cases hd : ((Nat.toDigits 10 (n / 10)).map fun c => c.toNat.toUInt8).head? with
        | none =>
            rw [List.head?_eq_none_iff, List.map_eq_nil_iff] at hd
            exact absurd hd Nat.toDigits_ne_nil
        | some b =>
            rw [hd] at hhead
            exact hhead

/-- A digit is written as it was read. -/
theorem digitsOf_digit {b : UInt8} (hb : isDigit b = true) : digitsOf (b.toNat - 0x30) = [b] := by
  have hall : ∀ n < 256, isDigit (UInt8.ofNat n) = true →
      digitsOf ((UInt8.ofNat n).toNat - 0x30) = [UInt8.ofNat n] := by decide +kernel
  have h := hall b.toNat b.toNat_lt
  rw [UInt8.ofNat_toNat] at h
  exact h hb

/-- Digits behind a number that is not zero are written behind its digits. -/
theorem digitsOf_foldl {digits : List UInt8} {n : Nat} (hn : 0 < n)
    (hd : ∀ b ∈ digits, isDigit b = true) :
    digitsOf (digits.foldl (fun n b => n * 10 + (b.toNat - 0x30)) n) = digitsOf n ++ digits := by
  induction digits generalizing n with
  | nil => simp
  | cons b bs ih =>
      have hb := hd b List.mem_cons_self
      have hbound : 0x30 ≤ b.toNat ∧ b.toNat ≤ 0x39 := by simpa [isDigit] using hb
      have hstep : digitsOf (n * 10 + (b.toNat - 0x30)) = digitsOf n ++ [b] := by
        have hdiv : (n * 10 + (b.toNat - 0x30)) / 10 = n := by omega
        have hmod : (n * 10 + (b.toNat - 0x30)) % 10 = b.toNat - 0x30 := by omega
        have hlast := digitsOf_digit hb
        unfold digitsOf Numeral.naturalChars at hlast ⊢
        rw [Nat.toDigits_of_lt_base (by omega)] at hlast
        rw [Nat.toDigits_of_base_le (by decide) (by omega), List.map_append, hdiv, hmod, hlast]
      rw [List.foldl_cons, ih (by omega) fun b' hb' => hd b' (List.mem_cons_of_mem _ hb'), hstep]
      simp

theorem hasNoLeadingZero (n : Nat) :
    ((digitsOf n).head? == some 0x30 && decide (1 < (digitsOf n).length)) = false := by
  cases n with
  | zero => decide
  | succ n =>
      have h := head?_digitsOf (Nat.succ_pos n)
      simp [h]

/-! ## Numbers -/

namespace NumberText

/-- Digits, and at least one. -/
def AreDigits (digits : List UInt8) : Prop := digits ≠ [] ∧ ∀ b ∈ digits, isDigit b = true

/-- A number as the grammar has it. -/
structure IsLegal (n : NumberText) : Prop where
  whole : AreDigits n.whole
  /-- No zero leads before other digits. -/
  noZero : (n.whole.head? == some 0x30 && decide (1 < n.whole.length)) = false
  fraction : ∀ digits, n.fraction = some digits → AreDigits digits
  exponent : ∀ e, n.exponent = some e → AreDigits e.digits

/-- Whether a byte goes on with a number. -/
def goesOn (b : UInt8) : Bool := isDigit b || b = 0x2E || b = 0x65 || b = 0x45

/-- What follows a number does not go on with it. -/
def Ends (rest : List UInt8) : Prop := ∀ b ∈ rest.head?, goesOn b = false

variable {rest : List UInt8}

theorem Ends.isDigit_eq_false (hr : Ends rest) : ∀ b ∈ rest.head?, isDigit b = false := by
  intro b hb
  have h := hr b hb
  simp only [goesOn, Bool.or_eq_false_iff] at h
  exact h.1.1.1

/-- Digits are taken up to what is no digit. -/
theorem AreDigits.split {digits : List UInt8} (hd : AreDigits digits)
    (hr : ∀ b ∈ rest.head?, isDigit b = false) : (digits ++ rest).takeWhile isDigit = digits ∧
      (digits ++ rest).dropWhile isDigit = rest := by
  rw [List.takeWhile_append_of_pos hd.2, List.dropWhile_append_of_pos hd.2]
  cases rest with
  | nil => simp
  | cons b rest => simp [hr b rfl]

theorem AreDigits.exists_cons {digits : List UInt8} (hd : AreDigits digits) :
    ∃ b bs, digits = b :: bs ∧ isDigit b = true := by
  cases digits with
  | nil => exact absurd rfl hd.1
  | cons b bs => exact ⟨b, bs, rfl, hd.2 b List.mem_cons_self⟩

def fractionBytes : Option (List UInt8) → List UInt8
  | none => []
  | some digits => 0x2E :: digits

def optionalExponentBytes : Option Exponent → List UInt8
  | none => []
  | some e => exponentBytes e

def signBytes : Option Bool → List UInt8
  | none => []
  | some true => [0x2D]
  | some false => [0x2B]

theorem bytes_eq (n : NumberText) : n.bytes = (if n.negative then [0x2D] else []) ++
    (n.whole ++ (fractionBytes n.fraction ++ optionalExponentBytes n.exponent)) := by
  obtain ⟨negative, whole, fraction, exponent⟩ := n
  cases fraction <;> cases exponent <;> simp [bytes, fractionBytes, optionalExponentBytes]

theorem exponentBytes_eq (e : Exponent) :
    exponentBytes e = (if e.capital then 0x45 else 0x65) :: (signBytes e.sign ++ e.digits) := by
  obtain ⟨capital, sign, digits⟩ := e
  rcases sign with _ | _ | _ <;> rfl

/-! ### Exponents -/

/-- The sign of an exponent is read; digits have none. -/
theorem nextSign_eq {digits : List UInt8} (hd : AreDigits digits) (sign : Option Bool) :
    nextSign (signBytes sign ++ (digits ++ rest)) = (sign, digits ++ rest) := by
  cases sign with
  | none =>
      obtain ⟨b, bs, rfl, hb⟩ := hd.exists_cons
      show nextSign (b :: (bs ++ rest)) = (none, b :: (bs ++ rest))
      unfold nextSign
      split
      · next h =>
          obtain rfl : b = 0x2B := (List.cons.inj h).1
          cases hb
      · next h =>
          obtain rfl : b = 0x2D := (List.cons.inj h).1
          cases hb
      · rfl
  | some minus =>
      cases minus with
      | false => rfl
      | true => rfl

theorem nextExponent?_eq {exponent : Option Exponent}
    (he : ∀ e, exponent = some e → AreDigits e.digits) (hr : Ends rest) :
    nextExponent? (optionalExponentBytes exponent ++ rest) = some (exponent, rest) := by
  cases exponent with
  | none =>
      cases rest with
      | nil => rfl
      | cons b rest =>
          have hb := hr b rfl
          simp only [goesOn, Bool.or_eq_false_iff, decide_eq_false_iff_not] at hb
          simp [optionalExponentBytes, nextExponent?, hb.1.2, hb.2]
  | some e =>
      have hdigits := he e rfl
      have hsign : nextSign (signBytes e.sign ++ (e.digits ++ rest)) = _ :=
        nextSign_eq hdigits e.sign
      obtain ⟨htake, hdrop⟩ := hdigits.split hr.isDigit_eq_false
      obtain ⟨capital, sign, digits⟩ := e
      show nextExponent? (exponentBytes _ ++ rest) = _
      rw [exponentBytes_eq]
      cases capital <;>
        simp [nextExponent?, hsign, htake, hdrop, List.isEmpty_eq_false_iff.2 hdigits.1]

/-- An exponent begins with its mark, which is neither a digit nor a point. -/
theorem exponent_begins (exponent : Option Exponent) (hr : Ends rest) :
    ∀ b ∈ (optionalExponentBytes exponent ++ rest).head?, isDigit b = false ∧ b ≠ 0x2E := by
  cases exponent with
  | none =>
      intro b hb
      refine ⟨hr.isDigit_eq_false b hb, ?_⟩
      rintro rfl
      cases hr _ hb
  | some e =>
      obtain ⟨capital, sign, digits⟩ := e
      cases capital <;> simp [optionalExponentBytes, exponentBytes, isDigit]

/-! ### Fractions -/

theorem nextFraction?_eq {fraction : Option (List UInt8)}
    (hf : ∀ digits, fraction = some digits → AreDigits digits)
    (hr : ∀ b ∈ rest.head?, isDigit b = false ∧ b ≠ 0x2E) :
    nextFraction? (fractionBytes fraction ++ rest) = some (fraction, rest) := by
  cases fraction with
  | none =>
      show nextFraction? rest = _
      unfold nextFraction?
      split
      · exact absurd rfl (hr _ rfl).2
      · rfl
  | some digits =>
      have hdigits := hf digits rfl
      obtain ⟨htake, hdrop⟩ := hdigits.split fun b hb => (hr b hb).1
      simp [fractionBytes, nextFraction?, htake, hdrop, hdigits.1]

/-- A fraction begins with its point. -/
theorem fraction_begins (fraction : Option (List UInt8))
    (hr : ∀ b ∈ rest.head?, isDigit b = false ∧ b ≠ 0x2E) :
    ∀ b ∈ (fractionBytes fraction ++ rest).head?, isDigit b = false := by
  cases fraction with
  | none => exact fun b hb => (hr b hb).1
  | some digits => simp [fractionBytes, isDigit]

/-! ### Numbers as they are spelled -/

/-- **A legal number is read as it is spelled.** -/
theorem IsLegal.next?_eq {n : NumberText} (h : n.IsLegal) (hr : Ends rest) :
    next? (n.bytes ++ rest) = some (n, rest) := by
  have hbegins := exponent_begins n.exponent hr
  obtain ⟨htake, hdrop⟩ := h.whole.split (fraction_begins n.fraction hbegins)
  have hfraction := nextFraction?_eq h.fraction hbegins
  have hexponent := nextExponent?_eq h.exponent hr
  have hne := h.whole.1
  have hzero := h.noZero
  obtain ⟨b, bs, hwhole, hb⟩ := h.whole.exists_cons
  obtain ⟨negative, whole, fraction, exponent⟩ := n
  rw [bytes_eq]
  cases negative with
  | true => simp [next?, htake, hdrop, hne, hzero, hfraction, hexponent]
  | false =>
      simp only [Bool.false_eq_true, if_false, List.nil_append, List.append_assoc]
      unfold next?
      split
      next negative bs' hsign =>
        split at hsign
        · -- a digit is no minus sign
          next tail hminus =>
            dsimp only at hwhole hminus
            rw [hwhole, List.cons_append] at hminus
            obtain rfl : b = 0x2D := (List.cons.inj hminus).1
            cases hb
        · obtain ⟨rfl, rfl⟩ := Prod.mk.inj hsign
          simp [htake, hdrop, hne, hzero, hfraction, hexponent]

theorem isLegal_ofInt (n : Int) : (ofInt n).IsLegal where
  whole := ⟨digitsOf_ne_nil n.natAbs, isDigit_of_mem_digitsOf⟩
  noZero := hasNoLeadingZero n.natAbs
  fraction := fun _ h => nomatch h
  exponent := fun _ h => nomatch h

/-! ### Integers -/

/-- A written integer denotes itself. -/
theorem integer?_ofInt (n : Int) : (ofInt n).integer? = some n := by
  unfold integer? ofInt
  simp only [digitsValue_digitsOf, decide_eq_true_eq]
  by_cases hn : n < 0
  · have hvalue : -(n.natAbs : Int) = n := by omega
    rw [if_pos hn, if_neg (by omega), hvalue]
  · have hvalue : (n.natAbs : Int) = n := by omega
    rw [if_neg hn, hvalue]

/-- A written 64-bit integer denotes itself. -/
theorem int64?_ofInt (n : Int64) : (ofInt n.toInt).int64? = some n := by
  have hlow : -9223372036854775808 ≤ n.toInt := Int64.le_toInt n
  have hhigh : n.toInt ≤ 9223372036854775807 := Int64.toInt_le n
  have hpower : Nat.pow 2 (64 - 1) = 9223372036854775808 := by decide
  have hfits : (Numeral.Bounds.signed 64).contains n.toInt = true := by
    simp only [Numeral.Bounds.contains, Numeral.Bounds.signed, hpower, Bool.and_eq_true,
      decide_eq_true_eq]
    omega
  rw [int64?, integer?_ofInt, Option.bind_some, if_pos hfits, Int64.ofInt_toInt]

/-- A number has one spelling: it is written with the digits that it was read from. -/
theorem digitsOf_digitsValue {digits : List UInt8} (hd : AreDigits digits)
    (hzero : (digits.head? == some 0x30 && decide (1 < digits.length)) = false) :
    digitsOf (digitsValue digits) = digits := by
  obtain ⟨b, bs, rfl, hb⟩ := hd.exists_cons
  have hbound : 0x30 ≤ b.toNat ∧ b.toNat ≤ 0x39 := by simpa [isDigit] using hb
  have hfirst : digitsOf (b.toNat - 0x30) = [b] := digitsOf_digit hb
  have hvalue : digitsValue (b :: bs) =
      bs.foldl (fun n b => n * 10 + (b.toNat - 0x30)) (b.toNat - 0x30) := by
    simp [digitsValue]
  rw [hvalue]
  cases bs with
  | nil => exact hfirst
  | cons c cs =>
      -- there are further digits, so the first one is not zero
      have hne : b ≠ 0x30 := by
        rintro rfl
        simp at hzero
      have hpos : 0 < b.toNat - 0x30 := by
        have hnat : b.toNat ≠ 0x30 := fun h => hne (UInt8.toNat.inj h)
        omega
      rw [digitsOf_foldl hpos fun b' hb' => hd.2 b' (List.mem_cons_of_mem _ hb'), hfirst]
      rfl

/-- An integer has one spelling. -/
theorem IsLegal.integer?_eq_some_iff {n : NumberText} (h : n.IsLegal) {value : Int} :
    n.integer? = some value ↔ n = ofInt value := by
  constructor
  · intro hvalue
    have hdigits := digitsOf_digitsValue h.whole h.noZero
    obtain ⟨negative, whole, fraction, exponent⟩ := n
    unfold integer? at hvalue
    split at hvalue
    · next hfraction hexponent =>
        dsimp only at hfraction hexponent hvalue hdigits
        subst hfraction hexponent
        unfold ofInt
        cases negative with
        | true =>
            simp only [if_true] at hvalue
            -- `-0` is no integer, so of a negative one the digits are not zero
            split at hvalue
            · cases hvalue
            · next hne =>
                obtain rfl := Option.some.inj hvalue
                have hneg : -((digitsValue whole : Nat) : Int) < 0 := by omega
                rw [Int.natAbs_neg, Int.natAbs_natCast, hdigits, decide_eq_true hneg]
        | false =>
            simp only [Bool.false_eq_true, if_false] at hvalue
            obtain rfl := Option.some.inj hvalue
            have hnot : ¬ ((digitsValue whole : Nat) : Int) < 0 := by omega
            rw [Int.natAbs_natCast, hdigits, decide_eq_false hnot]
    · cases hvalue
  · rintro rfl
    exact integer?_ofInt value

/-- A 64-bit integer has one spelling. -/
theorem IsLegal.int64?_eq_some_iff {n : NumberText} (h : n.IsLegal) {value : Int64} :
    n.int64? = some value ↔ n = ofInt value.toInt := by
  constructor
  · intro hvalue
    obtain ⟨m, hm, hfits⟩ := Option.bind_eq_some_iff.1 hvalue
    split at hfits
    · next hbounds =>
        obtain rfl := Option.some.inj hfits
        have hpower : Nat.pow 2 (64 - 1) = 9223372036854775808 := by decide
        simp only [Numeral.Bounds.contains, Numeral.Bounds.signed, hpower, Bool.and_eq_true,
          decide_eq_true_eq] at hbounds
        have hm' : (Int64.ofInt m).toInt = m := by
          have hsize : (Int64.size : Int) = 18446744073709551616 := rfl
          rw [Int64.toInt_ofInt]
          exact Int.bmod_eq_of_le (by omega) (by omega)
        rw [hm']
        exact h.integer?_eq_some_iff.1 hm
    · cases hfits
  · rintro rfl
    exact int64?_ofInt value

end NumberText

end BlindSign.Json
