import Mathlib.Data.List.TakeWhile
import BlindSign.Proofs.Net.Grammar

set_option autoImplicit false

/-! # Addresses are read from their texts

Each part of an address is read from the front of a text, as much of it as there is. A number takes
all digits that stand there (`readNumber_eq_some_iff`), a version 4 address its four octets
(`readV4_eq_some_iff`), and groups are taken one by one until none begins (`Groups.readGroups_eq`,
`groups_readGroups`). What stands behind decides only where a part ends: a group that a dot follows
might be an octet, and after a colon another group might begin.

**A socket address is read from its texts and from nothing else**
(`SocketAddress.ofChars?_eq_some_iff`).
-/

namespace BlindSign.Net

open Numeral

/-! ## Numbers -/

/-- What follows does not go on with a digit. -/
def Stops (radix : Nat) (rest : List Char) : Prop := ∀ c ∈ rest.head?, digit? radix c = none

theorem stops_nil (radix : Nat) : Stops radix [] := by simp [Stops]

section

variable {radix bound n : Nat} {most : Option Nat} {leadingZero : Bool} {cs ds rest : List Char}

theorem takeWhile_digits (hds : ∀ c ∈ ds, (digit? radix c).isSome = true)
    (hrest : Stops radix rest) :
    (ds ++ rest).takeWhile (fun c => (digit? radix c).isSome) = ds := by
  rw [List.takeWhile_append_of_pos hds]
  cases rest with
  | nil => exact List.append_nil ds
  | cons c rest => simp [hrest c rfl]

/-- Every text is split after its leading digits. -/
theorem exists_digits (radix : Nat) (cs : List Char) : ∃ ds rest, cs = ds ++ rest ∧
    (∀ c ∈ ds, (digit? radix c).isSome = true) ∧ Stops radix rest := by
  refine ⟨cs.takeWhile fun c => (digit? radix c).isSome,
    cs.dropWhile fun c => (digit? radix c).isSome, List.takeWhile_append_dropWhile.symm,
    fun _ hc => List.mem_takeWhile_imp (p := fun c => (digit? radix c).isSome) hc,
    fun c hc => ?_⟩
  have hnot := List.head?_dropWhile_not (fun c => (digit? radix c).isSome) cs
  rw [hc] at hnot
  simpa using hnot

/-- Of digits and what follows them all digits are read, or nothing. -/
theorem readNumber_append (hds : ∀ c ∈ ds, (digit? radix c).isSome = true)
    (hrest : Stops radix rest) {rest' : List Char} :
    readNumber radix bound most leadingZero (ds ++ rest) = some (n, rest') ↔
      rest' = rest ∧ IsNumber radix bound most leadingZero ds n := by
  unfold readNumber
  simp only [takeWhile_digits hds hrest, List.drop_left, Option.ite_none_left_eq_some,
    Option.some.injEq, Prod.mk.injEq]
  -- the test for a leading zero, in the words of `IsNumber`
  have hzero : ¬ (!leadingZero && ds.head? == some '0' && decide (1 < ds.length)) = true ↔
      (leadingZero = false → ds.head? = some '0' → ds.length ≤ 1) := by
    cases leadingZero with
    | false => simp
    | true => simp
  simp only [Bool.or_eq_true, not_or, hzero, List.isEmpty_iff, decide_eq_true_eq,
    Nat.not_le]
  constructor
  · rintro ⟨⟨⟨⟨hne, hmost⟩, hlead⟩, hlt⟩, rfl, rfl⟩
    refine ⟨rfl, spells_iff.2 ⟨hne, hds, rfl⟩, hlt, ?_, fun h h' => ?_⟩
    · rintro m rfl
      simpa using hmost
    · have hpos := List.length_pos_of_ne_nil hne
      have hle := hlead h h'
      omega
  · rintro ⟨rfl, hspells, hlt, hmost, hlead⟩
    obtain ⟨hne, _, rfl⟩ := spells_iff.1 hspells
    refine ⟨⟨⟨⟨hne, ?_⟩, fun h h' => Nat.le_of_eq (hlead h h')⟩, hlt⟩, rfl, rfl⟩
    cases most with
    | none => simp
    | some m => simpa using hmost m rfl

/-- **The number in front is read, with all its digits.** -/
theorem readNumber_eq_some_iff :
    readNumber radix bound most leadingZero cs = some (n, rest) ↔
      ∃ ds, cs = ds ++ rest ∧ IsNumber radix bound most leadingZero ds n ∧ Stops radix rest := by
  constructor
  · intro h
    obtain ⟨ds, rest', rfl, hds, hrest⟩ := exists_digits radix cs
    obtain ⟨rfl, hn⟩ := (readNumber_append hds hrest).1 h
    exact ⟨ds, rfl, hn, hrest⟩
  · rintro ⟨ds, rfl, hn, hrest⟩
    exact (readNumber_append (spells_iff.1 hn.spells).2.1 hrest).2 ⟨rfl, hn⟩

theorem readChar_eq_some_iff {c : Char} : readChar c cs = some rest ↔ cs = c :: rest := by
  cases cs with
  | nil => simp [readChar]
  | cons d cs => simp [readChar]

/-- A number in front that fits into the bits of a word is read as that word. -/
theorem map_readNumber_iff {α : Type} {ofNat : Nat → α} {toNat : α → Nat} {x : α}
    (hword : ∀ n < bound, ofNat n = x ↔ n = toNat x) :
    ((readNumber radix bound most leadingZero cs).map fun r => (ofNat r.1, r.2)) =
        some (x, rest) ↔
      ∃ ds, cs = ds ++ rest ∧ IsNumber radix bound most leadingZero ds (toNat x) ∧
        Stops radix rest := by
  rw [← readNumber_eq_some_iff, Option.map_eq_some_iff]
  constructor
  · rintro ⟨⟨n, rest'⟩, h, hpair⟩
    obtain ⟨hx, rfl⟩ := Prod.mk.inj hpair
    obtain ⟨_, _, hn, _⟩ := readNumber_eq_some_iff.1 h
    rwa [← (hword n hn.lt).1 hx]
  · intro h
    obtain ⟨_, _, hn, _⟩ := readNumber_eq_some_iff.1 h
    exact ⟨_, h, Prod.ext ((hword _ hn.lt).2 rfl) rfl⟩

theorem readOctet_eq_some_iff {x : UInt8} : readOctet cs = some (x, rest) ↔
    ∃ ds, cs = ds ++ rest ∧ IsOctet ds x ∧ Stops 10 rest := by
  refine map_readNumber_iff fun n hn => ?_
  show UInt8.ofNat n = x ↔ _
  rw [← UInt8.toNat_inj, UInt8.toNat_ofNat_of_lt' hn]

theorem readGroup_eq_some_iff {g : UInt16} : readGroup cs = some (g, rest) ↔
    ∃ ds, cs = ds ++ rest ∧ IsGroup ds g ∧ Stops 16 rest := by
  refine map_readNumber_iff fun n hn => ?_
  show UInt16.ofNat n = g ↔ _
  rw [← UInt16.toNat_inj, UInt16.toNat_ofNat_of_lt' hn]

/-! ## Version 4 -/

theorem stops_of_digit?_eq_none {c : Char} (h : digit? radix c = none) : Stops radix (c :: rest) := by
  intro d hd
  obtain rfl := Option.some.inj hd
  exact h

/-- **A version 4 address is read from its text.** -/
theorem readV4_eq_some_iff {x : V4Address} : readV4 cs = some (x, rest) ↔
    ∃ ds, cs = ds ++ rest ∧ x.IsWrittenIn ds ∧ Stops 10 rest := by
  have hdot : ∀ rest, Stops 10 ('.' :: rest) := fun _ => stops_of_digit?_eq_none rfl
  unfold readV4
  simp only [bind, Option.bind_eq_some_iff, Prod.exists, readOctet_eq_some_iff,
    readChar_eq_some_iff, Option.some.injEq, Prod.mk.injEq]
  constructor
  · rintro ⟨a, _, ⟨as, rfl, ha, _⟩, _, rfl, b, _, ⟨bs, rfl, hb, _⟩, _, rfl, c, _,
      ⟨cs, rfl, hc, _⟩, _, rfl, d, _, ⟨ds, rfl, hd, hstop⟩, rfl, rfl⟩
    exact ⟨_, by simp, .octets ha hb hc hd, hstop⟩
  · rintro ⟨_, rfl, @⟨a, b, c, d, as, bs, cs, ds, ha, hb, hc, hd⟩, hstop⟩
    refine ⟨a, _, ⟨as, ?_, ha, hdot _⟩, _, rfl, b, _, ⟨bs, rfl, hb, hdot _⟩, _, rfl, c, _,
      ⟨cs, rfl, hc, hdot _⟩, _, rfl, d, _, ⟨ds, rfl, hd, hstop⟩, rfl, rfl⟩
    simp

/-! ## Groups of version 6 -/

theorem readSeparator_eq_some_iff {isFirst : Bool} :
    readSeparator isFirst cs = some rest ↔ cs = separator isFirst ++ rest := by
  cases isFirst with
  | false => exact readChar_eq_some_iff
  | true => exact Option.some_inj

/-- All digits are hexadecimal ones. -/
theorem IsNumber.isSome_sixteen (h : IsNumber radix bound most leadingZero ds n) :
    ∀ c ∈ ds, (digit? 16 c).isSome = true := by
  intro c hc
  obtain ⟨d, hd⟩ := Option.isSome_iff_exists.1 ((spells_iff.1 h.spells).2.1 c hc)
  rw [(digit?_eq_some_iff_sixteen.1 hd).2]
  rfl

theorem IsNumber.not_stops (h : IsNumber radix bound most leadingZero ds n) :
    ¬ Stops 16 (ds ++ rest) := by
  intro hstop
  cases hds : ds with
  | nil => exact h.spells.1 hds
  | cons c cs =>
      have hdigit := h.isSome_sixteen c (by rw [hds]; exact List.mem_cons_self)
      rw [hds] at hstop
      rw [hstop c rfl] at hdigit
      cases hdigit

theorem readGroup_of_stops (h : Stops 16 cs) : readGroup cs = none := by
  cases hread : readGroup cs with
  | none => rfl
  | some r =>
      obtain ⟨ds, rfl, hg, _⟩ := readGroup_eq_some_iff.1 hread
      exact absurd h hg.not_stops

theorem readV4_of_stops (h : Stops 16 cs) : readV4 cs = none := by
  cases hread : readV4 cs with
  | none => rfl
  | some r =>
      obtain ⟨⟨a, b, c, d⟩, rest⟩ := r
      obtain ⟨_, rfl, ⟨ha, _, _, _⟩, _⟩ := readV4_eq_some_iff.1 hread
      rw [List.append_assoc] at h
      exact absurd h ha.not_stops

/-- A group that no dot follows is not the first octet of a version 4 address. -/
theorem readV4_of_group {g : UInt16} (hg : IsGroup ds g) (hrest : Stops 16 rest)
    (hdot : rest.head? ≠ some '.') : readV4 (ds ++ rest) = none := by
  cases hread : readV4 (ds ++ rest) with
  | none => rfl
  | some r =>
      obtain ⟨⟨a, b, c, d⟩, rest'⟩ := r
      obtain ⟨_, hcs, @⟨_, _, _, _, as, _, _, _, ha, _, _, _⟩, _⟩ := readV4_eq_some_iff.1 hread
      -- both texts begin with the same digits
      have hds := takeWhile_digits hg.isSome_sixteen hrest
      have hstop : digit? 16 '.' = none := rfl
      rw [hcs, List.append_assoc, List.cons_append,
        takeWhile_digits ha.isSome_sixteen (stops_of_digit?_eq_none hstop)] at hds
      subst hds
      rw [List.append_assoc, List.append_cancel_left_eq] at hcs
      rw [hcs] at hdot
      exact absurd rfl hdot

/-! ## Reading groups one by one -/

section

variable {isFirst : Bool} {room : Nat}

theorem embedded_eq_none {α : Type} {o : Option α} (h : room = 0 ∨ o = none) :
    (if room = 0 then none else o) = none := by
  by_cases hroom : room = 0
  · rw [if_pos hroom]
  · rw [if_neg hroom]
    exact h.resolve_left hroom

theorem readGroups_embedded {x : V4Address} (hroom : room ≠ 0)
    (h : (readSeparator isFirst cs).bind readV4 = some (x, rest)) :
    readGroups (room + 1) isFirst cs = ⟨x.groups, true, rest⟩ := by
  rw [readGroups]
  simp only [if_neg hroom, h]
  rfl

theorem readGroups_group {g : UInt16}
    (hv4 : room = 0 ∨ (readSeparator isFirst cs).bind readV4 = none)
    (h : (readSeparator isFirst cs).bind readGroup = some (g, rest)) :
    readGroups (room + 1) isFirst cs = ⟨g :: (readGroups room false rest).groups,
      (readGroups room false rest).endsInV4, (readGroups room false rest).rest⟩ := by
  rw [readGroups]
  simp only [embedded_eq_none hv4, h]

theorem readGroups_end (hv4 : room = 0 ∨ (readSeparator isFirst cs).bind readV4 = none)
    (h : (readSeparator isFirst cs).bind readGroup = none) :
    readGroups (room + 1) isFirst cs = ⟨[], false, cs⟩ := by
  rw [readGroups]
  simp only [embedded_eq_none hv4, h]

/-- What is read as groups is a text of them. -/
theorem groups_readGroups (room : Nat) (isFirst : Bool) (cs : List Char) :
    ∃ text, cs = text ++ (readGroups room isFirst cs).rest ∧
      Groups isFirst text (readGroups room isFirst cs).groups
        (readGroups room isFirst cs).endsInV4 ∧
      (readGroups room isFirst cs).groups.length ≤ room := by
  induction room generalizing isFirst cs with
  | zero => exact ⟨[], rfl, .nil isFirst, Nat.le_refl 0⟩
  | succ room ih =>
      by_cases hv4 : room = 0 ∨ (readSeparator isFirst cs).bind readV4 = none
      · cases hg : (readSeparator isFirst cs).bind readGroup with
        | none =>
            rw [readGroups_end hv4 hg]
            exact ⟨[], rfl, .nil isFirst, Nat.zero_le _⟩
        | some r =>
            obtain ⟨g, rest⟩ := r
            rw [readGroups_group hv4 hg]
            obtain ⟨cs', hsep, hread⟩ := Option.bind_eq_some_iff.1 hg
            obtain rfl := readSeparator_eq_some_iff.1 hsep
            obtain ⟨ds, rfl, hgroup, _⟩ := readGroup_eq_some_iff.1 hread
            obtain ⟨text, htext, hgroups, hlength⟩ := ih false rest
            refine ⟨_, ?_, .cons isFirst hgroup hgroups, Nat.succ_le_succ hlength⟩
            simp only [List.append_assoc]
            rw [← htext]
      · -- a version 4 address at the end takes the place of two groups
        obtain ⟨hroom, hv4⟩ := not_or.1 hv4
        obtain ⟨⟨x, rest⟩, hread⟩ := Option.ne_none_iff_exists'.1 hv4
        rw [readGroups_embedded hroom hread]
        obtain ⟨cs', hsep, hx⟩ := Option.bind_eq_some_iff.1 hread
        obtain rfl := readSeparator_eq_some_iff.1 hsep
        obtain ⟨ds, rfl, hwritten, _⟩ := readV4_eq_some_iff.1 hx
        refine ⟨_, by rw [List.append_assoc], .embedded isFirst hwritten, ?_⟩
        show 2 ≤ room + 1
        omega

/-- What follows goes on neither with the digits of a group nor as a version 4 address. -/
structure Follows (rest : List Char) : Prop where
  stops : Stops 16 rest
  dot : rest.head? ≠ some '.'

theorem follows_cons {c : Char} (h : digit? 16 c = none) (hdot : c ≠ '.') : Follows (c :: rest) :=
  ⟨stops_of_digit?_eq_none h, fun hc => hdot (Option.some.inj hc)⟩

theorem follows_nil : Follows [] := ⟨stops_nil 16, by simp⟩

theorem Stops.of_sixteen (h : Stops 16 rest) : Stops radix rest := by
  intro c hc
  cases hd : digit? radix c with
  | none => rfl
  | some d =>
      have hsixteen := (digit?_eq_some_iff_sixteen.1 hd).2
      rw [h c hc] at hsixteen
      cases hsixteen

/-- After the first group comes a colon. -/
theorem Groups.follows {gs : List UInt16} {endsInV4 : Bool} (h : Groups false cs gs endsInV4)
    (hrest : Follows rest) : Follows (cs ++ rest) := by
  have hcolon : ∀ cs, Follows (':' :: cs) := fun _ => follows_cons rfl (by decide)
  cases h with
  | nil => exact hrest
  | embedded _ h => exact hcolon _
  | cons _ hg h => exact hcolon _

/-- No group begins after a colon in front. -/
def EndsGroups (rest : List Char) : Prop := ∀ cs, rest = ':' :: cs → Stops 16 cs

theorem endsGroups_nil : EndsGroups [] := by simp [EndsGroups]

theorem bind_of_ends (isFirst : Bool) (hrest : Follows rest) (hend : EndsGroups rest) :
    (readSeparator isFirst rest).bind readV4 = none ∧
      (readSeparator isFirst rest).bind readGroup = none := by
  cases hsep : readSeparator isFirst rest with
  | none => exact ⟨rfl, rfl⟩
  | some cs =>
      have hstops : Stops 16 cs := by
        have hcs := readSeparator_eq_some_iff.1 hsep
        cases isFirst with
        | true =>
            rw [show rest = cs from hcs] at hrest
            exact hrest.stops
        | false => exact hend cs hcs
      exact ⟨readV4_of_stops hstops, readGroup_of_stops hstops⟩

/-- **A text of groups is read as these groups**, where no other group can follow. -/
theorem Groups.readGroups_eq {gs : List UInt16} {endsInV4 : Bool} (h : Groups isFirst cs gs endsInV4)
    (hroom : gs.length ≤ room) (hrest : Follows rest)
    (hend : gs.length = room ∨ EndsGroups rest) :
    readGroups room isFirst (cs ++ rest) = ⟨gs, endsInV4, rest⟩ := by
  induction h generalizing room with
  | nil isFirst =>
      cases room with
      | zero => rfl
      | succ room =>
          obtain ⟨hv4, hgroup⟩ := bind_of_ends isFirst hrest
            (hend.resolve_left (by simp))
          exact readGroups_end (.inr hv4) hgroup
  | @embedded isFirst cs x hx =>
      have htwo : 2 ≤ room := hroom
      obtain ⟨room, rfl⟩ := Nat.exists_eq_add_of_le' (Nat.le_of_succ_le htwo)
      have hsep : readSeparator isFirst (separator isFirst ++ cs ++ rest) = some (cs ++ rest) :=
        readSeparator_eq_some_iff.2 (List.append_assoc _ _ _)
      have hx' : readV4 (cs ++ rest) = some (x, rest) :=
        readV4_eq_some_iff.2 ⟨cs, rfl, hx, hrest.stops.of_sixteen⟩
      refine readGroups_embedded (by omega) ?_
      rw [hsep]
      exact hx'
  | @cons isFirst cs text g gs endsInV4 hg htext ih =>
      obtain ⟨room, rfl⟩ := Nat.exists_eq_add_of_le' (Nat.le_trans (Nat.succ_pos _) hroom)
      have hfollows := htext.follows hrest
      have hsep : readSeparator isFirst (separator isFirst ++ (cs ++ text) ++ rest) =
          some (cs ++ (text ++ rest)) :=
        readSeparator_eq_some_iff.2 (by simp only [List.append_assoc])
      -- a group comes before a colon or the end, so it cannot begin a version 4 address
      have hv4 := readV4_of_group hg hfollows.stops hfollows.dot
      have hg' : readGroup (cs ++ (text ++ rest)) = some (g, text ++ rest) :=
        readGroup_eq_some_iff.2 ⟨cs, rfl, hg, hfollows.stops⟩
      have hend' : gs.length = room ∨ EndsGroups rest := hend.imp_left Nat.succ.inj
      have htail := ih (Nat.le_of_succ_le_succ hroom) hend'
      rw [readGroups_group (.inr (by rw [hsep]; exact hv4)) (by rw [hsep]; exact hg'), htail]

end

/-! ## Version 6 -/

theorem ofGroups?_eq_some_iff {x : V6Address} {gs : List UInt16} :
    V6Address.ofGroups? gs = some x ↔ x.groups = gs := by
  unfold V6Address.ofGroups?
  by_cases hlength : gs.length = 8
  · rw [dif_pos hlength, Option.some_inj]
    constructor
    · rintro rfl
      rfl
    · rintro rfl
      rfl
  · rw [dif_neg hlength]
    constructor
    · intro h
      cases h
    · rintro rfl
      exact absurd x.length_groups hlength

/-- What is read as a version 6 address is a text of it. -/
theorem isWrittenIn_of_readV6 {x : V6Address} (h : readV6 cs = some (x, rest)) :
    ∃ text, cs = text ++ rest ∧ x.IsWrittenIn text := by
  unfold readV6 at h
  obtain ⟨front, hcs, hfront, hlength⟩ := groups_readGroups 8 true cs
  dsimp only at h
  -- eight groups are the whole address; fewer have to end at a `::`
  by_cases hfull : (readGroups 8 true cs).groups.length = 8
  · rw [if_pos hfull] at h
    obtain ⟨y, hy, hpair⟩ := Option.bind_eq_some_iff.1 h
    obtain ⟨rfl, rfl⟩ := Prod.mk.inj (Option.some.inj hpair)
    rw [← ofGroups?_eq_some_iff.1 hy] at hfront
    exact ⟨front, hcs, .full hfront⟩
  · rw [if_neg hfull] at h
    cases hv4 : (readGroups 8 true cs).endsInV4 with
    | true =>
        rw [hv4, if_pos rfl] at h
        cases h
    | false =>
        rw [hv4] at h hfront
        rw [if_neg (by decide)] at h
        obtain ⟨cs', hcolon, h⟩ := Option.bind_eq_some_iff.1 h
        obtain ⟨cs'', hcolon', h⟩ := Option.bind_eq_some_iff.1 h
        obtain ⟨y, hy, hpair⟩ := Option.bind_eq_some_iff.1 h
        obtain ⟨rfl, rfl⟩ := Prod.mk.inj (Option.some.inj hpair)
        obtain ⟨back, hcs'', hback, hlength'⟩ := groups_readGroups
          (7 - (readGroups 8 true cs).groups.length) true cs''
        rw [readChar_eq_some_iff.1 hcolon, readChar_eq_some_iff.1 hcolon', hcs''] at hcs
        refine ⟨_, ?_, .short hfront hback (by omega) (ofGroups?_eq_some_iff.1 hy)⟩
        rw [List.append_assoc]
        exact hcs

/-- **A version 6 address is read from its text.** -/
theorem V6Address.IsWrittenIn.readV6_eq {x : V6Address} (h : x.IsWrittenIn cs)
    (hrest : Follows rest) (hend : EndsGroups rest) : readV6 (cs ++ rest) = some (x, rest) := by
  unfold readV6
  cases h with
  | full h =>
      have hlength := x.length_groups
      rw [h.readGroups_eq (Nat.le_of_eq hlength) hrest (.inr hend)]
      simp only [if_pos hlength, ofGroups?_eq_some_iff.2 rfl]
      rfl
  | @short front back gs hs endsInV4 hfront hback hlength hx =>
      have hcolons : Follows (':' :: ':' :: (back ++ rest)) := follows_cons rfl (by decide)
      have hends : EndsGroups (':' :: ':' :: (back ++ rest)) := by
        intro cs hcs
        rw [← (List.cons.inj hcs).2]
        exact stops_of_digit?_eq_none rfl
      -- no group begins with the second colon, so the front ends before the `::`
      have hread : readGroups 8 true (front ++ ':' :: ':' :: (back ++ rest)) =
          ⟨gs, false, ':' :: ':' :: (back ++ rest)⟩ :=
        hfront.readGroups_eq (by omega) hcolons (.inr hends)
      have hread' : readGroups (7 - gs.length) true (back ++ rest) = ⟨hs, endsInV4, rest⟩ :=
        hback.readGroups_eq (by omega) hrest (.inr hend)
      have hshort : gs.length ≠ 8 := by omega
      rw [List.append_assoc, List.cons_append, List.cons_append, hread]
      simp only [if_neg hshort, readChar, if_true, bind, Option.bind, hread',
        ofGroups?_eq_some_iff.2 hx]
      rfl

/-! ## Addresses -/

theorem whole_eq_some_iff {α : Type} {o : Option (α × List Char)} {a : α} :
    whole o = some a ↔ o = some (a, []) := by
  cases o with
  | none => simp [whole]
  | some r =>
      obtain ⟨b, rest⟩ := r
      cases rest with
      | nil => simp [whole]
      | cons c rest => simp [whole]

/-- Groups do not begin with a version 4 address, unless they are one. -/
theorem Groups.readV4_eq_none {gs : List UInt16} {endsInV4 : Bool} (h : Groups true cs gs endsInV4)
    (hgroups : endsInV4 = true → gs.length ≠ 2) (hrest : Follows rest) :
    readV4 (cs ++ rest) = none := by
  cases h with
  | nil => exact readV4_of_stops hrest.stops
  | embedded _ h => exact absurd rfl (hgroups rfl)
  | @cons _ ds text g gs _ hg h =>
      have hfollows := h.follows hrest
      show readV4 (ds ++ text ++ rest) = none
      rw [List.append_assoc]
      exact readV4_of_group hg hfollows.stops hfollows.dot

theorem V6Address.IsWrittenIn.readV4_eq_none {x : V6Address} (h : x.IsWrittenIn cs) :
    readV4 cs = none := by
  cases h with
  | full h =>
      have hread := h.readV4_eq_none (fun _ => by rw [x.length_groups]; decide) follows_nil
      rwa [List.append_nil] at hread
  | short hfront hback hlength hx =>
      exact hfront.readV4_eq_none (fun hv4 => by cases hv4) (follows_cons rfl (by decide))

/-- **An address is read from its texts, and from nothing else.** -/
theorem Address.ofChars?_eq_some_iff {x : Address} :
    Address.ofChars? cs = some x ↔ x.IsWrittenIn cs := by
  unfold Address.ofChars?
  constructor
  · intro h
    cases hv4 : readV4 cs with
    | none =>
        rw [hv4] at h
        obtain ⟨⟨y, rest⟩, hread, hpair⟩ := Option.map_eq_some_iff.1 (whole_eq_some_iff.1 h)
        obtain ⟨rfl, rfl⟩ := Prod.mk.inj hpair
        obtain ⟨text, rfl, hy⟩ := isWrittenIn_of_readV6 hread
        rwa [List.append_nil]
    | some r =>
        obtain ⟨y, rest⟩ := r
        rw [hv4] at h
        obtain ⟨rfl, rfl⟩ := Prod.mk.inj (Option.some.inj (whole_eq_some_iff.1 h))
        obtain ⟨text, rfl, hy, -⟩ := readV4_eq_some_iff.1 hv4
        rwa [List.append_nil]
  · intro h
    cases x with
    | v4 y =>
        have hread : readV4 cs = some (y, []) :=
          readV4_eq_some_iff.2 ⟨cs, (List.append_nil cs).symm, h, stops_nil 10⟩
        rw [hread]
        rfl
    | v6 y =>
        have hread := V6Address.IsWrittenIn.readV6_eq h follows_nil endsGroups_nil
        rw [List.append_nil] at hread
        rw [V6Address.IsWrittenIn.readV4_eq_none h]
        exact whole_eq_some_iff.2 (by rw [hread]; rfl)

/-! ## Socket addresses -/

theorem readPort_eq_some_iff {port : UInt16} : readPort cs = some (port, rest) ↔
    ∃ ds, cs = ':' :: (ds ++ rest) ∧ IsPort ds port ∧ Stops 10 rest := by
  have hnumber : ∀ cs, (readNumber 10 65536 none true cs).map (fun r => (r.1.toUInt16, r.2)) =
      some (port, rest) ↔ ∃ ds, cs = ds ++ rest ∧ IsPort ds port ∧ Stops 10 rest := by
    intro cs
    refine map_readNumber_iff fun n hn => ?_
    show UInt16.ofNat n = port ↔ _
    rw [← UInt16.toNat_inj, UInt16.toNat_ofNat_of_lt' hn]
  have hport : readPort cs = (readChar ':' cs).bind fun cs =>
      (readNumber 10 65536 none true cs).map fun r => (r.1.toUInt16, r.2) := by
    unfold readPort
    congr 1
    funext cs
    cases readNumber 10 65536 none true cs with
    | none => rfl
    | some r => rfl
  rw [hport, Option.bind_eq_some_iff]
  constructor
  · rintro ⟨cs', hcolon, h⟩
    obtain ⟨ds, rfl, hds⟩ := (hnumber cs').1 h
    exact ⟨ds, readChar_eq_some_iff.1 hcolon, hds⟩
  · rintro ⟨ds, rfl, hds⟩
    exact ⟨_, rfl, (hnumber _).2 ⟨ds, rfl, hds⟩⟩

/-- In front of a bracket a zone is read from its text. -/
theorem readZone_eq_iff {zone : UInt32} : readZone cs = (zone, ']' :: rest) ↔
    ∃ zs, cs = zs ++ ']' :: rest ∧ IsZone zs zone := by
  have hnumber : ∀ r, (readChar '%' cs).bind (readNumber 10 UInt32.size none true) = some r ↔
      ∃ ds, cs = '%' :: (ds ++ r.2) ∧ IsNumber 10 UInt32.size none true ds r.1 ∧
        Stops 10 r.2 := by
    intro r
    rw [Option.bind_eq_some_iff]
    constructor
    · rintro ⟨cs', hpercent, h⟩
      obtain ⟨ds, rfl, hds⟩ := readNumber_eq_some_iff.1 h
      exact ⟨ds, readChar_eq_some_iff.1 hpercent, hds⟩
    · rintro ⟨ds, rfl, hds⟩
      exact ⟨_, rfl, readNumber_eq_some_iff.2 ⟨ds, rfl, hds⟩⟩
  unfold readZone
  constructor
  · intro h
    cases hread : (readChar '%' cs).bind (readNumber 10 UInt32.size none true) with
    | none =>
        rw [hread] at h
        obtain ⟨rfl, rfl⟩ := Prod.mk.inj h
        exact ⟨[], rfl, .none⟩
    | some r =>
        obtain ⟨n, rest'⟩ := r
        rw [hread] at h
        obtain ⟨rfl, rfl⟩ := Prod.mk.inj h
        obtain ⟨ds, rfl, hds, _⟩ := (hnumber _).1 hread
        have hn : n.toUInt32.toNat = n := UInt32.toNat_ofNat_of_lt' hds.lt
        refine ⟨'%' :: ds, rfl, .number ?_⟩
        rwa [hn]
  · rintro ⟨zs, rfl, hz⟩
    cases hz with
    | none => rfl
    | @number ds _ h =>
        have hread := (hnumber (zone.toNat, ']' :: rest)).2
          ⟨ds, rfl, h, stops_of_digit?_eq_none rfl⟩
        rw [hread]
        exact congrArg (·, ']' :: rest) UInt32.ofNat_toNat

theorem readSocketV4_eq_some_iff {a : SocketAddress} : readSocketV4 cs = some (a, rest) ↔
    ∃ x port text ps, a = .v4 x port ∧ cs = text ++ ':' :: (ps ++ rest) ∧ x.IsWrittenIn text ∧
      IsPort ps port ∧ Stops 10 rest := by
  unfold readSocketV4
  simp only [bind, Option.bind_eq_some_iff, Prod.exists, readV4_eq_some_iff, readPort_eq_some_iff,
    Option.some.injEq, Prod.mk.injEq]
  constructor
  · rintro ⟨x, _, ⟨text, rfl, hx, _⟩, port, _, ⟨ps, rfl, hp, hstop⟩, rfl, rfl⟩
    exact ⟨x, port, text, ps, rfl, rfl, hx, hp, hstop⟩
  · rintro ⟨x, port, text, ps, rfl, rfl, hx, hp, hstop⟩
    exact ⟨x, _, ⟨text, rfl, hx, stops_of_digit?_eq_none rfl⟩, port, _, ⟨ps, rfl, hp, hstop⟩, rfl,
      rfl⟩

theorem readSocketV6_eq_some_iff {a : SocketAddress} : readSocketV6 cs = some (a, rest) ↔
    ∃ x port zone text zs ps, a = .v6 x port zone ∧
      cs = '[' :: (text ++ (zs ++ ']' :: ':' :: (ps ++ rest))) ∧ x.IsWrittenIn text ∧
      IsZone zs zone ∧ IsPort ps port ∧ Stops 10 rest := by
  unfold readSocketV6
  simp only [bind, Option.bind_eq_some_iff, Prod.exists, readChar_eq_some_iff, Option.some.injEq,
    Prod.mk.injEq]
  constructor
  · rintro ⟨_, rfl, x, cs', hx, cs'', hbracket, port, _, hp, rfl, rfl⟩
    obtain ⟨text, rfl, htext⟩ := isWrittenIn_of_readV6 hx
    obtain ⟨ps, rfl, hps, hstop⟩ := readPort_eq_some_iff.1 hp
    obtain ⟨zs, rfl, hzs⟩ := readZone_eq_iff.1 (Prod.ext rfl hbracket)
    exact ⟨x, port, _, text, zs, ps, rfl, rfl, htext, hzs, hps, hstop⟩
  · rintro ⟨x, port, zone, text, zs, ps, rfl, rfl, hx, hz, hp, hstop⟩
    have hzone : readZone (zs ++ ']' :: ':' :: (ps ++ rest)) = (zone, ']' :: ':' :: (ps ++ rest)) :=
      readZone_eq_iff.2 ⟨zs, rfl, hz⟩
    -- the zone begins with a percent sign or is empty; both end the address
    have hfollows : Follows (zs ++ ']' :: ':' :: (ps ++ rest)) := by
      cases hz with
      | none => exact follows_cons rfl (by decide)
      | number _ => exact follows_cons rfl (by decide)
    have hends : EndsGroups (zs ++ ']' :: ':' :: (ps ++ rest)) := by
      intro cs hcs
      cases hz with
      | none => cases hcs
      | number _ => cases hcs
    refine ⟨_, rfl, x, _, hx.readV6_eq hfollows hends, _, ?_, port, _,
      readPort_eq_some_iff.2 ⟨ps, rfl, hp, hstop⟩, ?_, rfl⟩
    · rw [hzone]
    · rw [hzone]

/-- **A socket address is read from its texts, and from nothing else.** -/
theorem SocketAddress.ofChars?_eq_some_iff {x : SocketAddress} :
    SocketAddress.ofChars? cs = some x ↔ x.IsWrittenIn cs := by
  unfold SocketAddress.ofChars?
  constructor
  · intro h
    cases hv4 : readSocketV4 cs with
    | none =>
        rw [hv4] at h
        obtain ⟨x, port, zone, text, zs, ps, rfl, rfl, hx, hz, hp, _⟩ :=
          readSocketV6_eq_some_iff.1 (whole_eq_some_iff.1 h)
        rw [List.append_nil]
        exact .v6 hx hz hp
    | some r =>
        rw [hv4] at h
        rw [whole_eq_some_iff.1 h] at hv4
        obtain ⟨x, port, text, ps, rfl, rfl, hx, hp, _⟩ := readSocketV4_eq_some_iff.1 hv4
        rw [List.append_nil]
        exact .v4 hx hp
  · intro h
    cases h with
    | @v4 x port text ps hx hp =>
        have hread : readSocketV4 (text ++ ':' :: ps) = some (.v4 x port, []) :=
          readSocketV4_eq_some_iff.2 ⟨x, port, text, ps, rfl, by simp, hx, hp, stops_nil 10⟩
        rw [hread]
        rfl
    | @v6 x port zone text zs ps hx hz hp =>
        -- no version 4 address begins with a bracket
        have hv4 : readSocketV4 ('[' :: (text ++ (zs ++ ']' :: ':' :: ps))) = none := by
          unfold readSocketV4
          rw [readV4_of_stops (stops_of_digit?_eq_none rfl)]
          rfl
        have hread : readSocketV6 ('[' :: (text ++ (zs ++ ']' :: ':' :: ps))) =
            some (.v6 x port zone, []) :=
          readSocketV6_eq_some_iff.2 ⟨x, port, zone, text, zs, ps, rfl, by simp, hx, hz, hp,
            stops_nil 10⟩
        rw [hv4]
        exact whole_eq_some_iff.2 hread

end

end BlindSign.Net
