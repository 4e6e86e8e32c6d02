import BlindSign.Proofs.Net.Reading

set_option autoImplicit false

/-! # Addresses as they are written

What is written for an address is one of its texts: octets and groups are written as their digits
without zeros in front (`isNumber_toDigits`), an address that embeds one of version 4 with that
address (`groups_of_mapped?`), and in any other one `::` stands for the run of zero groups that was
found. For this it matters that the run is one (`liesIn_longestZeroRun`), not that it is the longest.

**So what is written for a socket address is read back as it** (`SocketAddress.ofChars?_chars`).
-/

namespace BlindSign.Net

open Numeral

/-! ## Numbers -/

section

variable {radix bound n : Nat} {most : Option Nat} {leadingZero : Bool}

/-- No zero stands in front of a number that is written. -/
theorem head?_toDigits (hradix : 1 < radix) (hradix' : radix ≤ 16) (hn : 0 < n) :
    (Nat.toDigits radix n).head? ≠ some '0' := by
  induction n using Nat.strongRecOn with
  | ind n ih =>
      by_cases hsmall : n < radix
      · have hdigits : ∀ d < 16, 0 < d → d.digitChar ≠ '0' := by decide
        rw [Nat.toDigits_of_lt_base hsmall]
        intro h
        exact hdigits n (by omega) hn (Option.some.inj h)
      · have hdiv : 0 < n / radix := Nat.div_pos (Nat.le_of_not_lt hsmall) (by omega)
        rw [Nat.toDigits_of_base_le hradix (Nat.le_of_not_lt hsmall),
          List.head?_append_of_ne_nil _ Nat.toDigits_ne_nil]
        exact ih (n / radix) (Nat.div_lt_self hn hradix) hdiv

theorem isNumber_toDigits (hradix : 1 < radix) (hradix' : radix ≤ 16) (hn : n < bound)
    (hmost : ∀ m ∈ most, (Nat.toDigits radix n).length ≤ m) :
    IsNumber radix bound most leadingZero (Nat.toDigits radix n) n where
  spells := spells_toDigits hradix hradix' n
  lt := hn
  length_le := hmost
  zero := fun _ hhead => by
    by_cases hzero : n = 0
    · rw [hzero, Nat.toDigits_zero]
      rfl
    · exact absurd hhead (head?_toDigits hradix hradix' (Nat.pos_of_ne_zero hzero))

theorem isOctet_naturalChars (x : UInt8) : IsOctet (naturalChars x.toNat) x := by
  refine isNumber_toDigits (by decide) (by decide) x.toNat_lt ?_
  intro m hm
  obtain rfl := Option.some.inj hm
  rw [Nat.length_toDigits_le_iff (by decide) (by decide)]
  exact Nat.lt_trans x.toNat_lt (by decide)

theorem isGroup_groupChars (g : UInt16) : IsGroup (groupChars g) g := by
  refine isNumber_toDigits (by decide) (by decide) g.toNat_lt ?_
  intro m hm
  obtain rfl := Option.some.inj hm
  rw [Nat.length_toDigits_le_iff (by decide) (by decide)]
  exact g.toNat_lt

theorem isPort_naturalChars (port : UInt16) : IsPort (naturalChars port.toNat) port :=
  isNumber_toDigits (by decide) (by decide) port.toNat_lt (by simp)

end

/-! ## Version 4 -/

theorem V4Address.isWrittenIn_chars (x : V4Address) : x.IsWrittenIn x.chars := by
  have h := V4Address.IsWrittenIn.octets (isOctet_naturalChars x.a) (isOctet_naturalChars x.b)
    (isOctet_naturalChars x.c) (isOctet_naturalChars x.d)
  unfold V4Address.chars
  simpa only [List.append_assoc, List.cons_append] using h

/-! ## Groups -/

/-- Groups after a colon go on as groups that come first. -/
theorem Groups.after_colon {cs : List Char} {gs : List UInt16} {endsInV4 : Bool}
    (h : Groups true cs gs endsInV4) (hne : gs ≠ []) : Groups false (':' :: cs) gs endsInV4 := by
  cases h with
  | nil => exact absurd rfl hne
  | embedded _ h => exact .embedded false h
  | cons _ hg h => exact .cons false hg h

theorem groups_joinGroups (gs : List UInt16) : Groups true (joinGroups gs) gs false := by
  induction gs with
  | nil => exact .nil true
  | cons g gs ih =>
      cases gs with
      | nil =>
          have h : Groups true (groupChars g ++ []) [g] false :=
            .cons true (isGroup_groupChars g) (.nil false)
          rwa [List.append_nil] at h
      | cons h gs => exact .cons true (isGroup_groupChars g) (ih.after_colon (List.cons_ne_nil h gs))

/-- The two bytes of a group make it up. -/
theorem toUInt16_bytes (g : UInt16) : ((g.toNat / 256).toUInt8.toNat * 256 +
    (g.toNat % 256).toUInt8.toNat).toUInt16 = g := by
  have hg : g.toNat < 65536 := g.toNat_lt
  have hhigh : (g.toNat / 256).toUInt8.toNat = g.toNat / 256 :=
    UInt8.toNat_ofNat_of_lt' (by show _ < 256; omega)
  have hlow : (g.toNat % 256).toUInt8.toNat = g.toNat % 256 :=
    UInt8.toNat_ofNat_of_lt' (by show _ < 256; omega)
  rw [hhigh, hlow, Nat.div_add_mod']
  exact UInt16.ofNat_toNat

theorem groups_of_mapped? {x : V6Address} {y : V4Address} (h : x.mapped? = some y) :
    x.groups = [0, 0, 0, 0, 0, 0xFFFF] ++ y.groups := by
  unfold V6Address.mapped? at h
  split at h
  · next g h' hgroups =>
      obtain rfl := Option.some.inj h
      rw [hgroups, V4Address.groups, toUInt16_bytes, toUInt16_bytes]
      rfl
  · cases h

/-! ## Runs of zero groups -/

/-- A run of zero groups lies in a list of groups. -/
def ZeroRun.LiesIn (run : ZeroRun) (gs : List UInt16) : Prop :=
  ∃ before after, gs = before ++ List.replicate run.length 0 ++ after ∧ before.length = run.start

/-- A list of groups ends with a run of zero groups. -/
def ZeroRun.EndsIn (run : ZeroRun) (gs : List UInt16) : Prop :=
  ∃ before, gs = before ++ List.replicate run.length 0 ∧ before.length = run.start

theorem ZeroRun.EndsIn.liesIn {run : ZeroRun} {gs : List UInt16} (h : run.EndsIn gs) :
    run.LiesIn gs := by
  obtain ⟨before, rfl, hstart⟩ := h
  exact ⟨before, [], (List.append_nil _).symm, hstart⟩

theorem ZeroRun.LiesIn.append {run : ZeroRun} {gs : List UInt16} (h : run.LiesIn gs)
    (hs : List UInt16) : run.LiesIn (gs ++ hs) := by
  obtain ⟨before, after, rfl, hstart⟩ := h
  exact ⟨before, after ++ hs, List.append_assoc _ _ _, hstart⟩

/-- Another zero group makes a run longer, or starts one. -/
theorem ZeroRun.EndsIn.concat {run : ZeroRun} {gs : List UInt16}
    (h : run.length = 0 ∨ run.EndsIn gs) :
    (⟨if run.length = 0 then gs.length else run.start, run.length + 1⟩ : ZeroRun).EndsIn
      (gs ++ [0]) := by
  by_cases hzero : run.length = 0
  · rw [if_pos hzero, hzero]
    exact ⟨gs, rfl, rfl⟩
  · obtain ⟨before, rfl, hstart⟩ := h.resolve_left hzero
    rw [if_neg hzero]
    exact ⟨before, by rw [List.append_assoc, List.replicate_succ'], hstart⟩

/-- **The run that is found is one.** -/
theorem liesIn_longestZeroRun {seen : List UInt16} {current longest : ZeroRun} (rest : List UInt16)
    (hcurrent : current.length = 0 ∨ current.EndsIn seen) (hlongest : longest.LiesIn seen) :
    (longestZeroRun seen.length current longest rest).LiesIn (seen ++ rest) := by
  -- by induction on what is still to be seen; the run so far ends where it begins
  induction rest generalizing seen current longest with
  | nil =>
      rw [List.append_nil]
      exact hlongest
  | cons g rest ih =>
      have hlength : seen.length + 1 = (seen ++ [g]).length := by simp
      have happend : seen ++ g :: rest = (seen ++ [g]) ++ rest := by simp
      rw [longestZeroRun, happend, hlength]
      by_cases hg : g = 0
      · subst hg
        rw [if_pos rfl]
        have hnext := ZeroRun.EndsIn.concat hcurrent
        dsimp only
        by_cases hlonger : longest.length < current.length + 1
        · rw [if_pos hlonger]
          exact ih (.inr hnext) hnext.liesIn
        · rw [if_neg hlonger]
          exact ih (.inr hnext) (hlongest.append _)
      · rw [if_neg hg]
        exact ih (.inl rfl) (hlongest.append _)

/-! ## Version 6 and socket addresses -/

theorem V6Address.isWrittenIn_chars (x : V6Address) : x.IsWrittenIn x.chars := by
  unfold V6Address.chars
  cases hmapped : x.mapped? with
  | some y =>
      -- a mapped address is five zero groups, `ffff` and the version 4 address
      have hfirst : IsGroup ['f', 'f', 'f', 'f'] 0xFFFF := isGroup_groupChars 0xFFFF
      have hback : Groups true ("ffff:".toList ++ y.chars) (0xFFFF :: y.groups) true :=
        .cons true hfirst (.embedded false y.isWrittenIn_chars)
      exact .short (.nil true) hback (show 0 + 3 < 8 by decide) (groups_of_mapped? hmapped)
  | none =>
      have hrun : (longestZeroRun 0 ⟨0, 0⟩ ⟨0, 0⟩ x.groups).LiesIn x.groups :=
        @liesIn_longestZeroRun [] _ _ x.groups (.inl rfl) ⟨[], [], rfl, rfl⟩
      generalize longestZeroRun 0 ⟨0, 0⟩ ⟨0, 0⟩ x.groups = run at hrun
      dsimp only
      by_cases hlong : run.length ≥ 2
      · rw [if_pos hlong]
        obtain ⟨before, after, hgroups, hstart⟩ := hrun
        have hlength : before.length + run.length + after.length = 8 := by
          rw [← x.length_groups, hgroups]
          simp [Nat.add_assoc]
        have hfront : x.groups.take run.start = before := by
          rw [hgroups, List.append_assoc, ← hstart, List.take_left]
        have hback : x.groups.drop (run.start + run.length) = after := by
          have hrun : (before ++ List.replicate run.length 0).length = run.start + run.length := by
            simp [hstart]
          rw [hgroups, ← hrun, List.drop_left]
        -- the `::` stands for as many zeros as the run is long
        have hzeros : 8 - before.length - after.length = run.length := by omega
        rw [hfront, hback]
        refine .short (groups_joinGroups before) (groups_joinGroups after) (by omega) ?_
        rw [hzeros]
        exact hgroups
      · rw [if_neg hlong]
        exact .full (groups_joinGroups x.groups)

/-- **What is written for an address is one of its texts.** -/
theorem Address.isWrittenIn_chars (x : Address) : x.IsWrittenIn x.chars := by
  cases x with
  | v4 x => exact x.isWrittenIn_chars
  | v6 x => exact x.isWrittenIn_chars

/-- **What is written for a socket address is one of its texts.** -/
theorem SocketAddress.isWrittenIn_chars (x : SocketAddress) : x.IsWrittenIn x.chars := by
  cases x with
  | v4 x port => exact .v4 x.isWrittenIn_chars (isPort_naturalChars port)
  | v6 x port zone =>
      have hzone : IsZone (if zone = 0 then [] else '%' :: naturalChars zone.toNat) zone := by
        by_cases hzero : zone = 0
        · rw [if_pos hzero, hzero]
          exact .none
        · rw [if_neg hzero]
          exact .number (isNumber_toDigits (by decide) (by decide) zone.toNat_lt (by simp))
      have h := SocketAddress.IsWrittenIn.v6 x.isWrittenIn_chars hzone (isPort_naturalChars port)
      unfold SocketAddress.chars
      simpa only [List.append_assoc, List.cons_append] using h

/-- **A socket address is read back from what is written for it.** -/
theorem SocketAddress.ofChars?_chars (x : SocketAddress) : SocketAddress.ofChars? x.chars = some x :=
  SocketAddress.ofChars?_eq_some_iff.2 x.isWrittenIn_chars

end BlindSign.Net
