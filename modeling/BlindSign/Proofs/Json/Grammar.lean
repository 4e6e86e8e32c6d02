import BlindSign.Proofs.Json.Trees

set_option autoImplicit false

/-! # What is read is in the grammar

The converse of reading back: whatever is read from a text was written there. A string that was
found is legal and ends at its quote (`RawText.scan?_sound`), a number that was read is legal
(`NumberText.next?_sound`), a text is split into legal tokens with white space between them
(`Token.scan?_sound`), and tokens that make up a tree are the tokens of the tree
(`Tree.ofTokens?_eq_some_iff`). For the last, a reader on its way remembers the tokens that have led
it there (`Tree.Cursor.trail`), and each step adds one.

**A text is read as a tree if and only if it is a text of the tree, with white space anywhere
between tokens, and the tree is legal** (`Tree.parse?_eq_some_iff`).
-/

namespace BlindSign.Json

/-! ## Strings -/

namespace RawText

theorem isSome_unit? {a b c d : UInt8} (ha : (hexDigit? a).isSome = true)
    (hb : (hexDigit? b).isSome = true) (hc : (hexDigit? c).isSome = true)
    (hd : (hexDigit? d).isSome = true) : (unit? a b c d).isSome = true := by
  obtain ⟨_, ha⟩ := Option.isSome_iff_exists.1 ha
  obtain ⟨_, hb⟩ := Option.isSome_iff_exists.1 hb
  obtain ⟨_, hc⟩ := Option.isSome_iff_exists.1 hc
  obtain ⟨_, hd⟩ := Option.isSome_iff_exists.1 hd
  simp [unit?, ha, hb, hc, hd]

/-- What may follow in each phase up to the closing quote. -/
def Phase.Awaits : Phase → RawText → Prop
  | .text, raw => raw.IsLegal
  | .escape, raw => IsLegal (0x5C :: raw)
  | .digits after, raw => ∃ digits tail, raw = digits ++ tail ∧ digits.length = after + 1 ∧
      (∀ b ∈ digits, (hexDigit? b).isSome = true) ∧ IsLegal tail

/-- An escape of four digits is complete when they are. -/
theorem Phase.Awaits.escape {raw : RawText} (h : (Phase.digits 3).Awaits raw) :
    Phase.escape.Awaits (0x75 :: raw) := by
  obtain ⟨digits, tail, rfl, hlength, hdigits, htail⟩ := h
  match digits, hlength with
  | [a, b, c, d], _ =>
      simp only [List.forall_mem_cons] at hdigits
      obtain ⟨ha, hb, hc, hd, _⟩ := hdigits
      exact .unit (isSome_unit? ha hb hc hd) htail

theorem Phase.Awaits.digit {after : Nat} {b : UInt8} {raw : RawText}
    (hb : (hexDigit? b).isSome = true)
    (h : (match after with
      | 0 => Phase.text
      | after + 1 => .digits after).Awaits raw) : (Phase.digits after).Awaits (b :: raw) := by
  cases after with
  | zero => exact ⟨[b], raw, rfl, rfl, by simpa using hb, h⟩
  | succ after =>
      obtain ⟨digits, tail, rfl, hlength, hdigits, htail⟩ := h
      exact ⟨b :: digits, tail, rfl, by simp [hlength],
        List.forall_mem_cons.2 ⟨hb, hdigits⟩, htail⟩

theorem scanFrom_sound {bs rest : List UInt8} {raw : RawText} (phase : Phase)
    (seen : List UInt8) (h : scanFrom phase seen bs = some (raw, rest)) :
    ∃ new, raw = seen.reverse ++ new ∧ phase.Awaits new ∧ bs = new ++ 0x22 :: rest := by
  induction bs generalizing phase seen with
  | nil => cases phase <;> cases h
  | cons b bs ih =>
      -- what is seen grows with every byte, so the hypothesis is for any `seen`
      have hnext : ∀ phase' : Phase, scanFrom phase' (b :: seen) bs = some (raw, rest) →
          ∃ new, raw = seen.reverse ++ b :: new ∧ phase'.Awaits new ∧
            b :: bs = b :: new ++ 0x22 :: rest := by
        intro phase' h
        obtain ⟨new, hraw, hawaits, hbs⟩ := ih phase' (b :: seen) h
        exact ⟨new, by simpa using hraw, hawaits, by simp [hbs]⟩
      cases phase with
      | text =>
          unfold scanFrom at h
          split at h
          · next hquote =>
              obtain ⟨rfl, rfl⟩ := Prod.mk.inj (Option.some.inj h)
              exact ⟨[], by simp, .nil, by simp [hquote]⟩
          · split at h
            · next hslash =>
                obtain ⟨new, hraw, hawaits, hbs⟩ := hnext .escape h
                subst hslash
                exact ⟨_, hraw, hawaits, hbs⟩
            · split at h
              · cases h
              · next hquote hslash hcontrol =>
                  obtain ⟨new, hraw, hawaits, hbs⟩ := hnext .text h
                  have hplain : isPlain b = true :=
                    isPlain_iff.2 ⟨Nat.le_of_not_lt hcontrol, hquote, hslash⟩
                  exact ⟨_, hraw, .plain hplain hawaits, hbs⟩
      | escape =>
          unfold scanFrom at h
          split at h
          · next hu =>
              obtain ⟨new, hraw, hawaits, hbs⟩ := hnext (.digits 3) h
              subst hu
              exact ⟨_, hraw, hawaits.escape, hbs⟩
          · split at h
            · next hletter =>
                obtain ⟨new, hraw, hawaits, hbs⟩ := hnext .text h
                exact ⟨_, hraw, .letter hletter hawaits, hbs⟩
            · cases h
      | digits after =>
          unfold scanFrom at h
          split at h
          · next hdigit =>
              obtain ⟨new, hraw, hawaits, hbs⟩ := hnext _ h
              exact ⟨_, hraw, hawaits.digit hdigit, hbs⟩
          · cases h

/-- A string that was found is legal and ends at its quote. -/
theorem scan?_sound {bs rest : List UInt8} {raw : RawText} (h : scan? bs = some (raw, rest)) :
    raw.IsLegal ∧ bs = raw ++ 0x22 :: rest := by
  obtain ⟨new, rfl, hlegal, hbs⟩ := scanFrom_sound .text [] h
  exact ⟨hlegal, hbs⟩

end RawText

/-! ## Numbers -/

namespace NumberText

theorem areDigits_takeWhile {bs : List UInt8} (h : (bs.takeWhile isDigit).isEmpty = false) :
    AreDigits (bs.takeWhile isDigit) :=
  ⟨List.isEmpty_eq_false_iff.1 h, fun b hb => List.all_eq_true.1 List.all_takeWhile b hb⟩

theorem nextFraction?_sound {bs rest : List UInt8} {fraction : Option (List UInt8)}
    (h : nextFraction? bs = some (fraction, rest)) :
    bs = fractionBytes fraction ++ rest ∧ ∀ digits, fraction = some digits → AreDigits digits := by
  unfold nextFraction? at h
  split at h
  · next tail =>
      dsimp only at h
      split at h
      · cases h
      · next hne =>
          obtain ⟨rfl, rfl⟩ := Prod.mk.inj (Option.some.inj h)
          have hdigits := areDigits_takeWhile (Bool.eq_false_iff.2 hne)
          refine ⟨by simp [fractionBytes], ?_⟩
          rintro _ ⟨rfl⟩
          exact hdigits
  · obtain ⟨rfl, rfl⟩ := Prod.mk.inj (Option.some.inj h)
    exact ⟨rfl, by simp⟩

theorem nextSign_sound (bs : List UInt8) : bs = signBytes (nextSign bs).1 ++ (nextSign bs).2 := by
  unfold nextSign
  split <;> rfl

theorem nextExponent?_sound {bs rest : List UInt8} {exponent : Option Exponent}
    (h : nextExponent? bs = some (exponent, rest)) :
    bs = optionalExponentBytes exponent ++ rest ∧
      ∀ e, exponent = some e → AreDigits e.digits := by
  cases bs with
  | nil =>
      obtain ⟨rfl, rfl⟩ := Prod.mk.inj (Option.some.inj h)
      exact ⟨rfl, by simp⟩
  | cons b bs =>
      unfold nextExponent? at h
      dsimp only at h
      split at h
      · next hmark =>
          split at h
          · cases h
          · next hne =>
              obtain ⟨rfl, rfl⟩ := Prod.mk.inj (Option.some.inj h)
              have hdigits := areDigits_takeWhile (Bool.eq_false_iff.2 hne)
              have hsign := nextSign_sound bs
              have hmark' : (if decide (b = 0x45) = true then 0x45 else 0x65) = b := by
                simp only [Bool.or_eq_true, decide_eq_true_eq] at hmark
                rcases hmark with rfl | rfl <;> rfl
              refine ⟨?_, ?_⟩
              · rw [optionalExponentBytes, exponentBytes_eq, hmark']
                simp only [List.cons_append, List.append_assoc, List.takeWhile_append_dropWhile]
                rw [← hsign]
              · rintro _ ⟨rfl⟩
                exact hdigits
      · obtain ⟨rfl, rfl⟩ := Prod.mk.inj (Option.some.inj h)
        exact ⟨rfl, by simp⟩

/-- A number that was read is legal, and was written there. -/
theorem next?_sound {bs rest : List UInt8} {n : NumberText} (h : next? bs = some (n, rest)) :
    n.IsLegal ∧ bs = n.bytes ++ rest := by
  unfold next? at h
  split at h
  next negative tail hsign =>
    have hbs : bs = (if negative then [0x2D] else []) ++ tail := by
      split at hsign <;> (obtain ⟨rfl, rfl⟩ := Prod.mk.inj hsign; rfl)
    dsimp only at h
    split at h
    · cases h
    · next hwhole =>
        simp only [Bool.not_eq_true, Bool.or_eq_false_iff] at hwhole
        obtain ⟨⟨fraction, bs₁⟩, hfraction, h⟩ := Option.bind_eq_some_iff.1 h
        obtain ⟨⟨exponent, bs₂⟩, hexponent, h⟩ := Option.bind_eq_some_iff.1 h
        obtain ⟨rfl, rfl⟩ := Prod.mk.inj (Option.some.inj h)
        obtain ⟨hbs₁, hdigits⟩ := nextFraction?_sound hfraction
        obtain ⟨hbs₂, hdigits'⟩ := nextExponent?_sound hexponent
        refine ⟨⟨areDigits_takeWhile hwhole.1, hwhole.2, hdigits, hdigits'⟩, ?_⟩
        rw [bytes_eq, hbs]
        simp only [List.append_assoc]
        rw [← hbs₂, ← hbs₁, List.takeWhile_append_dropWhile]

end NumberText

/-! ## Tokens -/

namespace Token

/-- A token that was read is legal, and was written there. -/
theorem next?_sound {bs rest : List UInt8} {t : Token} (h : next? bs = some (t, rest)) :
    t.IsLegal ∧ bs = t.bytes ++ rest := by
  unfold next? at h
  split at h
  case h_7 tail =>
    obtain ⟨⟨raw, rest'⟩, hscan, ht⟩ := Option.map_eq_some_iff.1 h
    obtain ⟨rfl, rfl⟩ := Prod.mk.inj ht
    obtain ⟨hlegal, rfl⟩ := RawText.scan?_sound hscan
    exact ⟨hlegal, by simp [bytes]⟩
  case h_11 =>
    obtain ⟨⟨n, rest'⟩, hnext, ht⟩ := Option.map_eq_some_iff.1 h
    obtain ⟨rfl, rfl⟩ := Prod.mk.inj ht
    exact NumberText.next?_sound hnext
  all_goals
    obtain ⟨rfl, rfl⟩ := Prod.mk.inj (Option.some.inj h)
    exact ⟨trivial, rfl⟩

theorem scanFrom_sound {fuel : Nat} {seen ts : List Token} {bs : List UInt8}
    (h : scanFrom fuel seen bs = some ts) :
    ∃ new, ts = seen.reverse ++ new ∧ Spaced new bs ∧ ∀ t ∈ new, t.IsLegal := by
  induction fuel generalizing seen bs with
  | zero =>
      cases bs with
      | nil =>
          obtain rfl := Option.some.inj h
          exact ⟨[], by simp, .nil, by simp⟩
      | cons b bs => cases h
  | succ fuel ih =>
      cases bs with
      | nil =>
          obtain rfl := Option.some.inj h
          exact ⟨[], by simp, .nil, by simp⟩
      | cons b bs =>
          unfold scanFrom at h
          split at h
          · next hspace =>
              obtain ⟨new, hts, hspaced, hlegal⟩ := ih h
              exact ⟨new, hts, .space hspace hspaced, hlegal⟩
          · split at h
            · next t rest hnext =>
                obtain ⟨ht, hbs⟩ := next?_sound hnext
                obtain ⟨new, hts, hspaced, hlegal⟩ := ih h
                rw [hbs]
                exact ⟨t :: new, by simpa using hts, .token t hspaced,
                  List.forall_mem_cons.2 ⟨ht, hlegal⟩⟩
            · cases h

/-- A text is split into the legal tokens that it was put together from. -/
theorem scan?_sound {bs : List UInt8} {ts : List Token} (h : scan? bs = some ts) :
    Spaced ts bs ∧ ∀ t ∈ ts, t.IsLegal := by
  obtain ⟨new, rfl, hspaced, hlegal⟩ := scanFrom_sound h
  exact ⟨hspaced, hlegal⟩

end Token

/-! ## Trees -/

namespace Tree

open Token

theorem itemTokens_append (items : List Tree) (item : Tree) :
    itemTokens (items ++ [item]) =
      (items.flatMap fun item => item.tokens ++ [.comma]) ++ item.tokens := by
  induction items with
  | nil => simp [itemTokens]
  | cons first items ih =>
      -- there is a further item, so a comma follows the first one
      obtain ⟨next, rest, hrest⟩ := List.exists_cons_of_ne_nil (l := items ++ [item]) (by simp)
      rw [List.cons_append, hrest, itemTokens, ← hrest, ih]
      · simp
      · exact List.cons_ne_nil _ _

theorem memberTokens_append (members : List (RawText × Tree)) (key : RawText) (value : Tree) :
    memberTokens (members ++ [(key, value)]) =
      (members.flatMap fun m => .text m.1 :: .colon :: m.2.tokens ++ [.comma]) ++
        .text key :: .colon :: value.tokens := by
  induction members with
  | nil => simp [memberTokens]
  | cons first members ih =>
      obtain ⟨next, rest, hrest⟩ :=
        List.exists_cons_of_ne_nil (l := members ++ [(key, value)]) (by simp)
      rw [List.cons_append, hrest, memberTokens, ← hrest, ih]
      · simp
      · exact List.cons_ne_nil _ _

/-- The tokens of members with a comma behind each. -/
def memberTrail (members : List (RawText × Tree)) : List Token :=
  members.reverse.flatMap fun m => .text m.1 :: .colon :: m.2.tokens ++ [.comma]

/-- The tokens of an open container up to the value being read. -/
def Frame.trail : Frame → List Token
  | .array items => .openArray :: items.reverse.flatMap fun item => item.tokens ++ [.comma]
  | .object members key => .openObject :: memberTrail members ++ [.text key, .colon]

/-- The tokens that were read since the innermost container was opened, if it is an array or the
key of the value is complete; else those of the innermost object. -/
def Position.trail : Position → List Token
  | .value => []
  | .firstItem => []
  | .firstKey => [.openObject]
  | .key members => .openObject :: memberTrail members
  | .colon members raw => .openObject :: memberTrail members ++ [.text raw]
  | .after tree => tree.tokens

/-- The tokens of the open containers, the outermost one first. -/
def framesTrail (frames : List Frame) : List Token := frames.reverse.flatMap Frame.trail

/-- The tokens that lead to a place. -/
def Cursor.trail (c : Cursor) : List Token := framesTrail c.frames ++ c.position.trail

theorem framesTrail_cons (frame : Frame) (frames : List Frame) :
    framesTrail (frame :: frames) = framesTrail frames ++ frame.trail := by
  simp [framesTrail]

theorem trail_beginValue {frames : List Frame} {t : Token} {c : Cursor}
    (h : Cursor.beginValue frames t = some c) : c.trail = framesTrail frames ++ [t] := by
  cases t <;> cases h <;>
    simp [Cursor.trail, Position.trail, framesTrail_cons, Frame.trail, tokens]

theorem trail_afterValue {frames : List Frame} {tree : Tree} {t : Token} {c : Cursor}
    (h : Cursor.afterValue frames tree t = some c) :
    c.trail = framesTrail frames ++ tree.tokens ++ [t] := by
  unfold Cursor.afterValue at h
  split at h
  · cases h
    simp [Cursor.trail, Position.trail, framesTrail_cons, Frame.trail]
  · cases h
    simp [Cursor.trail, Position.trail, framesTrail_cons, Frame.trail, tokens, itemTokens_append]
  · cases h
    simp [Cursor.trail, Position.trail, framesTrail_cons, Frame.trail, memberTrail]
  · cases h
    simp [Cursor.trail, Position.trail, framesTrail_cons, Frame.trail, memberTrail, tokens,
      memberTokens_append]
  · cases h

/-- Each step adds the token that was read. -/
theorem trail_step {c c' : Cursor} {t : Token} (h : c.step t = some c') :
    c'.trail = c.trail ++ [t] := by
  obtain ⟨frames, position⟩ := c
  -- a value can begin at two positions, and neither has a trail of its own
  have hbegin : Cursor.beginValue frames t = some c' → ∀ p : Position, p.trail = [] →
      c'.trail = Cursor.trail ⟨frames, p⟩ ++ [t] := by
    intro h p hp
    rw [trail_beginValue h, Cursor.trail, hp, List.append_nil]
  cases position with
  | value => exact hbegin h _ rfl
  | firstItem =>
      unfold Cursor.step at h
      dsimp only at h
      split at h
      · cases h
        simp [Cursor.trail, Position.trail, framesTrail_cons, Frame.trail, tokens, itemTokens]
      · exact hbegin h _ rfl
  | firstKey =>
      cases t <;> cases h <;>
        simp [Cursor.trail, Position.trail, tokens, memberTokens, memberTrail]
  | key members =>
      cases t <;> cases h
      simp [Cursor.trail, Position.trail]
  | colon members key =>
      cases t <;> cases h
      simp [Cursor.trail, Position.trail, framesTrail_cons, Frame.trail]
  | after tree => exact trail_afterValue h

theorem trail_foldlM {ts : List Token} {c c' : Cursor} (h : ts.foldlM Cursor.step c = some c') :
    c'.trail = c.trail ++ ts := by
  induction ts generalizing c with
  | nil =>
      obtain rfl := Option.some.inj h
      exact (List.append_nil _).symm
  | cons t ts ih =>
      obtain ⟨c₁, hstep, hrest⟩ := Option.bind_eq_some_iff.1 h
      rw [ih hrest, trail_step hstep, List.append_assoc]
      rfl

theorem trail_finish {c : Cursor} {t : Tree} (h : c.finish = some t) : c.trail = t.tokens := by
  obtain ⟨frames, position⟩ := c
  unfold Cursor.finish at h
  split at h
  · next hframes hposition =>
      obtain rfl := Option.some.inj h
      dsimp only at hframes hposition
      subst hframes hposition
      rfl
  · cases h

/-- Tokens make up a tree if and only if they are its tokens. -/
theorem ofTokens?_eq_some_iff {ts : List Token} {t : Tree} :
    ofTokens? ts = some t ↔ ts = t.tokens := by
  constructor
  · intro h
    obtain ⟨c, hfold, hfinish⟩ := Option.bind_eq_some_iff.1 h
    exact (trail_foldlM hfold).symm.trans (trail_finish hfinish)
  · rintro rfl
    exact ofTokens?_tokens t

/-- **What is read as a tree.** The texts of a legal tree, with white space anywhere between its
tokens, and no others. -/
theorem parse?_eq_some_iff {bs : List UInt8} {t : Tree} :
    parse? bs = some t ↔ t.IsLegal ∧ Spaced t.tokens bs := by
  constructor
  · intro h
    obtain ⟨ts, hscan, htree⟩ := Option.bind_eq_some_iff.1 h
    obtain ⟨hspaced, hlegal⟩ := Token.scan?_sound hscan
    obtain rfl := ofTokens?_eq_some_iff.1 htree
    exact ⟨hlegal, hspaced⟩
  · rintro ⟨hlegal, hspaced⟩
    exact parse?_of_spaced hlegal hspaced

end Tree

end BlindSign.Json
