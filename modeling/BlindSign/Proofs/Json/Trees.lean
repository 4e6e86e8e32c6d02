import BlindSign.Json.Record
import BlindSign.Proofs.Json.Numbers
import BlindSign.Proofs.Json.Strings
import Mathlib.Data.List.Chain

set_option autoImplicit false

/-! # A written JSON tree is read back

Reading undoes writing in two layers. The tokens of a tree lead the reader through the tree,
whatever containers are open around it, and leave it right after the tree (`foldlM_tokens`), by
induction on the tree. And a text is split where its tokens were joined, whether or not white space
stands between them and whatever follows it (`Spaced.scansUpTo`): only a number could go on, and
where a reader gets through, no number follows on a number (`apart_of_foldlM`).

**A tree whose numbers and strings the grammar admits is read back from its text, with white space
anywhere between tokens** (`parse?_of_spaced`).
-/

namespace BlindSign.Json

/-! ## One token -/

namespace NumberText

theorem ends_cons {b : UInt8} (hb : goesOn b = false) (rest : List UInt8) : Ends (b :: rest) := by
  intro b' hb'
  obtain rfl := Option.some.inj hb'
  exact hb

/-- A legal number begins with a minus sign or a digit. -/
theorem IsLegal.begins {n : NumberText} (h : n.IsLegal) :
    ∃ b bs, n.bytes = b :: bs ∧ (b = 0x2D ∨ isDigit b = true) := by
  obtain ⟨b, bs, hwhole, hb⟩ := h.whole.exists_cons
  rw [bytes_eq, hwhole]
  cases n.negative with
  | true => exact ⟨_, _, rfl, .inl rfl⟩
  | false => exact ⟨_, _, rfl, .inr hb⟩

end NumberText

namespace Token

/-- Whether what follows a token does not go on with it, which only a number could. -/
def Closed (t : Token) (rest : List UInt8) : Prop := ∀ n, t = .number n → NumberText.Ends rest

/-- A token that is read as it is written, in front of anything that does not go on with it. -/
structure IsReadable (t : Token) : Prop where
  begins : ∃ b bs, t.bytes = b :: bs ∧ isSpace b = false
  next?_eq : ∀ rest, t.Closed rest → next? (t.bytes ++ rest) = some (t, rest)

/-- Marks and names are read as they are written. -/
theorem isReadable_of_mark {t : Token} (hnumber : ∀ n, t ≠ .number n) (htext : ∀ s, t ≠ .text s) :
    t.IsReadable := by
  cases t with
  | number n => exact absurd rfl (hnumber n)
  | text s => exact absurd rfl (htext s)
  | bool value => cases value <;> exact ⟨⟨_, _, rfl, rfl⟩, fun _ _ => rfl⟩
  | _ => exact ⟨⟨_, _, rfl, rfl⟩, fun _ _ => rfl⟩

/-- What begins with a minus sign or a digit is read as a number. -/
theorem next?_number {b : UInt8} (hb : b = 0x2D ∨ isDigit b = true) (bs : List UInt8) :
    next? (b :: bs) =
      (NumberText.next? (b :: bs)).map fun (spelling, rest) => (number spelling, rest) := by
  unfold next?
  -- each mark begins with a byte of its own, which is neither a minus sign nor a digit
  split <;> first | rfl | (next h => cases h; exact absurd hb (by decide))

/-- Whether the grammar admits a token: the digits of a number, and the bytes of a text. -/
def IsLegal : Token → Prop
  | .number n => n.IsLegal
  | .text raw => raw.IsLegal
  | _ => True

/-- What the grammar admits is read as it is written. -/
theorem isReadable_of_isLegal {t : Token} (h : t.IsLegal) : t.IsReadable := by
  cases t with
  | text raw =>
      refine ⟨⟨_, _, rfl, rfl⟩, fun rest _ => ?_⟩
      have hscan := RawText.IsLegal.scan?_eq h rest
      simp [next?, bytes, hscan]
  | number n =>
      obtain ⟨b, bs, hbytes, hb⟩ := NumberText.IsLegal.begins h
      constructor
      · refine ⟨b, bs, hbytes, ?_⟩
        rcases hb with rfl | hb
        · rfl
        · simp only [isDigit, Bool.and_eq_true, decide_eq_true_eq] at hb
          simp only [isSpace, Bool.or_eq_false_iff, decide_eq_false_iff_not]
          refine ⟨⟨⟨?_, ?_⟩, ?_⟩, ?_⟩ <;> (rintro rfl; exact absurd hb (by decide))
      · intro rest hrest
        have hnext := NumberText.IsLegal.next?_eq h (hrest _ rfl)
        rw [hbytes, List.cons_append] at hnext
        rw [bytes, hbytes, List.cons_append, next?_number hb, hnext]
        rfl
  | _ => exact isReadable_of_mark (by simp) (by simp)

/-- The grammar admits a text that was written. -/
theorem isLegal_text (s : String) : (text (RawText.encode s)).IsLegal :=
  (RawText.spells_encode s).isLegal

/-! ## Tokens side by side -/

/-- The texts of a list of tokens, with white space anywhere between them. -/
inductive Spaced : List Token → List UInt8 → Prop
  | nil : Spaced [] []
  | space {ts : List Token} {bs : List UInt8} {b : UInt8} (hb : isSpace b = true)
      (h : Spaced ts bs) : Spaced ts (b :: bs)
  | token {ts : List Token} {bs : List UInt8} (t : Token) (h : Spaced ts bs) :
      Spaced (t :: ts) (t.bytes ++ bs)

/-- Tokens may stand side by side without white space. -/
theorem spaced_flatMap (ts : List Token) : Spaced ts (ts.flatMap bytes) := by
  induction ts with
  | nil => exact .nil
  | cons t ts ih => exact .token t ih

/-- Tokens may each stand behind a space. -/
theorem spaced_flatMap_space (ts : List Token) :
    Spaced ts (ts.flatMap fun t => 0x20 :: t.bytes) := by
  induction ts with
  | nil => exact .nil
  | cons t ts ih => exact .space rfl (.token t ih)

def isNumber : Token → Bool
  | .number _ => true
  | _ => false

/-- No number follows on a number. -/
def Apart (ts : List Token) : Prop := ts.IsChain fun a b => a.isNumber = true → b.isNumber = false

/-- Whether a text is split into these tokens, whatever was read before it. -/
def Scans (bs : List UInt8) (ts : List Token) : Prop :=
  ∀ fuel seen, bs.length ≤ fuel → scanFrom fuel seen bs = some (seen.reverse ++ ts)

/-- Whether a text in front of a rest is split into these tokens, and the rest is left to read. -/
def ScansUpTo (bs rest : List UInt8) (ts : List Token) : Prop :=
  ∀ fuel seen, (bs ++ rest).length ≤ fuel → ∃ fuel',
    rest.length ≤ fuel' ∧ scanFrom fuel seen (bs ++ rest) = scanFrom fuel' (ts.reverse ++ seen) rest

variable {ts : List Token} {bs rest : List UInt8}

theorem ScansUpTo.nil : ScansUpTo [] rest [] := fun fuel _ hf => ⟨fuel, hf, rfl⟩

theorem ScansUpTo.space {b : UInt8} (hb : isSpace b = true) (h : ScansUpTo bs rest ts) :
    ScansUpTo (b :: bs) rest ts := by
  intro fuel seen hf
  rw [List.cons_append] at hf ⊢
  obtain ⟨fuel, rfl⟩ := Nat.exists_eq_add_one_of_ne_zero (Nat.ne_zero_of_lt hf)
  rw [scanFrom, if_pos hb]
  exact h fuel seen (Nat.le_of_succ_le_succ hf)

theorem ScansUpTo.cons {t : Token} (ht : t.IsReadable) (hc : t.Closed (bs ++ rest))
    (h : ScansUpTo bs rest ts) : ScansUpTo (t.bytes ++ bs) rest (t :: ts) := by
  intro fuel seen hf
  obtain ⟨b, tail, hbytes, hspace⟩ := ht.begins
  have hnext := ht.next?_eq (bs ++ rest) hc
  rw [List.append_assoc] at hf ⊢
  rw [hbytes, List.cons_append] at hnext hf ⊢
  obtain ⟨fuel, rfl⟩ := Nat.exists_eq_add_one_of_ne_zero (Nat.ne_zero_of_lt hf)
  have hlength : (bs ++ rest).length ≤ fuel := by
    rw [List.length_cons, List.length_append] at hf
    omega
  obtain ⟨fuel', hfuel, hrest⟩ := h fuel (t :: seen) hlength
  refine ⟨fuel', hfuel, ?_⟩
  rw [scanFrom, hspace, if_neg Bool.false_ne_true, hnext, List.reverse_cons, List.append_assoc]
  exact hrest

/-- White space does not go on with a number. -/
theorem goesOn_of_isSpace {b : UInt8} (h : isSpace b = true) : NumberText.goesOn b = false := by
  simp only [isSpace, Bool.or_eq_true, decide_eq_true_eq] at h
  rcases h with ((rfl | rfl) | rfl) | rfl <;> rfl

/-- Nothing but a number goes on with a number. -/
theorem ends_bytes {t : Token} (ht : t.isNumber = false) (bs : List UInt8) :
    NumberText.Ends (t.bytes ++ bs) := by
  cases t with
  | number n => cases ht
  | bool value => cases value <;> exact NumberText.ends_cons rfl _
  | _ => exact NumberText.ends_cons rfl _

/-- What follows a number does not go on with it, if it begins with no other number. -/
theorem Spaced.ends (h : Spaced ts bs) (ht : ∀ t ∈ ts.head?, t.isNumber = false)
    (hrest : ts = [] → NumberText.Ends rest) : NumberText.Ends (bs ++ rest) := by
  cases h with
  | nil => exact hrest rfl
  | space hb _ => exact NumberText.ends_cons (goesOn_of_isSpace hb) _
  | token t _ =>
      rw [List.append_assoc]
      exact ends_bytes (ht t rfl) _

/-- A text is split into the tokens that it was put together from, if they are readable, no number
follows on a number, and the rest does not go on with the last token. -/
theorem Spaced.scansUpTo (h : Spaced ts bs) (hr : ∀ t ∈ ts, t.IsReadable) (ha : Apart ts)
    (hlast : ∀ t ∈ ts.getLast?, t.Closed rest) : ScansUpTo bs rest ts := by
  induction h with
  | nil => exact .nil
  | space hb _ ih => exact (ih hr ha hlast).space hb
  | @token ts bs t hspaced ih =>
      have hrest := ih (fun x hx => hr x (List.mem_cons_of_mem _ hx)) ha.of_cons fun x hx =>
        hlast x (List.mem_getLast?_cons hx)
      refine .cons (hr t List.mem_cons_self) ?_ hrest
      -- a number is ended by the token behind it, or by the rest if it is the last one
      rintro n rfl
      refine hspaced.ends (fun x hx => ?_) fun hnil => ?_
      · cases ts with
        | nil => cases hx
        | cons y rest =>
            obtain rfl : y = x := Option.some.inj hx
            exact ha.rel rfl
      · subst hnil
        exact hlast _ rfl n rfl

/-- A text of readable tokens is split into them, if no number follows on a number. -/
theorem Spaced.scans (h : Spaced ts bs) (hr : ∀ t ∈ ts, t.IsReadable) (ha : Apart ts) :
    Scans bs ts := by
  have hend : NumberText.Ends [] := by
    intro b hb
    cases hb
  have hall : ScansUpTo bs [] ts := h.scansUpTo hr ha fun _ _ _ _ => hend
  intro fuel seen hf
  obtain ⟨fuel', -, hscan⟩ := hall fuel seen (by rwa [List.append_nil])
  rw [List.append_nil] at hscan
  rw [hscan]
  simp [scanFrom]

end Token

namespace Tree

open Token

/-! ## The tokens of a tree lead through it -/

/-- A tree does not begin with the end of an array. -/
theorem tokens_begins (t : Tree) : ∃ x xs, t.tokens = x :: xs ∧ x ≠ .closeArray := by
  cases t <;> exact ⟨_, _, rfl, by simp⟩

/-- The first item of an array is read as any other. -/
theorem foldlM_firstItem {items : List Tree} (hne : items ≠ []) (outer : List Frame)
    (ts : List Token) :
    (itemTokens items ++ ts).foldlM Cursor.step ⟨.array [] :: outer, .firstItem⟩ =
      (itemTokens items ++ ts).foldlM Cursor.step ⟨.array [] :: outer, .value⟩ := by
  have hbegins : ∃ x xs, itemTokens items = x :: xs ∧ x ≠ .closeArray := by
    match items with
    | [item] => exact tokens_begins item
    | item :: next :: rest =>
        obtain ⟨x, xs, hx, hne⟩ := tokens_begins item
        exact ⟨x, xs ++ .comma :: itemTokens (next :: rest), by simp [itemTokens, hx], hne⟩
  obtain ⟨x, xs, hx, hne⟩ := hbegins
  have hstep : Cursor.step ⟨.array [] :: outer, .firstItem⟩ x =
      Cursor.step ⟨.array [] :: outer, .value⟩ x := by
    cases x <;> first | rfl | exact absurd rfl hne
  rw [hx, List.cons_append, List.foldlM_cons, List.foldlM_cons, hstep]

/-- The first key of an object is read as any other. -/
theorem foldlM_firstKey {members : List (RawText × Tree)} (hne : members ≠ [])
    (frames : List Frame) (ts : List Token) :
    (memberTokens members ++ ts).foldlM Cursor.step ⟨frames, .firstKey⟩ =
      (memberTokens members ++ ts).foldlM Cursor.step ⟨frames, .key []⟩ := by
  match members with
  | [(key, value)] => rfl
  | (key, value) :: next :: rest => rfl

mutual

/-- Whatever containers are open around it, a tree is read as a value of its place. -/
theorem foldlM_tokens (t : Tree) (frames : List Frame) (ts : List Token) :
    (t.tokens ++ ts).foldlM Cursor.step ⟨frames, .value⟩ =
      ts.foldlM Cursor.step ⟨frames, .after t⟩ := by
  cases t with
  | null => rfl
  | bool value => rfl
  | number spelling => rfl
  | text raw => rfl
  | array items =>
      simp only [tokens, List.cons_append, List.append_assoc, List.nil_append]
      by_cases hne : items = []
      · subst hne
        rfl
      · exact (foldlM_firstItem hne frames _).trans (foldlM_itemTokens items hne [] frames ts)
  | object members =>
      simp only [tokens, List.cons_append, List.append_assoc, List.nil_append]
      by_cases hne : members = []
      · subst hne
        rfl
      · exact (foldlM_firstKey hne frames _).trans (foldlM_memberTokens members hne [] frames ts)

/-- Items are put behind those that were read before them. -/
theorem foldlM_itemTokens (items : List Tree) (hne : items ≠ []) (done : List Tree)
    (outer : List Frame) (ts : List Token) :
    (itemTokens items ++ .closeArray :: ts).foldlM Cursor.step ⟨.array done :: outer, .value⟩ =
      ts.foldlM Cursor.step ⟨outer, .after (.array (done.reverse ++ items))⟩ := by
  match items with
  | [item] =>
      rw [itemTokens, foldlM_tokens]
      simp [Cursor.step, Cursor.afterValue]
  | item :: next :: rest =>
      have hrest := foldlM_itemTokens (next :: rest) (List.cons_ne_nil _ _) (item :: done) outer ts
      simp only [List.reverse_cons, List.append_assoc, List.cons_append, List.nil_append] at hrest
      simp only [itemTokens, List.append_assoc, List.cons_append]
      rw [foldlM_tokens]
      exact hrest

/-- Members are put behind those that were read before them. -/
theorem foldlM_memberTokens (members : List (RawText × Tree)) (hne : members ≠ [])
    (done : List (RawText × Tree)) (frames : List Frame) (ts : List Token) :
    (memberTokens members ++ .closeObject :: ts).foldlM Cursor.step ⟨frames, .key done⟩ =
      ts.foldlM Cursor.step ⟨frames, .after (.object (done.reverse ++ members))⟩ := by
  match members with
  | [(key, value)] =>
      have hvalue := foldlM_tokens value (.object done key :: frames) (.closeObject :: ts)
      refine hvalue.trans ?_
      simp [Cursor.step, Cursor.afterValue]
  | (key, value) :: next :: rest =>
      have hrest :=
        foldlM_memberTokens (next :: rest) (List.cons_ne_nil _ _) ((key, value) :: done) frames ts
      simp only [List.reverse_cons, List.append_assoc, List.cons_append, List.nil_append] at hrest
      simp only [memberTokens, List.append_assoc, List.cons_append]
      exact (foldlM_tokens value (.object done key :: frames) _).trans hrest

end

/-- The tokens of a tree are read as the tree. -/
theorem ofTokens?_tokens (t : Tree) : ofTokens? t.tokens = some t := by
  have h := foldlM_tokens t [] []
  rw [List.append_nil] at h
  rw [ofTokens?, h]
  rfl

/-! ## The text of a tree is split into its tokens -/

/-- Behind a completed value no number is read. -/
theorem isNumber_of_step_after {frames : List Frame} {tree : Tree} {t : Token} {c : Cursor}
    (h : Cursor.step ⟨frames, .after tree⟩ t = some c) : t.isNumber = false := by
  cases t with
  | number n =>
      -- only a comma or the end of the container leads on
      have hnone : Cursor.afterValue frames tree (.number n) = none := by
        unfold Cursor.afterValue
        split <;> first | rfl | contradiction
      cases hnone.symm.trans h
  | _ => rfl

/-- After a number the reader is behind a completed value. -/
theorem position_of_step_number {c c' : Cursor} {n : NumberText}
    (h : c.step (.number n) = some c') : ∃ tree, c'.position = .after tree := by
  obtain ⟨frames, position⟩ := c
  have hbegin : Cursor.beginValue frames (.number n) = some c' →
      ∃ tree, c'.position = .after tree := by
    intro h
    obtain rfl := Option.some.inj h
    exact ⟨_, rfl⟩
  cases position with
  | value => exact hbegin h
  | firstItem =>
      unfold Cursor.step at h
      dsimp only at h
      split at h
      · contradiction
      · exact hbegin h
  | after tree => cases isNumber_of_step_after h
  | _ => cases h

/-- Where the reader gets through, no number follows on a number. -/
theorem apart_of_foldlM {ts : List Token} {c c' : Cursor}
    (h : ts.foldlM Cursor.step c = some c') : Apart ts := by
  induction ts generalizing c with
  | nil => exact .nil
  | cons t ts ih =>
      obtain ⟨c₁, hstep, hrest⟩ := Option.bind_eq_some_iff.1 h
      cases ts with
      | nil => exact .singleton t
      | cons t' ts =>
          obtain ⟨c₂, hstep', _⟩ := Option.bind_eq_some_iff.1 hrest
          refine .cons_cons ?_ (ih hrest)
          intro ht
          cases t with
          | number n =>
              obtain ⟨frames, position⟩ := c₁
              obtain ⟨tree, hposition⟩ := position_of_step_number hstep
              obtain rfl : position = .after tree := hposition
              exact isNumber_of_step_after hstep'
          | _ => cases ht

theorem apart_tokens (t : Tree) : Apart t.tokens := by
  have h := foldlM_tokens t [] []
  rw [List.append_nil] at h
  exact apart_of_foldlM h

/-- A tree whose numbers and strings are such as the grammar admits. -/
def IsLegal (t : Tree) : Prop := ∀ token ∈ t.tokens, token.IsLegal

/-- **A legal tree is read back from its text, with white space anywhere between tokens.** -/
theorem parse?_of_spaced {t : Tree} {bs : List UInt8} (h : t.IsLegal)
    (hs : Spaced t.tokens bs) : parse? bs = some t := by
  have hreadable : ∀ token ∈ t.tokens, token.IsReadable :=
    fun token ht => isReadable_of_isLegal (h token ht)
  have hscan : Token.scan? bs = some t.tokens :=
    hs.scans hreadable t.apart_tokens _ [] (Nat.le_refl _)
  rw [parse?, hscan]
  exact ofTokens?_tokens t

/-- A legal tree is read back from its compact text. -/
theorem parse?_render {t : Tree} (h : t.IsLegal) : parse? t.render = some t :=
  parse?_of_spaced h (spaced_flatMap t.tokens)

/-! ## Legal trees -/

theorem isLegal_null : IsLegal .null := by
  intro x hx
  obtain rfl := List.mem_singleton.1 hx
  trivial

theorem isLegal_bool (value : Bool) : IsLegal (.bool value) := by
  intro x hx
  obtain rfl := List.mem_singleton.1 hx
  trivial

theorem isLegal_string {raw : RawText} (h : raw.IsLegal) : IsLegal (.text raw) := by
  intro x hx
  obtain rfl := List.mem_singleton.1 hx
  exact h

theorem isLegal_ofText (s : String) : IsLegal (ofText s) :=
  isLegal_string (Token.isLegal_text s)

theorem isLegal_ofInt64 (n : Int64) : IsLegal (ofInt64 n) := by
  intro x hx
  obtain rfl := List.mem_singleton.1 hx
  exact NumberText.isLegal_ofInt n.toInt

theorem isLegal_orNull {α : Type} {write : α → Tree} (h : ∀ a, (write a).IsLegal)
    (o : Option α) : IsLegal (orNull write o) := by
  cases o with
  | none => exact isLegal_null
  | some a => exact h a

theorem isLegal_memberTokens {members : List (RawText × Tree)}
    (h : ∀ m ∈ members, (Token.text m.1).IsLegal ∧ m.2.IsLegal) :
    ∀ x ∈ memberTokens members, x.IsLegal := by
  have hcolon : Token.colon.IsLegal := trivial
  have hcomma : Token.comma.IsLegal := trivial
  induction members with
  | nil => simp [memberTokens]
  | cons m rest ih =>
      obtain ⟨key, value⟩ := m
      obtain ⟨hkey, hvalue⟩ := h _ List.mem_cons_self
      have hrest := ih fun m hm => h m (List.mem_cons_of_mem _ hm)
      cases rest with
      | nil =>
          simp only [memberTokens, List.forall_mem_cons]
          exact ⟨hkey, hcolon, hvalue⟩
      | cons next rest =>
          simp only [memberTokens, List.cons_append, List.forall_mem_cons, List.forall_mem_append]
          exact ⟨hkey, hcolon, hvalue, hcomma, hrest⟩

/-- An object is legal if the keys and the values of its members are. -/
theorem isLegal_object {members : List (RawText × Tree)}
    (h : ∀ m ∈ members, (Token.text m.1).IsLegal ∧ m.2.IsLegal) : IsLegal (.object members) := by
  unfold IsLegal
  simp only [tokens, List.cons_append, List.forall_mem_cons, List.forall_mem_append]
  exact ⟨trivial, isLegal_memberTokens h, trivial, by simp⟩

theorem mem_itemTokens {items : List Tree} {item : Tree} (hi : item ∈ items) {x : Token}
    (hx : x ∈ item.tokens) : x ∈ itemTokens items := by
  induction items with
  | nil => cases hi
  | cons first rest ih =>
      rcases List.mem_cons.1 hi with rfl | hi
      · cases rest <;> simp [itemTokens, hx]
      · cases rest with
        | nil => cases hi
        | cons next rest => simp [itemTokens, ih hi]

theorem mem_memberTokens {members : List (RawText × Tree)} {m : RawText × Tree} (hm : m ∈ members)
    {x : Token} (hx : x = .text m.1 ∨ x ∈ m.2.tokens) : x ∈ memberTokens members := by
  induction members with
  | nil => cases hm
  | cons first rest ih =>
      rcases List.mem_cons.1 hm with rfl | hm
      · obtain ⟨key, value⟩ := m
        cases rest <;> rcases hx with rfl | hx <;> simp [memberTokens, *]
      · cases rest with
        | nil => cases hm
        | cons next rest => simp [memberTokens, ih hm]

/-- The items of a legal array are legal. -/
theorem IsLegal.item {items : List Tree} (h : IsLegal (.array items)) {item : Tree}
    (hi : item ∈ items) : item.IsLegal := by
  intro x hx
  refine h x ?_
  simp [tokens, mem_itemTokens hi hx]

/-- The keys and the values of a legal object are legal. -/
theorem IsLegal.member {members : List (RawText × Tree)} (h : IsLegal (.object members))
    {m : RawText × Tree} (hm : m ∈ members) : m.1.IsLegal ∧ m.2.IsLegal := by
  have hx : ∀ x, x = .text m.1 ∨ x ∈ m.2.tokens → x.IsLegal := by
    intro x hx
    refine h x ?_
    simp [tokens, mem_memberTokens hm hx]
  exact ⟨hx (.text m.1) (.inl rfl), fun x hmem => hx x (.inr hmem)⟩

/-! ## Different members have different trees -/

theorem ofText_inj {s t : String} : ofText s = ofText t ↔ s = t := by
  constructor
  · intro h
    have hdecode := congrArg Tree.text? h
    simp only [ofText, text?, RawText.decode?_encode] at hdecode
    exact Option.some.inj hdecode
  · exact congrArg ofText

theorem ofInt64_inj {m n : Int64} : ofInt64 m = ofInt64 n ↔ m = n := by
  constructor
  · intro h
    have hvalue := congrArg NumberText.integer? (Tree.number.inj h)
    rw [NumberText.integer?_ofInt, NumberText.integer?_ofInt] at hvalue
    exact Int64.toInt_inj.1 (Option.some.inj hvalue)
  · exact congrArg ofInt64

/-- An absent member differs from every present one. -/
theorem orNull_inj {α : Type} {write : α → Tree} (hwrite : ∀ {a b}, write a = write b ↔ a = b)
    (hnull : ∀ a, write a ≠ .null) {o o' : Option α} :
    orNull write o = orNull write o' ↔ o = o' := by
  cases o with
  | none =>
      cases o' with
      | none => simp
      | some b => simp [orNull, (hnull b).symm]
  | some a =>
      cases o' with
      | none => simp [orNull, hnull a]
      | some b => simp [orNull, hwrite]

end Tree

end BlindSign.Json
