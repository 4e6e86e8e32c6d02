import BlindSign.Proofs.Json.Grammar
import BlindSign.Proofs.Presentation
import BlindSign.Service

set_option autoImplicit false

/-! # A body is read in one way

A text is split at its tokens whatever follows it, so what may follow is settled by its last token.
White space may always follow (`Tree.parse?_append_spaces`), and nothing else may follow an object
or an array (`Tree.parse?_append_eq_none`).

A request is read from a body if and only if the body presents the request
(`Request.ofBody?_eq_some_iff`): everything that is read was laid down as a presentation.

**So no body that is read leaves open which request it is** (`Request.ofBody?_isUnambiguous`): an
object has each field at most once, however its keys are spelled, and the required ones; and nothing
but white space may stand behind it.
-/

namespace BlindSign

namespace Json

/-! ## What may follow a text -/

namespace Token

variable {ts : List Token} {bs rest : List UInt8}

/-- White space may follow a text. -/
theorem Spaced.append_spaces (h : Spaced ts bs) (hrest : ∀ b ∈ rest, isSpace b = true) :
    Spaced ts (bs ++ rest) := by
  induction h with
  | nil =>
      induction rest with
      | nil => exact .nil
      | cons b rest ih =>
          obtain ⟨hb, hrest⟩ := List.forall_mem_cons.1 hrest
          exact .space hb (ih hrest)
  | space hb _ ih => exact .space hb ih
  | token t _ ih =>
      rw [List.append_assoc]
      exact .token t ih

/-- A text without tokens is white space. -/
theorem Spaced.isSpace_of_nil (h : Spaced [] bs) : ∀ b ∈ bs, isSpace b = true := by
  generalize hts : ([] : List Token) = ts at h
  induction h with
  | nil => simp
  | space hb _ ih => exact List.forall_mem_cons.2 ⟨hb, ih hts⟩
  | token => cases hts

end Token

namespace Tree

variable {t : Tree} {bs rest : List UInt8}

/-- A tree with brackets around it. -/
def IsContainer : Tree → Prop
  | .array _ => True
  | .object _ => True
  | _ => False

/-- White space may follow a tree. -/
theorem parse?_append_spaces (h : parse? bs = some t)
    (hrest : ∀ b ∈ rest, Token.isSpace b = true) : parse? (bs ++ rest) = some t := by
  obtain ⟨hlegal, hspaced⟩ := parse?_eq_some_iff.1 h
  exact parse?_eq_some_iff.2 ⟨hlegal, hspaced.append_spaces hrest⟩

/-- Nothing that follows goes on with the last token of a container. -/
theorem IsContainer.closed (h : t.IsContainer) :
    ∀ token ∈ t.tokens.getLast?, token.Closed rest := by
  rintro token hlast n rfl
  cases t with
  | array items =>
      rw [tokens, List.getLast?_concat] at hlast
      cases hlast
  | object members =>
      rw [tokens, List.getLast?_concat] at hlast
      cases hlast
  | _ => exact h.elim

/-- Nothing but white space may follow a container. -/
theorem parse?_append_eq_none (h : parse? bs = some t) (ht : t.IsContainer)
    (hrest : ∃ b ∈ rest, Token.isSpace b = false) : parse? (bs ++ rest) = none := by
  obtain ⟨hlegal, hspaced⟩ := parse?_eq_some_iff.1 h
  have hreadable : ∀ token ∈ t.tokens, token.IsReadable :=
    fun token htoken => Token.isReadable_of_isLegal (hlegal token htoken)
  obtain ⟨fuel, -, hscan⟩ :=
    hspaced.scansUpTo hreadable t.apart_tokens ht.closed _ [] (Nat.le_refl (bs ++ rest).length)
  refine Option.eq_none_iff_forall_ne_some.2 fun t' ht' => ?_
  obtain ⟨ts, hts, htree⟩ := Option.bind_eq_some_iff.1 ht'
  obtain ⟨new, rfl, hnew, -⟩ := Token.scanFrom_sound (hscan.symm.trans hts)
  rw [List.append_nil, List.reverse_reverse, ofTokens?, foldlM_tokens] at htree
  -- behind a complete tree there is no container left that a further token could go on with
  cases new with
  | nil =>
      obtain ⟨b, hb, hblank⟩ := hrest
      cases hblank.symm.trans (hnew.isSpace_of_nil b hb)
  | cons token new => cases htree

end Tree

/-! ## Keys -/

/-- A text spells at most one key. -/
theorem RawText.Spells.unique {raw : RawText} {s s' : String}
    (h : RawText.Spells raw (Text.Utf8.encode s)) (h' : RawText.Spells raw (Text.Utf8.encode s')) :
    s = s' := Option.some.inj (h.decode?_eq.symm.trans h'.decode?_eq)

section

variable {members : List (RawText × Tree)} {entries : List (String × Tree)} {key : String}

/-- A key is spelled by some member just if it has a value. -/
theorem Spelled.exists_spells_iff (h : Spelled members entries) :
    (∃ m ∈ members, RawText.Spells m.1 (Text.Utf8.encode key)) ↔ valuesOf key entries ≠ [] := by
  constructor
  · rintro ⟨m, hm, hspells⟩ hnil
    obtain ⟨e, he, hname, -⟩ := exists_of_mem_right h.flip hm
    obtain rfl := hspells.unique hname
    have hmem : e.2 ∈ valuesOf e.1 entries :=
      List.mem_map_of_mem (List.mem_filter.2 ⟨he, decide_eq_true rfl⟩)
    rw [hnil] at hmem
    cases hmem
  · intro hvalues
    obtain ⟨tree, htree⟩ := List.exists_mem_of_ne_nil _ hvalues
    obtain ⟨e, he, -⟩ := List.mem_map.1 htree
    obtain ⟨hmem, hname⟩ := List.mem_filter.1 he
    obtain ⟨m, hm, hspells, -⟩ := exists_of_mem_right h hmem
    exact ⟨m, hm, of_decide_eq_true hname ▸ hspells⟩

/-- A key with at most one value is not spelled by two members. -/
theorem Spelled.pairwise (h : Spelled members entries)
    (hone : (valuesOf key entries).length ≤ 1) :
    members.Pairwise fun m m' => ¬ (RawText.Spells m.1 (Text.Utf8.encode key) ∧
      RawText.Spells m'.1 (Text.Utf8.encode key)) := by
  induction h with
  | nil => exact .nil
  | @cons m e members entries hfirst hrest ih =>
      rw [valuesOf_cons] at hone
      refine .cons (fun m' hm' hboth => ?_) (ih ?_)
      · -- the first member has taken the only value that there may be
        obtain rfl := hfirst.1.unique hboth.1
        rw [if_pos rfl, List.length_cons] at hone
        have hnone := List.eq_nil_of_length_eq_zero (by omega : (valuesOf e.1 entries).length = 0)
        exact (Spelled.exists_spells_iff hrest).1 ⟨m', hm', hboth.2⟩ hnone
      · split at hone
        · rw [List.length_cons] at hone
          omega
        · exact hone

end

end Json

namespace Request

open Json

/-! ## What is read as a request -/

variable {r : Request} {body : List UInt8}

theorem ofTree?_eq_some_iff {tree : Tree} (hlegal : tree.IsLegal) :
    ofTree? tree = some r ↔ Presents r.fields tree := by
  refine ⟨fun h => ?_, ofTree?_of_presents⟩
  obtain ⟨slots, hslots, h⟩ := Option.bind_eq_some_iff.1 h
  have hholds := (Slots.ofTree?_eq_some_iff (by decide) hlegal).1 hslots
  -- there are as many slots as fields
  rcases slots with _ | ⟨a, _ | ⟨b, _ | ⟨c, _ | ⟨d, _ | ⟨e, _ | _⟩⟩⟩⟩⟩
  case cons.cons.cons.cons.cons.nil =>
    obtain ⟨account, haccount, h⟩ := Option.bind_eq_some_iff.1 h
    obtain ⟨query, hquery, h⟩ := Option.bind_eq_some_iff.1 h
    obtain ⟨phone, hphone, h⟩ := Option.bind_eq_some_iff.1 h
    obtain ⟨time, htime, h⟩ := Option.bind_eq_some_iff.1 h
    obtain ⟨session, hsession, h⟩ := Option.bind_eq_some_iff.1 h
    obtain rfl := Option.some.inj h
    have hslot : ∀ slot ∈ [a, b, c, d, e], ∀ t, slot = some t → t.IsLegal :=
      fun slot hmem t ht => hholds.isLegal hlegal (ht ▸ hmem)
    simp only [List.forall_mem_cons] at hslot
    obtain ⟨ha, hb, hc, hd, he, -⟩ := hslot
    exact .of_holds hholds (.cons (.of_required_text? ha haccount) (.cons
      (.of_required_text? hb hquery) (.cons (.of_optional_text? hc hphone) (.cons
      (.of_optional_int64? hd htime) (.cons (.of_optional_text? he hsession) .nil)))))
  all_goals cases h

/-- The members of an object leave nothing open. -/
structure HasKeysOnce (members : List (RawText × Tree)) : Prop where
  /-- No two members have one of the known keys, in any spelling and with any values. -/
  once : ∀ key ∈ wireKeys, members.Pairwise fun m m' =>
    ¬ (RawText.Spells m.1 (Text.Utf8.encode key) ∧ RawText.Spells m'.1 (Text.Utf8.encode key))
  /-- The required keys are there. -/
  required : ∀ key ∈ ["account", "blindedQueryPhoneNumber"],
    ∃ m ∈ members, RawText.Spells m.1 (Text.Utf8.encode key)

/-- An object that presents a request leaves nothing open. -/
theorem hasKeysOnce_of_presents {members : List (RawText × Tree)}
    (h : Presents r.fields (.object members)) : HasKeysOnce members := by
  cases h with
  | @object _ entries hentries hfields =>
      refine ⟨fun key hkey => hentries.pairwise ?_, fun key hkey => ?_⟩
      · obtain ⟨field, hfield, rfl⟩ : ∃ field ∈ r.fields, field.1 = key :=
          List.mem_map.1 (show key ∈ r.fields.map Prod.fst from hkey)
        rcases hfields field hfield with ⟨tree, hvalues, -⟩ | ⟨hvalues, -⟩
        · rw [hvalues]
          exact Nat.le_refl 1
        · rw [hvalues]
          exact Nat.zero_le 1
      · -- the content of a required field is a text, so it is not absent
        have hfield : ∃ s, (key, Content.text s) ∈ r.fields := by
          simp only [List.mem_cons, List.not_mem_nil, or_false] at hkey
          rcases hkey with rfl | rfl
          · exact ⟨r.account, by simp [fields]⟩
          · exact ⟨r.blindedQuery, by simp [fields]⟩
        obtain ⟨s, hmem⟩ := hfield
        refine hentries.exists_spells_iff.2 ?_
        rcases hfields _ hmem with ⟨tree, hvalues, -⟩ | ⟨-, habsent⟩
        · rw [hvalues]
          exact List.cons_ne_nil _ _
        · cases habsent

/-- A tree from which a request is read has brackets around it. -/
theorem isContainer_of_presents {tree : Tree} (h : Presents r.fields tree) : tree.IsContainer := by
  cases h <;> trivial

/-- A body that may be read is submitted with the request that is read from it, or is malformed. -/
theorem readSubmission_eq {limit : Option UInt64} {http : Http.Request}
    (hbody : http.body = .complete body)
    (hlength : Service.admitsLength limit body.length = true) :
    Service.readSubmission limit http =
      (ofBody? body).elim (.error .malformedBody) fun request =>
        .ok ⟨request, body, (Client.ofHeaders http.headers none).authorization⟩ := by
  have hread : Service.readBody limit http = .ok body := by
    unfold Service.readBody
    rw [hbody]
    exact if_pos hlength
  unfold Service.readSubmission
  rw [hread]
  cases h : ofBody? body with
  | none => simp [h, bind, Except.bind]
  | some request => simp [h, bind, Except.bind]

/-- **A body that is read leaves nothing open.** If it is an object, no two members have one of the
known keys, and the required keys are there. Whatever follows it, be it an object or an array, must
be white space, and then the same request is read; with anything else behind it, it is malformed. -/
theorem ofBody?_isUnambiguous (h : ofBody? body = some r) :
    (∀ members, (Tree.object members).IsLegal →
      Token.Spaced (Tree.object members).tokens body → HasKeysOnce members) ∧
    (∀ suffix, (∃ b ∈ suffix, Token.isSpace b = false) →
      ofBody? (body ++ suffix) = none ∧
      ∀ limit (http : Http.Request), http.body = .complete (body ++ suffix) →
        Service.admitsLength limit (body ++ suffix).length = true →
          Service.readSubmission limit http = .error .malformedBody) ∧
    ∀ suffix, (∀ b ∈ suffix, Token.isSpace b = true) →
      ofBody? (body ++ suffix) = some r ∧
      ∀ limit (http : Http.Request), http.body = .complete (body ++ suffix) →
        Service.admitsLength limit (body ++ suffix).length = true →
          ∃ submission, Service.readSubmission limit http = .ok submission ∧
            submission.request = r := by
  obtain ⟨tree, htree, hrequest⟩ := Option.bind_eq_some_iff.1 h
  obtain ⟨hlegal, -⟩ := Tree.parse?_eq_some_iff.1 htree
  have hpresents := (ofTree?_eq_some_iff hlegal).1 hrequest
  refine ⟨fun members hmembers htext => ?_, fun suffix hsuffix => ?_, fun suffix hsuffix => ?_⟩
  · -- the text has one tree, which is the one that was read
    obtain rfl : tree = .object members :=
      Option.some.inj (htree.symm.trans (Tree.parse?_of_spaced hmembers htext))
    exact hasKeysOnce_of_presents hpresents
  · have hnone : ofBody? (body ++ suffix) = none := by
      rw [ofBody?, Tree.parse?_append_eq_none htree (isContainer_of_presents hpresents) hsuffix]
      rfl
    refine ⟨hnone, fun limit http hbody hlength => ?_⟩
    rw [readSubmission_eq hbody hlength, hnone]
    rfl
  · have hsome : ofBody? (body ++ suffix) = some r := by
      rw [ofBody?, Tree.parse?_append_spaces htree hsuffix]
      exact hrequest
    refine ⟨hsome, fun limit http hbody hlength => ?_⟩
    rw [readSubmission_eq hbody hlength, hsome]
    exact ⟨_, rfl, rfl⟩

/-- The body of the scattered request, and what may stand behind it. -/
theorem ofBody?_isUnambiguous_of_scattered :
    HasKeysOnce (scattered.wireEntries.map fun e => member e.1 e.2) ∧
      ofBody? (scattered.body ++ [0x20, 0x7D]) = none ∧
      ofBody? (scattered.body ++ [0x20, 0x0A]) = some scattered := by
  obtain ⟨hmembers, hrest, hspaces⟩ :=
    ofBody?_isUnambiguous scattered.isPresentedBy_body.ofBody?_eq
  have hlegal := scattered.isLegal_wireTree
  have htext : Token.Spaced scattered.wireTree.tokens scattered.body := Token.spaced_flatMap _
  rw [wireTree_eq] at hlegal htext
  exact ⟨hmembers _ hlegal htext, (hrest _ ⟨0x7D, by decide, by decide⟩).1,
    (hspaces _ (by simp [Token.isSpace])).1⟩

end Request

end BlindSign
