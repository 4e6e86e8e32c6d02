import BlindSign.Proofs.Json.Records
import BlindSign.Request

set_option autoImplicit false

/-! # A request is read by its content

A request may be written in many ways: as an object or as an array, its members in any order and
among others, its texts with or without escapes, with or without white space. `IsPresentedBy` lists
the texts that present a request.

**From each of them the same request is read** (`ofBody?_of_isPresentedBy`), and so with the same
canonical encoding and the same fingerprint. The body that a request is submitted in is one of them
(`isPresentedBy_body`).
-/

namespace BlindSign.Request

open Json

/-- The fields of a request by their names on the wire. -/
def fields (r : Request) : List (String × Content) :=
  [("account", .text r.account), ("blindedQueryPhoneNumber", .text r.blindedQuery),
    ("hashedPhoneNumber", .ofText? r.phoneHash), ("timestamp", .ofInteger? r.timestamp),
    ("sessionID", .ofText? r.sessionId)]

/-- Whether a text presents a request: it is the text of a tree that presents the fields, with white
space anywhere between tokens. -/
def IsPresentedBy (r : Request) (text : List UInt8) : Prop :=
  ∃ tree : Tree, Presents r.fields tree ∧ tree.IsLegal ∧ Token.Spaced tree.tokens text

variable {r : Request}

/-! ## Reading -/

/-- A request is read from every tree that presents its fields. -/
theorem ofTree?_of_presents {tree : Tree} (h : Presents r.fields tree) :
    ofTree? tree = some r := by
  obtain ⟨slots, hslots, hfits⟩ := h.exists_slots (show wireKeys.Nodup by decide)
  change Slots.ofTree? wireKeys tree = some slots at hslots
  rcases hfits with _ | ⟨haccount, _ | ⟨hquery, _ | ⟨hphone, _ | ⟨htime, _ | ⟨hsession, _ | _⟩⟩⟩⟩⟩
  unfold ofTree?
  simp [hslots, haccount.required_text?_eq, hquery.required_text?_eq, hphone.optional_text?_eq,
    htime.optional_int64?_eq, hsession.optional_text?_eq]

theorem IsPresentedBy.ofBody?_eq {text : List UInt8} (h : r.IsPresentedBy text) :
    ofBody? text = some r := by
  obtain ⟨tree, hpresents, hlegal, hspaced⟩ := h
  rw [ofBody?, Tree.parse?_of_spaced hlegal hspaced]
  exact ofTree?_of_presents hpresents

/-! ## Writing -/

/-- The fields of a request as they are written. -/
def wireEntries (r : Request) : List (String × Tree) :=
  [("account", .ofText r.account), ("blindedQueryPhoneNumber", .ofText r.blindedQuery)] ++
    optionalEntry "hashedPhoneNumber" .ofText r.phoneHash ++
    optionalEntry "timestamp" .ofInt64 r.timestamp ++
    optionalEntry "sessionID" .ofText r.sessionId

theorem wireTree_eq (r : Request) :
    r.wireTree = .object (r.wireEntries.map fun e => member e.1 e.2) := by
  obtain ⟨account, blindedQuery, phoneHash, timestamp, sessionId⟩ := r
  cases phoneHash <;> cases timestamp <;> cases sessionId <;> rfl

/-- Each field is written once under its key, or left out if it is absent. -/
theorem presents_wireTree (r : Request) : Presents r.fields r.wireTree := by
  rw [wireTree_eq]
  refine .object (spelled_member r.wireEntries) ?_
  have haccount : valuesOf "account" r.wireEntries = [.ofText r.account] := by
    simp [wireEntries]
  have hquery : valuesOf "blindedQueryPhoneNumber" r.wireEntries = [.ofText r.blindedQuery] := by
    simp [wireEntries]
  have hphone : valuesOf "hashedPhoneNumber" r.wireEntries =
      (r.phoneHash.map Tree.ofText).toList := by
    simp [wireEntries]
  have htime : valuesOf "timestamp" r.wireEntries = (r.timestamp.map Tree.ofInt64).toList := by
    simp [wireEntries]
  have hsession : valuesOf "sessionID" r.wireEntries = (r.sessionId.map Tree.ofText).toList := by
    simp [wireEntries]
  -- each key has at most one value among the entries
  simp only [fields, List.forall_mem_cons, haccount, hquery, hphone, htime, hsession]
  exact ⟨.inl ⟨_, rfl, Content.denotes_ofText _⟩, .inl ⟨_, rfl, Content.denotes_ofText _⟩,
    denotes_option rfl Content.denotes_ofText _, denotes_option rfl Content.Denotes.integer _,
    denotes_option rfl Content.denotes_ofText _, by simp⟩

theorem isLegal_wireTree (r : Request) : r.wireTree.IsLegal := by
  have hvalues : ∀ e ∈ r.wireEntries, e.2.IsLegal := by
    simp only [wireEntries, List.forall_mem_append, List.forall_mem_cons]
    exact ⟨⟨⟨⟨Tree.isLegal_ofText _, Tree.isLegal_ofText _, by simp⟩,
      isLegal_optionalEntry Tree.isLegal_ofText _⟩,
      isLegal_optionalEntry Tree.isLegal_ofInt64 _⟩,
      isLegal_optionalEntry Tree.isLegal_ofText _⟩
  rw [wireTree_eq]
  exact isLegal_members hvalues

/-- The body that a request is submitted in presents it. -/
theorem isPresentedBy_body (r : Request) : r.IsPresentedBy r.body :=
  ⟨r.wireTree, presents_wireTree r, isLegal_wireTree r, Token.spaced_flatMap _⟩

/-- **A request is read by its content alone.** From every text that presents a request the request
is read, and so with its canonical encoding and its fingerprint; from the body that it is submitted
in it is read back. -/
theorem ofBody?_of_isPresentedBy (r : Request) :
    (∀ text, r.IsPresentedBy text →
      ofBody? text = some r ∧ (ofBody? text).map canonical = some r.canonical ∧
        (ofBody? text).map fingerprint = some r.fingerprint) ∧
    ofBody? r.body = some r := by
  refine ⟨fun text h => ?_, r.isPresentedBy_body.ofBody?_eq⟩
  rw [h.ofBody?_eq]
  exact ⟨rfl, rfl, rfl⟩

/-! ### A request with its fields scattered -/

/-- A request without the hash of a phone number. -/
def scattered : Request where
  account := "al😀"
  blindedQuery := "cQ=="
  phoneHash := none
  timestamp := some (-5)
  sessionId := some "s"

/-- Its fields in another order and among two members of one unknown name. -/
def scatteredEntries : List (String × Tree) :=
  [("x", .array [.bool true, .object []]), ("sessionID", .ofText "s"), ("timestamp", .ofInt64 (-5)),
    ("x", .null), ("hashedPhoneNumber", .null), ("blindedQueryPhoneNumber", .ofText "cQ=="),
    ("account", .text (Text.Utf8.encode "al\\ud83d\\ude00"))]

/-- The members of an object with them, the first letter of the last key as an escape. -/
def scatteredMembers : List (RawText × Tree) :=
  (scatteredEntries.dropLast.map fun e => member e.1 e.2) ++
    [(Text.Utf8.encode "\\u0061ccount", .text (Text.Utf8.encode "al\\ud83d\\ude00"))]

/-- Its text with a space in front of each token. -/
def scatteredText : String :=
  " \x7b \"x\" : [ true , \x7b \x7d ] , \"sessionID\" : \"s\" , \"timestamp\" : -5 ," ++
    " \"x\" : null , \"hashedPhoneNumber\" : null , \"blindedQueryPhoneNumber\" : \"cQ==\" ," ++
    " \"\\u0061ccount\" : \"al\\ud83d\\ude00\" \x7d"

theorem spells_scatteredKey :
    RawText.Spells (Text.Utf8.encode "\\u0061ccount") (Text.Utf8.encode "account") :=
  .unit (n := 0x61) rfl rfl (.plain rfl (.plain rfl (.plain rfl (.plain rfl (.plain rfl
    (.plain rfl .nil))))))

theorem spells_scatteredAccount :
    RawText.Spells (Text.Utf8.encode "al\\ud83d\\ude00") (Text.Utf8.encode "al😀") := by
  have hlead : RawText.unit? 0x64 0x38 0x33 0x64 = some 0xD83D := rfl
  have htrail : RawText.unit? 0x64 0x65 0x30 0x30 = some 0xDE00 := rfl
  have hch : Text.Utf8.charOfCode? 0x1F600 = some '😀' := rfl
  exact .plain rfl (.plain rfl (.pair hlead rfl htrail rfl hch .nil))

theorem presents_scattered : Presents scattered.fields (.object scatteredMembers) := by
  have hwritten := spelled_member scatteredEntries.dropLast
  have hspelled : Spelled scatteredMembers scatteredEntries :=
    List.rel_append hwritten (.cons ⟨spells_scatteredKey, rfl⟩ .nil)
  refine .object hspelled ?_
  simp only [fields, List.forall_mem_cons]
  exact ⟨.inl ⟨_, rfl, .text spells_scatteredAccount⟩, .inl ⟨_, rfl, Content.denotes_ofText _⟩,
    .inl ⟨_, rfl, .absent⟩, .inl ⟨_, rfl, .integer _⟩, .inl ⟨_, rfl, Content.denotes_ofText _⟩,
    by simp⟩

theorem isLegal_scattered : (Tree.object scatteredMembers).IsLegal := by
  have hx : (Tree.array [.bool true, .object []]).IsLegal := by
    simp [Tree.IsLegal, Tree.tokens, Tree.itemTokens, Tree.memberTokens, Token.IsLegal]
  have hwritten : ∀ e ∈ scatteredEntries.dropLast, e.2.IsLegal := by
    simp only [scatteredEntries, List.dropLast, List.forall_mem_cons]
    exact ⟨hx, Tree.isLegal_ofText _, Tree.isLegal_ofInt64 _, Tree.isLegal_null, Tree.isLegal_null,
      Tree.isLegal_ofText _, by simp⟩
  refine Tree.isLegal_object ?_
  simp only [scatteredMembers, List.forall_mem_append, List.forall_mem_map, List.forall_mem_cons]
  exact ⟨fun e he => ⟨Token.isLegal_text e.1, hwritten e he⟩,
    ⟨spells_scatteredKey.isLegal, Tree.isLegal_string spells_scatteredAccount.isLegal⟩, by simp⟩

theorem isPresentedBy_scatteredText :
    scattered.IsPresentedBy (Text.Utf8.encode scatteredText) := by
  -- the text is spelled out above, and compared with its tokens here
  have htext : ((Tree.object scatteredMembers).tokens.flatMap fun t => 0x20 :: t.bytes) =
      Text.Utf8.encode scatteredText := by decide +kernel
  exact ⟨_, presents_scattered, isLegal_scattered, htext ▸ Token.spaced_flatMap_space _⟩

/-- From its text the scattered request is read with its fingerprint. -/
theorem ofBody?_scatteredText :
    ofBody? (Text.Utf8.encode scatteredText) = some scattered ∧
      (ofBody? (Text.Utf8.encode scatteredText)).map fingerprint = some scattered.fingerprint ∧
      ofBody? scattered.body = some scattered := by
  obtain ⟨hpresented, hbody⟩ := ofBody?_of_isPresentedBy scattered
  obtain ⟨hread, -, hfingerprint⟩ := hpresented _ isPresentedBy_scatteredText
  exact ⟨hread, hfingerprint, hbody⟩

end BlindSign.Request
