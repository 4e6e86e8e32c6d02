import BlindSign.Proofs.Base64
import BlindSign.Proofs.Rehearsals
import BlindSign.Proofs.Trimming

set_option autoImplicit false

/-! # Nothing is signed for a stranger

Where callers are checked by the signature of the body, a submission has an effect only if it
carries a credential: a signature over the very bytes that were sent, under the key that the account
has registered (`exists_credential_of_effect`). An effect is a signature in the answer, a change of
the ledger, or just a call to a collaborator that is not asked about the caller.

What is not authenticated is refused before any of that (`outcome_cases`), so it remains to see what
the gates have checked, from the bytes of the header to the point of the key.
-/

namespace BlindSign

/-! ## What the gates check -/

namespace Http

/-- The characters of visible bytes have these bytes. -/
theorem encodeChars_of_isVisible {value : List UInt8} (h : value.all isVisible = true) :
    Text.Utf8.encodeChars (value.map fun b => Char.ofNat b.toNat) = value := by
  have hall : ∀ n < 256, isVisible (UInt8.ofNat n) = true →
      Text.Utf8.encodeChar (Char.ofNat (UInt8.ofNat n).toNat) = [UInt8.ofNat n] := by
    decide +kernel
  induction value with
  | nil => rfl
  | cons b value ih =>
      rw [List.all_cons, Bool.and_eq_true] at h
      obtain ⟨hvisible, hrest⟩ := h
      have hb := hall b.toNat b.toNat_lt
      rw [UInt8.ofNat_toNat] at hb
      rw [List.map_cons, Text.Utf8.encodeChars_cons, hb hvisible, ih hrest]
      rfl

/-- The text of a header has the bytes of the header. -/
theorem Headers.first?_of_text? {headers : Headers} {name text : String}
    (h : headers.text? name = some text) :
    headers.first? name = some (Text.Utf8.encode text) := by
  unfold Headers.text? at h
  obtain ⟨value, hvalue, h⟩ := Option.bind_eq_some_iff.1 h
  split at h
  · next hvisible =>
      obtain rfl := Option.some.inj h
      rw [hvalue]
      unfold Text.Utf8.encode
      rw [String.toList_ofList, encodeChars_of_isVisible hvisible]
  · cases h

end Http

/-- The authorization of a client is the text of a header without blanks around it. -/
theorem Client.authorizationOf_eq_some {headers : Http.Headers} {authorization : String}
    (h : authorizationOf headers = some authorization) :
    ∃ header, headers.text? "authorization" = some header ∧
      Text.trim header = authorization := by
  unfold authorizationOf at h
  obtain ⟨h, _⟩ := Option.filter_eq_some_iff.1 h
  exact Option.map_eq_some_iff.1 h

namespace Authorization

/-- An authorization that spells a signature is its base64 form, with nothing but blanks around it,
and a signature is 64 bytes long. -/
theorem signature?_eq_some {authorization : String} {signature : List UInt8}
    (h : signature? authorization = some signature) :
    Text.trim authorization = Encoding.Base64.encode signature ∧ signature.length = 64 := by
  unfold signature? at h
  split at h
  · next bytes hbytes =>
      split at h
      · next hlength =>
          obtain rfl := Option.some.inj h
          exact ⟨(Encoding.Base64.encode_of_decode hbytes).symm, hlength⟩
      · cases h
  · cases h

theorem verifies_eq_true {key body signature : List UInt8}
    (h : verifies key body signature = true) :
    ∃ publicKey, Curve.Ed25519.PublicKey.ofBytes? key = some publicKey ∧
      publicKey.verifies body signature = true := by
  unfold verifies at h
  split at h
  · next publicKey hkey => exact ⟨publicKey, hkey, h⟩
  · cases h

end Authorization

theorem Ledger.registeredKey?_eq_some {l : Ledger} {account : Account} {key : List UInt8} :
    l.registeredKey? account = some key ↔
      l.keys.get? account.text = some key ∧ key.length = 32 := by
  unfold Ledger.registeredKey?
  rw [Option.filter_eq_some_iff, decide_eq_true_eq]

/-- A key that is read is one that the account has registered. -/
theorem Database.readKey_eq_ok {d : Database} {account : Account} {key : List UInt8}
    (h : (d.execute (.readKey account)).1 = .ok (some key)) :
    d.ledger.keys.get? account.text = some key ∧ key.length = 32 := by
  rcases d.execute_cases (.readKey account) with ⟨fault, he⟩ | he
  · rw [he] at h
    cases h
  · rw [he] at h
    exact Ledger.registeredKey?_eq_some.1 (Except.ok.inj h)

theorem Service.readSubmission_eq_ok {limit : Option UInt64} {r : Http.Request} {s : Submission}
    (h : readSubmission limit r = .ok s) :
    r.body = .complete s.body ∧ Request.ofBody? s.body = some s.request ∧
      s.authorization = Client.authorizationOf r.headers := by
  unfold readSubmission at h
  obtain ⟨body, hbody, h⟩ := bind_eq_ok.1 h
  split at h
  · next request hrequest =>
      obtain rfl := Except.ok.inj h
      refine ⟨?_, hrequest, rfl⟩
      unfold readBody at hbody
      split at hbody
      · cases hbody
      · next bytes hbytes =>
          split at hbody
          · obtain rfl := Except.ok.inj hbody
            exact hbytes
          · cases hbody
  · cases h

namespace Deployment

/-- A caller who sends a signature is checked by the registered key. -/
theorem accepts_of_registered {d : Deployment} {account : Account} {body signature key : List UInt8}
    {authorization : Option String} (hc : d.callers = .signedBody)
    (hsignature : authorization.bind Authorization.signature? = some signature)
    (hkey : (d.database.execute (.readKey account)).1 = .ok (some key)) :
    d.accepts account body authorization = Authorization.verifies key body signature := by
  unfold accepts
  rw [hc, hsignature, hkey]

theorem accepts_eq_true {d : Deployment} {account : Account} {body : List UInt8}
    {authorization : Option String} (hc : d.callers = .signedBody)
    (h : d.accepts account body authorization = true) :
    ∃ text signature key, authorization = some text ∧
      Authorization.signature? text = some signature ∧
      (d.database.execute (.readKey account)).1 = .ok (some key) ∧
      Authorization.verifies key body signature = true := by
  unfold accepts at h
  rw [hc] at h
  dsimp only at h
  split at h
  · cases h
  · next signature hsignature =>
      obtain ⟨text, htext, hsignature⟩ := Option.bind_eq_some_iff.1 hsignature
      split at h
      · next key hkey => exact ⟨text, signature, key, htext, hsignature, hkey, h⟩
      · cases h

/-! ## Credentials -/

/-- What proves that a request speaks for an account: an authorization that spells a signature, a
key that the account has registered, and that the signature is one of the body as it was sent. -/
structure Credential (r : Http.Request) (d : Deployment) where
  body : List UInt8
  request : Request
  account : Account
  /-- The text of the first authorization. -/
  header : String
  signature : List UInt8
  key : List UInt8
  publicKey : Curve.Ed25519.PublicKey
  sent : r.body = .complete body
  read : Request.ofBody? body = some request
  names : Account.parse? request.account = some account
  authorized : r.headers.first? "authorization" = some (Text.Utf8.encode header)
  spells : Text.trim header = Encoding.Base64.encode signature
  length_signature : signature.length = 64
  registered : d.database.ledger.keys.get? account.text = some key
  length_key : key.length = 32
  /-- The key can be read from the database. -/
  found : (d.database.execute (.readKey account)).1 = .ok (some key)
  decoded : Curve.Ed25519.PublicKey.ofBytes? key = some publicKey
  verified : publicKey.verifies body signature = true

/-- What is authenticated carries a credential. -/
theorem exists_credential {r : Http.Request} {d : Deployment} {s : Submission}
    {request : Admitted} (hc : d.callers = .signedBody)
    (hr : Service.readSubmission (some d.config.bodyLimit) r = .ok s)
    (hs : Admitted.ofRequest d.config.limits d.clock.millis s.body.length s.request = .ok request)
    (ha : d.accepts request.account s.body s.authorization = true) :
    Nonempty (Credential r d) := by
  obtain ⟨hsent, hread, hauthorization⟩ := Service.readSubmission_eq_ok hr
  obtain ⟨_, hnames, _⟩ := Admitted.ofRequest_eq_ok.1 hs
  obtain ⟨text, signature, key, htext, hsignature, hfound, hverifies⟩ := accepts_eq_true hc ha
  rw [hauthorization] at htext
  obtain ⟨header, hheader, htrim⟩ := Client.authorizationOf_eq_some htext
  obtain ⟨hspells, hlength⟩ := Authorization.signature?_eq_some hsignature
  obtain ⟨hregistered, hkey⟩ := Database.readKey_eq_ok hfound
  obtain ⟨publicKey, hdecoded, hverified⟩ := Authorization.verifies_eq_true hverifies
  -- the header was trimmed before, which changes nothing in what it spells
  rw [← htrim, Text.trim_trim] at hspells
  exact ⟨{
    body := s.body
    request := s.request
    account := request.account
    header, signature, key, publicKey
    sent := hsent
    read := hread
    names := hnames
    authorized := Http.Headers.first?_of_text? hheader
    spells := hspells
    length_signature := hlength
    registered := hregistered
    length_key := hkey
    found := hfound
    decoded := hdecoded
    verified := hverified }⟩

/-- **Nothing for a stranger.** Where callers are checked by the signature of the body, a submission
is answered with a signature, changes the ledger or makes a call that is not about the caller only
if it carries a credential. -/
theorem exists_credential_of_effect {r : Http.Request} {d : Deployment}
    (hr : d.service.resource? r = some .sign) (hm : r.method = "POST")
    (hc : d.callers = .signedBody)
    (heffect : (respond r d).1.status = 200 ∨
      (respond r d).2.database.ledger ≠ d.database.ledger ∨
      ¬ ChecksOnly d.calls (respond r d).2.calls) :
    Nonempty (Credential r d) := by
  rcases outcome_cases r d with ⟨s, request, hread, hs, ha⟩ | ⟨refusal, calls, logs, hchecks, ho⟩
  · exact exists_credential hc hread hs ha
  · -- what is refused without more has none of these effects
    obtain ⟨metrics, hrespond⟩ := exists_respond_eq hr hm
    rw [hrespond, ho] at heffect
    rcases heffect with hstatus | hledger | hcalls
    · exact absurd hstatus (status_refusalResponse refusal)
    · exact absurd rfl hledger
    · exact absurd hchecks hcalls

/-! ## A rehearsal -/

/-- The request of a rehearsal, signed, with blanks around the signature. -/
def signedPost : Http.Request where
  method := "POST"
  target := "/sign"
  headers := [("Authorization", Text.Utf8.encode
    " yaP4aq5GXw5WUThkUQ85l1YfosnoXqIdwikjCfPNYCLPzKzGcA1VrK8z7Rz2bzyd6YtFrxTyFkKA5/uTYx1FDw== ")]
  body := .complete rehearsed.body

/-- A rehearsal that checks signatures; the account has registered the key of the one above. -/
def signedRehearsal : Deployment :=
  { rehearsal { Ledger.empty with
      keys := Table.empty.insert rehearsed.account (88 :: List.replicate 31 102) } (some 10) with
    callers := .signedBody }

theorem readKey_signedRehearsal {account : Account} (h : account.text = rehearsed.account) :
    (signedRehearsal.database.execute (.readKey account)).1 =
      .ok (some (88 :: List.replicate 31 102)) := by
  have hkeys : signedRehearsal.database.ledger.keys =
      Table.empty.insert rehearsed.account (88 :: List.replicate 31 102) := rfl
  rw [Database.execute_of_works rfl]
  show Except.ok (signedRehearsal.database.ledger.registeredKey? account) = _
  unfold Ledger.registeredKey?
  rw [hkeys, h, Table.get?_insert, if_pos rfl]
  rfl

set_option maxRecDepth 100000 in
/-- The signature is one of the body. Of the whole rehearsal only this is evaluated. -/
theorem exists_signature_of_signedPost : ∃ signature,
    (Client.authorizationOf signedPost.headers).bind Authorization.signature? = some signature ∧
      Authorization.verifies (88 :: List.replicate 31 102) rehearsed.body signature = true := by
  have hany : ((Client.authorizationOf signedPost.headers).bind Authorization.signature?).any
      (Authorization.verifies (88 :: List.replicate 31 102) rehearsed.body) = true := by
    decide +kernel
  exact (Option.any_eq_true _ _).1 hany

theorem status_signedPost : (respond signedPost signedRehearsal).1.status = 200 := by
  obtain ⟨request, hs⟩ := exists_rehearsed_admitted
  obtain ⟨signature, hsignature, hverifies⟩ := exists_signature_of_signedPost
  have hd : Rehearses signedRehearsal := ⟨rfl, rfl, rfl, rfl, rfl⟩
  have haccepts : signedRehearsal.accepts request.account rehearsed.body
      (Client.authorizationOf signedPost.headers) = true :=
    (accepts_of_registered rfl hsignature
      (readKey_signedRehearsal (text_of_rehearsed hs))).trans hverifies
  have hquota : signedRehearsal.quotaOf request.account = .ok ⟨0, 10⟩ :=
    quotaOf_rehearsal signedRehearsal.database.ledger 10 request.account
  exact hd.status_respond rfl hs haccepts (by rw [hquota]; rfl) rfl rfl

/-- The signed request of the rehearsal is granted, so it carries a credential. -/
theorem exists_credential_of_signedPost :
    signedRehearsal.service.resource? signedPost = some .sign ∧
      (respond signedPost signedRehearsal).1.status = 200 ∧
      Nonempty (Credential signedPost signedRehearsal) := by
  have hd : Rehearses signedRehearsal := ⟨rfl, rfl, rfl, rfl, rfl⟩
  have hr : signedRehearsal.service.resource? signedPost = some .sign := hd.resource rfl
  exact ⟨hr, status_signedPost,
    exists_credential_of_effect hr rfl rfl (.inl status_signedPost)⟩

end Deployment

end BlindSign
