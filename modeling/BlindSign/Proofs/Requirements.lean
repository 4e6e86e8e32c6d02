import Mathlib.Algebra.Order.Group.Unbundled.Int
import Mathlib.Order.WellFounded
import BlindSign.Proofs.Accounts
import BlindSign.Proofs.Admission
import BlindSign.Proofs.Base64

set_option autoImplicit false

/-! # What admission asks of a request

Five requirements, each told by the form of a part of the request, without a reader of it (`Met`).
They are checked one after another: the first one that is not met decides the fault
(`ofRequest_of_isFirstUnmet`).

**A request is admitted if and only if it meets all requirements**, as what it describes
(`Describes`), **and fails for the first of them that it does not meet** (`ofRequest_spec`).
-/

namespace BlindSign

open Encoding

/-! ## The forms of the parts -/

/-- **What is read as a blinded query.** The text and the bytes are those of one base64 form. -/
theorem BlindedQuery.parse?_eq_some_iff {raw : String} {q : BlindedQuery} :
    parse? raw = some q ↔ q.text = raw ∧ raw = Base64.encode q.bytes := by
  constructor
  · intro h
    unfold parse? at h
    split at h
    · next bytes hbytes =>
        by_cases hlength : bytes.length = 96
        · rw [dif_pos hlength] at h
          obtain rfl := Option.some.inj h
          exact ⟨rfl, Base64.decode_eq_ok_iff.1 hbytes⟩
        · rw [dif_neg hlength] at h
          cases h
    · cases h
  · obtain ⟨text, bytes, hbytes, hlength⟩ := q
    rintro ⟨rfl, -⟩
    dsimp only at *
    unfold parse?
    split
    · next bytes' hbytes' =>
        obtain rfl := Except.ok.inj (hbytes.symm.trans hbytes')
        exact dif_pos hlength
    · next hfault => cases hbytes.symm.trans hfault

/-- **A query is read with the bytes that its text spells.** -/
theorem BlindedQuery.exists_parse?_eq_iff {raw : String} {bytes : List UInt8} :
    (∃ q, parse? raw = some q ∧ q.bytes = bytes) ↔
      raw = Base64.encode bytes ∧ bytes.length = 96 := by
  constructor
  · rintro ⟨q, hq, rfl⟩
    exact ⟨(parse?_eq_some_iff.1 hq).2, q.length_bytes⟩
  · rintro ⟨rfl, hlength⟩
    exact ⟨⟨_, bytes, Base64.decode_eq_ok_iff.2 rfl, hlength⟩, parse?_eq_some_iff.2 ⟨rfl, rfl⟩, rfl⟩

/-- A text has the form of a hashed phone number. -/
def PhoneHash.IsForm (text : String) : Prop :=
  ∃ digits, Hex.MayBeMarked text.toList digits ∧ digits.length = 64 ∧ ∀ c ∈ digits, Hex.IsDigit c

/-- **What is read as a hashed phone number**: a text of the right form, which stays as it is. -/
theorem PhoneHash.parse?_eq_some_iff {raw : String} {p : PhoneHash} :
    parse? raw = some p ↔ p.text = raw := by
  unfold parse?
  constructor
  · intro h
    by_cases hdigits : Hex.isDigits raw 64 = true
    · rw [dif_pos hdigits] at h
      obtain rfl := Option.some.inj h
      rfl
    · rw [dif_neg hdigits] at h
      cases h
  · rintro rfl
    exact dif_pos p.isDigits_text

theorem PhoneHash.exists_parse?_iff {raw : String} : (∃ p, parse? raw = some p) ↔ IsForm raw := by
  rw [IsForm, ← Hex.isDigits_iff]
  constructor
  · rintro ⟨p, hp⟩
    obtain rfl := parse?_eq_some_iff.1 hp
    exact p.isDigits_text
  · intro h
    exact ⟨⟨raw, h⟩, parse?_eq_some_iff.2 rfl⟩

namespace Admitted

/-- A hashed phone number is read with the text that it has. -/
theorem readPhoneHash_eq_ok {text : Option String} {phoneHash : Option PhoneHash} :
    readPhoneHash text = .ok phoneHash ↔ phoneHash.map PhoneHash.text = text := by
  cases text with
  | none => simp [readPhoneHash, eq_comm]
  | some raw =>
      cases phoneHash with
      | none => cases h : PhoneHash.parse? raw <;> simp [readPhoneHash, part, Except.map, h]
      | some p =>
          rw [Option.map_some, Option.some.injEq, ← PhoneHash.parse?_eq_some_iff]
          cases h : PhoneHash.parse? raw <;> simp [readPhoneHash, part, Except.map, h]

/-- A hashed phone number that is not read has a fault of its own. -/
theorem readPhoneHash_eq_error {text : Option String}
    (h : ∀ phoneHash, readPhoneHash text ≠ .ok phoneHash) :
    readPhoneHash text = .error .badPhoneHash := by
  cases text with
  | none => exact absurd rfl (h none)
  | some raw =>
      cases hraw : PhoneHash.parse? raw with
      | none => simp [readPhoneHash, part, Except.map, hraw]
      | some p => exact absurd (by simp [readPhoneHash, part, Except.map, hraw]) (h (some p))

/-! ## Requirements -/

/-- What is asked of a request. -/
inductive Requirement
  | size
  | account
  | query
  | phoneHash
  | timestamp
  deriving Repr, DecidableEq

namespace Requirement

def place : Requirement → Nat
  | size => 0
  | account => 1
  | query => 2
  | phoneHash => 3
  | timestamp => 4

/-- Whether a request that was submitted in a body of `n` bytes meets a requirement. -/
def Met (limits : Limits) (now : Int64) (n : Nat) (request : Request) : Requirement → Prop
  | size => max n request.canonical.length < limits.maxBytes.toNat
  | account => ∃ digits, Account.IsWrittenWith request.account digits
  | query => ∃ bytes : List UInt8, bytes.length = 96 ∧ request.blindedQuery = Base64.encode bytes
  | phoneHash => ∀ text ∈ request.phoneHash, PhoneHash.IsForm text
  | timestamp => ∀ t ∈ request.timestamp, |now.toInt - t.toInt| ≤ |limits.window.toInt|

def fault (limits : Limits) (n : Nat) (request : Request) : Requirement → RequestFault
  | size => .tooLarge limits.maxBytes (max n request.canonical.length)
  | account => .badAccount
  | query => .badQuery
  | phoneHash => .badPhoneHash
  | timestamp => .staleTimestamp

variable {limits : Limits} {now : Int64} {n : Nat} {request : Request}

theorem met_account_iff :
    Met limits now n request account ↔ ∃ a, Account.parse? request.account = some a := by
  constructor
  · rintro ⟨digits, h⟩
    exact h.exists_parse?
  · rintro ⟨a, ha⟩
    obtain ⟨digits, h, -⟩ := Account.parse?_eq_some_iff.1 ha
    exact ⟨digits, h⟩

theorem met_query_iff :
    Met limits now n request query ↔ ∃ q, BlindedQuery.parse? request.blindedQuery = some q := by
  constructor
  · rintro ⟨bytes, hlength, h⟩
    obtain ⟨q, hq, -⟩ := BlindedQuery.exists_parse?_eq_iff.2 ⟨h, hlength⟩
    exact ⟨q, hq⟩
  · rintro ⟨q, hq⟩
    obtain ⟨h, hlength⟩ := BlindedQuery.exists_parse?_eq_iff.1 ⟨q, hq, rfl⟩
    exact ⟨q.bytes, hlength, h⟩

theorem met_phoneHash_iff :
    Met limits now n request phoneHash ↔ ∃ p, readPhoneHash request.phoneHash = .ok p := by
  unfold Met
  cases request.phoneHash with
  | none => simp [readPhoneHash]
  | some text =>
      simp only [Option.mem_some_iff, forall_eq', ← PhoneHash.exists_parse?_iff,
        PhoneHash.parse?_eq_some_iff, readPhoneHash_eq_ok, Option.map_eq_some_iff]
      constructor
      · rintro ⟨p, hp⟩
        exact ⟨some p, p, rfl, hp⟩
      · rintro ⟨_, p, _, hp⟩
        exact ⟨p, hp⟩

theorem met_timestamp_iff : Met limits now n request timestamp ↔
    request.timestamp.all (isRecent limits.window now) = true := by
  unfold Met
  cases request.timestamp with
  | none => simp
  | some t =>
      simp only [Option.mem_some_iff, forall_eq', Option.all_some, isRecent, decide_eq_true_iff,
        Int.abs_eq_natAbs, Int.ofNat_le]

/-- A requirement is not met, and all that are checked before it are. -/
def IsFirstUnmet (limits : Limits) (now : Int64) (n : Nat) (request : Request)
    (r : Requirement) : Prop :=
  ¬ r.Met limits now n request ∧
    ∀ r' : Requirement, r'.place < r.place → r'.Met limits now n request

/-- If not all requirements are met, one of those that are not is the first. -/
theorem exists_isFirstUnmet (h : ¬ ∀ r : Requirement, r.Met limits now n request) :
    ∃ r : Requirement, r.IsFirstUnmet limits now n request := by
  obtain ⟨r, hr⟩ := not_forall.1 h
  obtain ⟨first, hfirst, hleast⟩ := (measure place).wf.has_min
    {r | ¬ r.Met limits now n request} ⟨r, hr⟩
  exact ⟨first, hfirst, fun r' hlt => by_contra fun hr' => hleast r' hr' hlt⟩

end Requirement

open Requirement (met_account_iff met_query_iff met_phoneHash_iff met_timestamp_iff)

variable {limits : Limits} {now : Int64} {n : Nat} {request : Request} {admitted : Admitted}

/-- What a request is admitted as: its parts in their own types, its fingerprint and the request
itself. -/
structure Describes (admitted : Admitted) (request : Request) : Prop where
  /-- The account is that of the digits, under its own name. -/
  account : ∃ digits, Account.IsWrittenWith request.account digits ∧
    admitted.account.text = "0x" ++ String.ofList (digits.map Char.toLower)
  /-- The blinded query has the text, and the bytes that the text is the base64 form of. -/
  query : admitted.query.text = request.blindedQuery ∧
    request.blindedQuery = Base64.encode admitted.query.bytes
  /-- The hashed phone number, if there is one, has the text. -/
  phoneHash : admitted.phoneHash.map PhoneHash.text = request.phoneHash
  fingerprint : admitted.fingerprint = request.fingerprint
  request_eq : admitted.request = request

/-- The parts of a request are read as what it describes. -/
theorem describes_iff : Describes admitted request ↔
    Account.parse? request.account = some admitted.account ∧
      BlindedQuery.parse? request.blindedQuery = some admitted.query ∧
      readPhoneHash request.phoneHash = .ok admitted.phoneHash ∧
      admitted.fingerprint = request.fingerprint ∧ admitted.request = request := by
  rw [BlindedQuery.parse?_eq_some_iff, readPhoneHash_eq_ok]
  constructor
  · rintro ⟨⟨digits, hwritten, htext⟩, hquery, hphone, hfingerprint, hrequest⟩
    obtain ⟨a, ha⟩ := hwritten.exists_parse?
    have haccount : a = admitted.account :=
      Account.text_inj ((hwritten.text_eq ha).trans htext.symm)
    exact ⟨haccount ▸ ha, hquery, hphone, hfingerprint, hrequest⟩
  · rintro ⟨ha, hquery, hphone, hfingerprint, hrequest⟩
    obtain ⟨digits, hwritten, -⟩ := Account.parse?_eq_some_iff.1 ha
    exact ⟨⟨digits, hwritten, hwritten.text_eq ha⟩, hquery, hphone, hfingerprint, hrequest⟩

/-- A request that meets all requirements is admitted as what it describes. -/
theorem ofRequest_eq_ok_iff : ofRequest limits now n request = .ok admitted ↔
    (∀ r : Requirement, r.Met limits now n request) ∧ Describes admitted request := by
  rw [ofRequest_eq_ok, describes_iff]
  constructor
  · rintro ⟨hsize, ha, hq, hp, ht, hf⟩
    refine ⟨fun r => ?_, ha, hq, hp, hf⟩
    cases r with
    | size => exact hsize
    | account => exact met_account_iff.2 ⟨_, ha⟩
    | query => exact met_query_iff.2 ⟨_, hq⟩
    | phoneHash => exact met_phoneHash_iff.2 ⟨_, hp⟩
    | timestamp => exact met_timestamp_iff.2 ht
  · rintro ⟨hall, ha, hq, hp, hf⟩
    exact ⟨hall .size, ha, hq, hp, met_timestamp_iff.1 (hall .timestamp), hf⟩

theorem exists_ofRequest_iff : (∃ admitted, ofRequest limits now n request = .ok admitted) ↔
    ∀ r : Requirement, r.Met limits now n request := by
  constructor
  · rintro ⟨admitted, h⟩
    exact (ofRequest_eq_ok_iff.1 h).1
  · intro hall
    obtain ⟨a, ha⟩ := met_account_iff.1 (hall .account)
    obtain ⟨q, hq⟩ := met_query_iff.1 (hall .query)
    obtain ⟨p, hp⟩ := met_phoneHash_iff.1 (hall .phoneHash)
    exact ⟨⟨a, q, p, request.fingerprint, request⟩,
      ofRequest_eq_ok_iff.2 ⟨hall, describes_iff.2 ⟨ha, hq, hp, rfl, rfl⟩⟩⟩

/-- **The first requirement that is not met decides the fault.** -/
theorem ofRequest_of_isFirstUnmet {r : Requirement} (h : r.IsFirstUnmet limits now n request) :
    ofRequest limits now n request = .error (r.fault limits n request) := by
  obtain ⟨hr, hfirst⟩ := h
  have hsmall : 0 < r.place → ¬ limits.maxBytes.toNat ≤ Admitted.size request n :=
    fun hlt => Nat.not_le_of_lt (hfirst .size hlt)
  have haccount : 1 < r.place → ∃ a, Account.parse? request.account = some a :=
    fun hlt => met_account_iff.1 (hfirst .account hlt)
  have hquery : 2 < r.place → ∃ q, BlindedQuery.parse? request.blindedQuery = some q :=
    fun hlt => met_query_iff.1 (hfirst .query hlt)
  -- what is checked before goes through, and there the reading of parts ends
  cases r with
  | size => exact if_pos (Nat.le_of_not_lt hr)
  | account =>
      have ha := Option.eq_none_iff_forall_ne_some.2 fun a ha => hr (met_account_iff.2 ⟨a, ha⟩)
      simp only [ofRequest, hsmall (by decide), if_false, ha]
      rfl
  | query =>
      obtain ⟨a, ha⟩ := haccount (by decide)
      have hq := Option.eq_none_iff_forall_ne_some.2 fun q hq => hr (met_query_iff.2 ⟨q, hq⟩)
      simp only [ofRequest, hsmall (by decide), if_false, ha, hq]
      rfl
  | phoneHash =>
      obtain ⟨a, ha⟩ := haccount (by decide)
      obtain ⟨q, hq⟩ := hquery (by decide)
      have hp := readPhoneHash_eq_error fun p hp => hr (met_phoneHash_iff.2 ⟨p, hp⟩)
      simp only [ofRequest, hsmall (by decide), if_false, ha, hq, hp]
      rfl
  | timestamp =>
      obtain ⟨a, ha⟩ := haccount (by decide)
      obtain ⟨q, hq⟩ := hquery (by decide)
      obtain ⟨p, hp⟩ := met_phoneHash_iff.1 (hfirst .phoneHash (by decide))
      have ht := mt met_timestamp_iff.2 hr
      simp only [ofRequest, hsmall (by decide), if_false, ha, hq, hp, ht]
      rfl

/-- **What is admitted, and how requests fail.** -/
theorem ofRequest_spec (limits : Limits) (now : Int64) (n : Nat) (request : Request) :
    ((∃ admitted, ofRequest limits now n request = .ok admitted) ↔
      ∀ r : Requirement, r.Met limits now n request) ∧
    (∀ admitted, ofRequest limits now n request = .ok admitted ↔
      (∀ r : Requirement, r.Met limits now n request) ∧ Describes admitted request) ∧
    (∀ fault, ofRequest limits now n request = .error fault ↔
      ∃ r : Requirement, r.IsFirstUnmet limits now n request ∧
        fault = r.fault limits n request) ∧
    ∀ limit actual, ofRequest limits now n request = .error (.tooLarge limit actual) →
      limit = limits.maxBytes ∧ actual = max n request.canonical.length ∧
        limit.toNat ≤ actual := by
  have herror : ∀ fault, ofRequest limits now n request = .error fault ↔
      ∃ r : Requirement, r.IsFirstUnmet limits now n request ∧
        fault = r.fault limits n request := by
    intro fault
    constructor
    · intro h
      have hunmet : ¬ ∀ r : Requirement, r.Met limits now n request := by
        intro hall
        obtain ⟨admitted, hok⟩ := exists_ofRequest_iff.2 hall
        cases h.symm.trans hok
      obtain ⟨r, hr⟩ := Requirement.exists_isFirstUnmet hunmet
      exact ⟨r, hr, Except.error.inj (h.symm.trans (ofRequest_of_isFirstUnmet hr))⟩
    · rintro ⟨r, hr, rfl⟩
      exact ofRequest_of_isFirstUnmet hr
  refine ⟨exists_ofRequest_iff, fun admitted => ofRequest_eq_ok_iff, herror, ?_⟩
  intro limit actual h
  -- only the requirement on the size has this fault
  obtain ⟨r, ⟨hr, -⟩, hfault⟩ := (herror _).1 h
  cases r with
  | size =>
      obtain ⟨rfl, rfl⟩ := RequestFault.tooLarge.inj hfault
      exact ⟨rfl, rfl, Nat.le_of_not_lt hr⟩
  | account => cases hfault
  | query => cases hfault
  | phoneHash => cases hfault
  | timestamp => cases hfault

/-- Of a request with nothing right the size is reported, and the account if the size is right. -/
theorem ofRequest_spec_of_empty :
    (∃ actual, ofRequest ⟨2, 0⟩ 0 7 ⟨"", "", some "", some 5, none⟩ = .error (.tooLarge 2 actual) ∧
      2 ≤ actual) ∧
    ofRequest ⟨4096, 0⟩ 0 7 ⟨"", "", some "", some 5, none⟩ = .error .badAccount := by
  obtain ⟨-, -, herror, hlarge⟩ := ofRequest_spec ⟨2, 0⟩ 0 7 ⟨"", "", some "", some 5, none⟩
  obtain ⟨-, -, herror', -⟩ := ofRequest_spec ⟨4096, 0⟩ 0 7 ⟨"", "", some "", some 5, none⟩
  constructor
  · have hsize : ¬ Requirement.Met ⟨2, 0⟩ 0 7 ⟨"", "", some "", some 5, none⟩ .size :=
      fun h => absurd (Nat.lt_of_le_of_lt (Nat.le_max_left 7 _) h) (by decide)
    have h := (herror _).2 ⟨.size, ⟨hsize, fun r hr => absurd hr (Nat.not_lt_zero _)⟩, rfl⟩
    exact ⟨_, h, (hlarge _ _ h).2.2⟩
  · refine (herror' _).2 ⟨.account, ⟨?_, fun r hr => ?_⟩, rfl⟩
    · rintro ⟨digits, h⟩
      obtain ⟨a, ha⟩ := h.exists_parse?
      cases ha
    · cases r with
      | size =>
          show max 7 (Request.canonical ⟨"", "", some "", some 5, none⟩).length < 4096
          decide +kernel
      | _ => exact absurd hr (by decide)

end Admitted

end BlindSign
