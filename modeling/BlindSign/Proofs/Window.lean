import BlindSign.Config
import BlindSign.Proofs.Admission
import BlindSign.Proofs.Deployment

set_option autoImplicit false

/-! # The window for timestamps

A request that is fit but perhaps for its timestamp is admitted or stale, nothing else
(`Admitted.IsFit.cases`), and which of them depends on the distance of its timestamp from the
present. That distance can be as large as all of 64 bits, while the window loses all but its low 64
bits and is then taken without its sign.

**A window is honoured if and only if it has at most `2 ^ 63` milliseconds**, and up to there a
wider window admits all that a narrower one does (`Span.isHonouredWindow_iff`). Beyond, a window may
be applied as one of no width at all (`stale_of_wrapped_window`).
-/

namespace BlindSign

namespace Admitted

/-! ## Fit but for the timestamp -/

/-- A request that passes every check but perhaps that of its timestamp. -/
structure IsFit (limits : Limits) (n : Nat) (request : Request) : Prop where
  size_lt : size request n < limits.maxBytes.toNat
  account : ∃ account, Account.parse? request.account = some account
  query : ∃ query, BlindedQuery.parse? request.blindedQuery = some query
  phoneHash : ∃ phoneHash, readPhoneHash request.phoneHash = .ok phoneHash

variable {limits : Limits} {n : Nat} {request : Request}

/-- What is admitted is fit. -/
theorem isFit_of_ofRequest {now : Int64} {admitted : Admitted}
    (h : ofRequest limits now n request = .ok admitted) : IsFit limits n request := by
  obtain ⟨hsize, ha, hq, hp, _⟩ := ofRequest_eq_ok.1 h
  exact ⟨hsize, ⟨_, ha⟩, ⟨_, hq⟩, ⟨_, hp⟩⟩

/-- Of the bounds only that for the size matters for being fit. -/
theorem IsFit.of_maxBytes {limits' : Limits} (h : IsFit limits n request)
    (hmax : limits'.maxBytes = limits.maxBytes) : IsFit limits' n request :=
  ⟨hmax ▸ h.size_lt, h.account, h.query, h.phoneHash⟩

/-- A fit request is admitted if its timestamp is recent, and stale otherwise. -/
theorem IsFit.cases (h : IsFit limits n request) (now : Int64) :
    (request.timestamp.all (isRecent limits.window now) = true ∧
      ∃ admitted, ofRequest limits now n request = .ok admitted) ∨
    (request.timestamp.all (isRecent limits.window now) = false ∧
      ofRequest limits now n request = .error .staleTimestamp) := by
  obtain ⟨hsize, ⟨account, ha⟩, ⟨query, hq⟩, ⟨phoneHash, hp⟩⟩ := h
  cases ht : request.timestamp.all (isRecent limits.window now) with
  | true =>
      exact .inl ⟨rfl, ⟨account, query, phoneHash, request.fingerprint, request⟩,
        ofRequest_eq_ok.2 ⟨hsize, ha, hq, hp, ht, rfl, rfl⟩⟩
  | false =>
      refine .inr ⟨rfl, ?_⟩
      have hsize' : ¬ limits.maxBytes.toNat ≤ size request n := Nat.not_le_of_lt hsize
      simp only [ofRequest, hsize', if_false, ha, hq, hp, part, ht, Bool.false_eq_true]
      rfl

end Admitted

namespace Config

/-! ## The window as it is applied -/

/-- The milliseconds that a timestamp may be off: what is left of the window without its sign. -/
def tolerance (c : Config) : Nat := c.windowMillis.toInt.natAbs

theorem toInt_windowMillis (c : Config) :
    c.windowMillis.toInt = (c.timestampWindow.millis : Int).bmod 18446744073709551616 :=
  Int64.toInt_ofNat'

/-- A window of at most `2 ^ 63` milliseconds is applied as it is; at that many its sign turns, but
the sign does not matter. -/
theorem tolerance_eq {c : Config} (h : c.timestampWindow.millis ≤ 9223372036854775808) :
    c.tolerance = c.timestampWindow.millis := by
  rw [tolerance, toInt_windowMillis, Int.bmod_def]
  split <;> omega

/-- No window is applied with more than `2 ^ 63` milliseconds. -/
theorem tolerance_le (c : Config) : c.tolerance ≤ 9223372036854775808 := by
  rw [tolerance, toInt_windowMillis, Int.bmod_def]
  split <;> omega

end Config

/-! ## Honoured windows -/

/-- Whether a window is honoured: whatever else is configured, a fit request is admitted if its
timestamp is no further from the present than the window is wide, and is stale otherwise. -/
def Span.IsHonouredWindow (window : Span) : Prop :=
  ∀ (c : Config) (now timestamp : Int64) (n : Nat) (request : Request),
    c.timestampWindow = window → request.timestamp = some timestamp →
    Admitted.IsFit c.limits n request →
      ((now.toInt - timestamp.toInt).natAbs ≤ window.millis →
        ∃ admitted, Admitted.ofRequest c.limits now n request = .ok admitted) ∧
      (window.millis < (now.toInt - timestamp.toInt).natAbs →
        Admitted.ofRequest c.limits now n request = .error .staleTimestamp)

namespace Config

variable {c : Config} {now timestamp : Int64} {n : Nat} {request : Request}

theorem all_isRecent_iff (ht : request.timestamp = some timestamp) :
    request.timestamp.all (Admitted.isRecent c.limits.window now) = true ↔
      (now.toInt - timestamp.toInt).natAbs ≤ c.tolerance := by
  rw [ht]
  exact decide_eq_true_iff

end Config

/-- The request of the rehearsal with the least timestamp of all. -/
def Request.earliest : Request :=
  { Deployment.rehearsed with timestamp := some Int64.minValue }

namespace Span

open Deployment (rehearsed)
open Request (earliest)

theorem isHonouredWindow_of_le {window : Span} (h : window.millis ≤ 9223372036854775808) :
    window.IsHonouredWindow := by
  rintro c now timestamp n request rfl ht hfit
  have htolerance := Config.tolerance_eq h
  have hrecent : request.timestamp.all (Admitted.isRecent c.limits.window now) = true ↔
      (now.toInt - timestamp.toInt).natAbs ≤ c.tolerance := Config.all_isRecent_iff ht
  rw [htolerance] at hrecent
  rcases hfit.cases now with ⟨hall, hok⟩ | ⟨hall, hstale⟩
  · exact ⟨fun _ => hok, fun hfar => absurd (hrecent.1 hall) (Nat.not_le_of_lt hfar)⟩
  · refine ⟨fun hnear => ?_, fun _ => hstale⟩
    rw [hrecent.2 hnear] at hall
    cases hall

set_option maxRecDepth 100000 in
theorem isFit_earliest (window : Span) :
    Admitted.IsFit { Config.standard with timestampWindow := window }.limits 0 earliest := by
  obtain ⟨admitted, h⟩ : ∃ admitted,
      Admitted.ofRequest Config.standard.limits Int64.minValue 0 earliest = .ok admitted :=
    exists_of_isOk (by decide +kernel)
  exact (Admitted.isFit_of_ofRequest h).of_maxBytes rfl

/-- A timestamp that is a millisecond too old for a window as it is applied tells whether the window
is wider than that. -/
theorem le_of_isHonouredWindow {window : Span} (h : window.IsHonouredWindow) :
    window.millis ≤ 9223372036854775808 := by
  have hle := Config.tolerance_le { Config.standard with timestampWindow := window }
  generalize htolerance :
    Config.tolerance { Config.standard with timestampWindow := window } = tolerance at hle
  have hmin : Int64.minValue.toInt = -9223372036854775808 := by decide
  -- the earliest timestamp, seen one millisecond after it is tolerated
  obtain ⟨now, hnow⟩ : ∃ now : Int64, now.toInt = -9223372036854775808 + (tolerance + 1) :=
    ⟨Int64.ofInt _, Int64.toInt_ofInt_of_le (by omega) (by omega)⟩
  have hdistance : (now.toInt - Int64.minValue.toInt).natAbs = tolerance + 1 := by omega
  have hnear := (h _ now Int64.minValue 0 earliest rfl rfl (isFit_earliest window)).1
  rw [hdistance] at hnear
  refine Nat.le_of_not_lt fun hlt => ?_
  obtain ⟨admitted, hok⟩ := hnear (by omega)
  obtain ⟨_, _, _, _, hall, _⟩ := Admitted.ofRequest_eq_ok.1 hok
  have hrecent := (Config.all_isRecent_iff rfl).1 hall
  rw [hdistance, htolerance] at hrecent
  omega

/-- **A window is honoured if and only if it has at most `2 ^ 63` milliseconds.** Such a window
admits whatever a narrower one admits. -/
theorem isHonouredWindow_iff (window : Span) :
    (window.IsHonouredWindow ↔ window.millis ≤ 9223372036854775808) ∧
      (window.IsHonouredWindow → ∀ (c : Config) (now : Int64) (n : Nat) (request : Request)
        (admitted : Admitted), c.timestampWindow.millis ≤ window.millis →
          Admitted.ofRequest c.limits now n request = .ok admitted →
          Admitted.ofRequest { c with timestampWindow := window }.limits now n request =
            .ok admitted) := by
  refine ⟨⟨le_of_isHonouredWindow, isHonouredWindow_of_le⟩, ?_⟩
  intro h c now n request admitted hwider hok
  have hwindow := le_of_isHonouredWindow h
  have hnarrow : c.tolerance = c.timestampWindow.millis := Config.tolerance_eq (by omega)
  have hwide : Config.tolerance { c with timestampWindow := window } = window.millis :=
    Config.tolerance_eq hwindow
  obtain ⟨hsize, ha, hq, hp, hall, hf⟩ := Admitted.ofRequest_eq_ok.1 hok
  refine Admitted.ofRequest_eq_ok.2 ⟨hsize, ha, hq, hp, ?_, hf⟩
  cases ht : request.timestamp with
  | none => rfl
  | some timestamp =>
      rw [← ht, Config.all_isRecent_iff ht]
      rw [Config.all_isRecent_iff ht] at hall
      omega

/-- **A window of `2 ^ 61` seconds loses all of its bits.** A fit request that is one millisecond
old is stale under it. -/
theorem stale_of_wrapped_window :
    let window := Span.ofSeconds 2305843009213693952
    let c := { Config.standard with timestampWindow := window }
    let n := Deployment.rehearsedSubmission.body.length
    Admitted.IsFit c.limits n rehearsed ∧ rehearsed.timestamp = some 0 ∧
      ((1 : Int64).toInt - (0 : Int64).toInt).natAbs ≤ window.millis ∧
      Admitted.ofRequest c.limits 1 n rehearsed = .error .staleTimestamp ∧
      ¬ window.IsHonouredWindow := by
  intro window c n
  obtain ⟨admitted, hadmitted⟩ := Deployment.exists_rehearsed_admitted
  have hfit : Admitted.IsFit c.limits n rehearsed :=
    (Admitted.isFit_of_ofRequest hadmitted).of_maxBytes rfl
  have htolerance : c.tolerance = 0 := by decide
  have hmillis : window.millis = 2305843009213693952000 := by decide
  refine ⟨hfit, rfl, by rw [hmillis]; decide, ?_, fun h => ?_⟩
  · rcases hfit.cases 1 with ⟨hall, _⟩ | ⟨_, hstale⟩
    · have hrecent := (Config.all_isRecent_iff rfl).1 hall
      rw [htolerance] at hrecent
      exact absurd hrecent (by decide)
    · exact hstale
  · have hle := le_of_isHonouredWindow h
    rw [hmillis] at hle
    exact absurd hle (by decide)

end Span

end BlindSign
