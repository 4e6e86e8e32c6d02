import BlindSign.Admission

set_option autoImplicit false

/-! # What is admitted

A request is admitted just if it passes every check, and then with the parts that were read from it.
Only the last check asks for the time.
-/

namespace BlindSign

/-- A computation that may fail ends well just if both of its parts do. -/
theorem bind_eq_ok {ε α β : Type} {x : Except ε α} {f : α → Except ε β} {b : β} :
    x >>= f = .ok b ↔ ∃ a, x = .ok a ∧ f a = .ok b := by
  cases x with
  | error fault =>
      constructor
      · intro h
        cases h
      · rintro ⟨a, h, _⟩
        cases h
  | ok a =>
      constructor
      · intro h
        exact ⟨a, rfl, h⟩
      · rintro ⟨a', ha, h⟩
        cases ha
        exact h

theorem exists_of_isOk {ε α : Type} {x : Except ε α} (h : x.isOk = true) : ∃ a, x = .ok a := by
  cases x with
  | error fault => cases h
  | ok a => exact ⟨a, rfl⟩

/-- A computation that may fail ends in a fault just if one of its parts does. -/
theorem bind_eq_error {ε α β : Type} {x : Except ε α} {f : α → Except ε β} {fault : ε} :
    x >>= f = .error fault ↔ x = .error fault ∨ ∃ a, x = .ok a ∧ f a = .error fault := by
  cases x with
  | error fault' =>
      constructor
      · intro h
        cases h
        exact .inl rfl
      · rintro (h | ⟨a, h, _⟩)
        · cases h
          rfl
        · cases h
  | ok a =>
      constructor
      · intro h
        exact .inr ⟨a, rfl, h⟩
      · rintro (h | ⟨a', ha, h⟩)
        · cases h
        · cases ha
          exact h

namespace Admitted

variable {limits : Limits} {now : Int64} {n : Nat} {request : Request} {admitted : Admitted}

theorem part_eq_ok {α : Type} {fault : RequestFault} {a? : Option α} {a : α} :
    part fault a? = .ok a ↔ a? = some a := by
  cases a? with
  | none => simp [part]
  | some a' => simp [part]

/-- **What is admitted.** A request passes admission just if it is small enough, its parts can be
read and its timestamp is recent. -/
theorem ofRequest_eq_ok :
    ofRequest limits now n request = .ok admitted ↔
      size request n < limits.maxBytes.toNat ∧
        Account.parse? request.account = some admitted.account ∧
        BlindedQuery.parse? request.blindedQuery = some admitted.query ∧
        readPhoneHash request.phoneHash = .ok admitted.phoneHash ∧
        request.timestamp.all (isRecent limits.window now) = true ∧
        admitted.fingerprint = request.fingerprint ∧ admitted.request = request := by
  unfold ofRequest
  by_cases hsize : limits.maxBytes.toNat ≤ size request n
  · rw [if_pos hsize]
    constructor
    · intro h
      cases h
    · rintro ⟨hlt, _⟩
      omega
  · rw [if_neg hsize]
    simp only [bind_eq_ok, part_eq_ok]
    constructor
    · rintro ⟨account, ha, query, hq, phoneHash, hp, h⟩
      -- the parts can be read; what is left to decide is the timestamp
      split at h
      · next ht =>
          cases h
          exact ⟨by omega, ha, hq, hp, ht, rfl, rfl⟩
      · cases h
    · obtain ⟨account, query, phoneHash, fingerprint, written⟩ := admitted
      rintro ⟨_, ha, hq, hp, ht, rfl, hr⟩
      obtain rfl : written = request := hr
      refine ⟨account, ha, query, hq, phoneHash, hp, ?_⟩
      rw [if_pos ht]

/-- A request that was admitted is admitted whenever its timestamp is recent. -/
theorem ofRequest_of_isRecent {now' : Int64} (h : ofRequest limits now n request = .ok admitted)
    (ht : request.timestamp.all (isRecent limits.window now') = true) :
    ofRequest limits now' n request = .ok admitted := by
  obtain ⟨hsize, ha, hq, hp, _, hf⟩ := ofRequest_eq_ok.1 h
  exact ofRequest_eq_ok.2 ⟨hsize, ha, hq, hp, ht, hf⟩

end Admitted

end BlindSign
