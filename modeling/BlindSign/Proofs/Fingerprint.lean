import BlindSign.Request
import BlindSign.Proofs.Json.Trees
import BlindSign.Proofs.Ledger

set_option autoImplicit false

/-! # A fingerprint identifies a request

The canonical encoding of a request is read back as the tree that it was written from, and
different requests have different trees: texts are told apart character by character, an absent
field is `null` and a present one never is, and each field keeps its place.

**Two requests have one fingerprint only if they are one request, or if two different encodings
have one hash** (`fingerprint_eq_iff`).
-/

namespace BlindSign

/-- Two different messages with one hash. -/
def Hash.Sha256.Collide (x y : List UInt8) : Prop := x ≠ y ∧ Hash.Sha256.hash x = Hash.Sha256.hash y

namespace Request

open Json

theorem isLegal_canonicalTree (r : Request) : r.canonicalTree.IsLegal := by
  refine Tree.isLegal_object ?_
  simp only [List.forall_mem_cons, member, Token.isLegal_text, true_and]
  exact ⟨Tree.isLegal_ofText _, Tree.isLegal_ofText _,
    Tree.isLegal_orNull Tree.isLegal_ofText _,
    Tree.isLegal_orNull Tree.isLegal_ofInt64 _,
    Tree.isLegal_orNull Tree.isLegal_ofText _, by simp⟩

/-- The canonical encoding is read back as its tree. -/
theorem parse?_canonical (r : Request) : Tree.parse? r.canonical = some r.canonicalTree :=
  Tree.parse?_render r.isLegal_canonicalTree

/-- Requests with one canonical tree agree in each field. -/
theorem canonicalTree_inj {r r' : Request} : r.canonicalTree = r'.canonicalTree ↔ r = r' := by
  have htexts : ∀ {o o' : Option String},
      Tree.orNull Tree.ofText o = Tree.orNull Tree.ofText o' ↔ o = o' :=
    Tree.orNull_inj Tree.ofText_inj fun _ h => nomatch h
  have hnumbers : ∀ {o o' : Option Int64},
      Tree.orNull Tree.ofInt64 o = Tree.orNull Tree.ofInt64 o' ↔ o = o' :=
    Tree.orNull_inj Tree.ofInt64_inj fun _ h => nomatch h
  obtain ⟨account, blindedQuery, phoneHash, timestamp, sessionId⟩ := r
  obtain ⟨account', blindedQuery', phoneHash', timestamp', sessionId'⟩ := r'
  simp only [canonicalTree, member, Tree.object.injEq, List.cons.injEq, Prod.mk.injEq, true_and,
    and_true, Request.mk.injEq, Tree.ofText_inj, htexts, hnumbers]

/-- Different requests have different canonical encodings. -/
theorem canonical_inj {r r' : Request} : r.canonical = r'.canonical ↔ r = r' := by
  constructor
  · intro h
    have htree := congrArg Tree.parse? h
    rw [parse?_canonical, parse?_canonical] at htree
    exact canonicalTree_inj.1 (Option.some.inj htree)
  · exact congrArg canonical

/-- **Different requests have different canonical encodings, and so different fingerprints unless
these encodings collide.** -/
theorem fingerprint_eq_iff (r r' : Request) :
    (r.canonical = r'.canonical ↔ r = r') ∧
      (r.fingerprint = r'.fingerprint ↔
        r = r' ∨ Hash.Sha256.Collide r.canonical r'.canonical) := by
  refine ⟨canonical_inj, ?_⟩
  constructor
  · intro h
    have hhash : Hash.Sha256.hash r.canonical = Hash.Sha256.hash r'.canonical :=
      Encoding.Hex.encode_inj (congrArg Fingerprint.text h)
    by_cases heq : r.canonical = r'.canonical
    · exact .inl (canonical_inj.1 heq)
    · exact .inr ⟨heq, hhash⟩
  · rintro (rfl | ⟨_, hhash⟩)
    · rfl
    · simp only [fingerprint, hhash]

end Request

end BlindSign
