import BlindSign.Deployment

set_option autoImplicit false

/-! # Executions of procedures

A procedure leaves open what its calls are answered. Here it is executed step by step with any
replies: a step makes at most one call, and of two calls that are made at once either may be
answered first. The calls with their replies form the trace of an execution.

What a trace does to the ledger is decided by its writes that succeed; a call that fails, or that
only reads, changes nothing.

To prove something of all executions, `Procedure.Obeys` folds it over the tree of a procedure: what
every exchange must satisfy after those before it, and what every end must satisfy.
-/

namespace BlindSign

structure Exchange where
  call : Call
  reply : call.Reply

namespace Exchange

def Moves : Exchange → Ledger → Ledger → Prop
  | ⟨.addRecord request, .ok ()⟩, l, l' =>
      ∃ now, l' = l.addRecord request.fingerprint (Deployment.recordOf request now)
  | ⟨.addCount account, .ok ()⟩, l, l' => l.increment? account = some l'
  | _, l, l' => l' = l

/-- What an exchange does to the ledger if it takes place between two instants: a record that it
makes is made then. -/
def MovesBetween (start stop : Instant) : Exchange → Ledger → Ledger → Prop
  | ⟨.addRecord request, .ok ()⟩, l, l' =>
      ∃ now : Instant, start.nanos ≤ now.nanos ∧ now.nanos ≤ stop.nanos ∧
        l' = l.addRecord request.fingerprint (Deployment.recordOf request now)
  | e, l, l' => e.Moves l l'

theorem MovesBetween.moves {start stop : Instant} {e : Exchange} {l l' : Ledger}
    (h : e.MovesBetween start stop l l') : e.Moves l l' := by
  obtain ⟨call, reply⟩ := e
  cases call with
  | addRecord request =>
      cases reply with
      | error fault => exact h
      | ok u =>
          obtain ⟨now, _, _, hl⟩ := h
          exact ⟨now, hl⟩
  | _ => exact h

/-- Whether what a reply tells about the ledger is true of it. -/
def IsTrueOf : Exchange → Ledger → Prop
  | ⟨.readQuota account _, .ok quota⟩, l => quota.performed = l.count account
  | ⟨.findRecord fingerprint, .ok found⟩, l => found = l.hasRecord fingerprint
  | _, _ => True

end Exchange

/-- What the exchanges of a trace do to the ledger, one after the other. -/
def Ledger.Follows : Ledger → List Exchange → Ledger → Prop
  | l, [], l' => l' = l
  | l, e :: trace, l' => ∃ l₁, e.Moves l l₁ ∧ l₁.Follows trace l'

/-- A ledger serves the exchanges of a trace, one after the other: what a reply tells of the ledger
is true when it is given, and the ledger moves as the exchanges say. -/
def Ledger.Serves : Ledger → List Exchange → Ledger → Prop
  | l, [], l' => l' = l
  | l, e :: trace, l' => e.IsTrueOf l ∧ ∃ l₁, e.Moves l l₁ ∧ l₁.Serves trace l'

theorem Ledger.Serves.follows {l l' : Ledger} {trace : List Exchange} (h : l.Serves trace l') :
    l.Follows trace l' := by
  induction trace generalizing l with
  | nil => exact h
  | cons e trace ih =>
      obtain ⟨_, l₁, hm, hs⟩ := h
      exact ⟨l₁, hm, ih hs⟩

theorem Ledger.serves_singleton {l l' : Ledger} {e : Exchange} :
    l.Serves [e] l' ↔ e.IsTrueOf l ∧ e.Moves l l' := by
  constructor
  · rintro ⟨ht, l₁, hm, h⟩
    obtain rfl : l' = l₁ := h
    exact ⟨ht, hm⟩
  · rintro ⟨ht, hm⟩
    exact ⟨ht, l', hm, rfl⟩

theorem Ledger.serves_append {l l' : Ledger} {es fs : List Exchange} :
    l.Serves (es ++ fs) l' ↔ ∃ l₁, l.Serves es l₁ ∧ l₁.Serves fs l' := by
  induction es generalizing l with
  | nil =>
      constructor
      · intro h
        exact ⟨l, rfl, h⟩
      · rintro ⟨l₁, h, h'⟩
        obtain rfl : l₁ = l := h
        exact h'
  | cons e es ih =>
      constructor
      · rintro ⟨ht, l₁, hm, h⟩
        obtain ⟨l₂, hes, hfs⟩ := ih.1 h
        exact ⟨l₂, ⟨ht, l₁, hm, hes⟩, hfs⟩
      · rintro ⟨l₂, ⟨ht, l₁, hm, hes⟩, hfs⟩
        exact ⟨ht, l₁, hm, ih.2 ⟨l₂, hes, hfs⟩⟩

/-- A ledger serves the exchanges of a trace, and all of them take place between two instants. -/
def Ledger.ServesBetween (start stop : Instant) : Ledger → List Exchange → Ledger → Prop
  | l, [], l' => l' = l
  | l, e :: trace, l' =>
      e.IsTrueOf l ∧ ∃ l₁, e.MovesBetween start stop l l₁ ∧ l₁.ServesBetween start stop trace l'

theorem Ledger.ServesBetween.serves {start stop : Instant} {l l' : Ledger} {trace : List Exchange}
    (h : l.ServesBetween start stop trace l') : l.Serves trace l' := by
  induction trace generalizing l with
  | nil => exact h
  | cons e trace ih =>
      obtain ⟨ht, l₁, hm, hs⟩ := h
      exact ⟨ht, l₁, hm.moves, ih hs⟩

/-! ## Writes -/

def Call.isWrite : Call → Bool
  | .addRecord _ => true
  | .addCount _ => true
  | _ => false

/-- Only writes change the ledger. -/
theorem Exchange.moves_iff {e : Exchange} {l l' : Ledger} (hw : e.call.isWrite = false) :
    e.Moves l l' ↔ l' = l := by
  obtain ⟨call, reply⟩ := e
  cases call with
  | addRecord request => cases hw
  | addCount account => cases hw
  | _ => exact Iff.rfl

theorem Exchange.movesBetween_of_isWrite {start stop : Instant} {e : Exchange} {l : Ledger}
    (hw : e.call.isWrite = false) : e.MovesBetween start stop l l := by
  obtain ⟨call, reply⟩ := e
  cases call with
  | addRecord request => cases hw
  | addCount account => cases hw
  | _ => rfl

theorem Ledger.Follows.eq_of_isWrite {l l' : Ledger} {trace : List Exchange}
    (h : l.Follows trace l') (hw : ∀ e ∈ trace, e.call.isWrite = false) : l' = l := by
  induction trace generalizing l with
  | nil => exact h
  | cons e trace ih =>
      obtain ⟨l₁, hm, hf⟩ := h
      have h₁ : l₁ = l := (Exchange.moves_iff (hw e (by simp))).1 hm
      subst h₁
      exact ih hf fun e he => hw e (by simp [he])

namespace Procedure

variable {α β : Type}

/-! ## Steps -/

/-- A step of a procedure, with the exchange that takes place in it, if one does. -/
inductive Step : Procedure α → List Exchange → Procedure α → Prop
  | note (event : Metric) (next : Procedure α) : Step (.note event next) [] next
  | ask (call : Call) (next : call.Reply → Procedure α) (reply : call.Reply) :
      Step (.ask call next) [⟨call, reply⟩] (next reply)
  /-- Of two calls made at once the first is answered first. -/
  | askFirst (first second : Call) (next : first.Reply → second.Reply → Procedure α)
      (reply : first.Reply) :
      Step (.askBoth first second next) [⟨first, reply⟩] (.ask second (next reply))
  /-- Of two calls made at once the second is answered first. -/
  | askSecond (first second : Call) (next : first.Reply → second.Reply → Procedure α)
      (reply : second.Reply) :
      Step (.askBoth first second next) [⟨second, reply⟩]
        (.ask first fun x => next x reply)

/-- A procedure gets by the exchanges of a trace to what is left of it. -/
inductive Reaches : Procedure α → List Exchange → Procedure α → Prop
  | refl (p : Procedure α) : Reaches p [] p
  | head {p q r : Procedure α} {es fs : List Exchange} :
      Step p es q → Reaches q fs r → Reaches p (es ++ fs) r

/-- A procedure ends with a result after the exchanges of a trace. -/
def Yields (p : Procedure α) (trace : List Exchange) (result : α) : Prop :=
  p.Reaches trace (.finish result)

theorem Step.bind {p q : Procedure α} {es : List Exchange} (h : p.Step es q)
    (f : α → Procedure β) : (p >>= f).Step es (q >>= f) := by
  cases h with
  | note event => exact .note event (q >>= f)
  | ask call next reply => exact .ask call (fun x => next x >>= f) reply
  | askFirst first second next reply =>
      exact .askFirst first second (fun x y => next x y >>= f) reply
  | askSecond first second next reply =>
      exact .askSecond first second (fun x y => next x y >>= f) reply

theorem Reaches.bind {p q : Procedure α} {es : List Exchange} (h : p.Reaches es q)
    (f : α → Procedure β) : (p >>= f).Reaches es (q >>= f) := by
  induction h with
  | refl p => exact .refl _
  -- every step is made below the continuation, the last ones included
  | head hs _ ih => exact .head (hs.bind f) ih

theorem Reaches.trans {p q r : Procedure α} {es fs : List Exchange} (h : p.Reaches es q)
    (h' : q.Reaches fs r) : p.Reaches (es ++ fs) r := by
  induction h with
  | refl p => exact h'
  | head hs _ ih =>
      rw [List.append_assoc]
      exact .head hs (ih h')

/-- At most one exchange takes place in a step. -/
theorem Step.label {p q : Procedure α} {es : List Exchange} (h : p.Step es q) :
    es = [] ∨ ∃ e, es = [e] := by
  cases h with
  | note event => exact .inl rfl
  | ask call next reply => exact .inr ⟨_, rfl⟩
  | askFirst first second next reply => exact .inr ⟨_, rfl⟩
  | askSecond first second next reply => exact .inr ⟨_, rfl⟩

/-- An execution may be stopped after any part of its trace. -/
theorem Reaches.split {p r : Procedure α} {trace : List Exchange} (h : p.Reaches trace r)
    {es fs : List Exchange} (ht : trace = es ++ fs) : ∃ q, p.Reaches es q ∧ q.Reaches fs r := by
  induction h generalizing es with
  | refl p =>
      obtain ⟨rfl, rfl⟩ := List.append_eq_nil_iff.1 ht.symm
      exact ⟨p, .refl p, .refl p⟩
  | @head p q r first rest hs hr ih =>
      -- a step has at most one exchange, so no step is cut in two
      rcases hs.label with rfl | ⟨e, rfl⟩
      · obtain ⟨q', h₁, h₂⟩ := ih ht
        exact ⟨q', .head hs h₁, h₂⟩
      · cases es with
        | nil =>
            obtain rfl : [e] ++ rest = fs := ht
            exact ⟨p, .refl p, .head hs hr⟩
        | cons e' es =>
            obtain ⟨rfl, ht'⟩ := List.cons.inj ht
            obtain ⟨q', h₁, h₂⟩ := ih ht'
            exact ⟨q', .head hs h₁, h₂⟩

/-- What goes on after a procedure goes on after its result. -/
theorem Yields.bind {p : Procedure α} {es : List Exchange} {a : α} (h : p.Yields es a)
    {f : α → Procedure β} {q : Procedure β} {fs : List Exchange} (h' : (f a).Reaches fs q) :
    (p >>= f).Reaches (es ++ fs) q :=
  (Reaches.bind h f).trans h'

theorem yields_noting (event : Metric) : (noting event).Yields [] () :=
  .head (.note event _) (.refl _)

theorem yields_asking (call : Call) (reply : call.Reply) :
    (asking call).Yields [⟨call, reply⟩] reply := .head (.ask call _ reply) (.refl _)

theorem Yields.timed {p : Procedure α} {es : List Exchange} {a : α} (h : p.Yields es a)
    (stage : Stage) : (timed stage p).Yields es a := by
  have hn : (do noting (.stage stage); return a : Procedure α).Yields [] a :=
    (yields_noting (.stage stage)).bind (.refl _)
  have ht : (Procedure.timed stage p).Reaches (es ++ []) (.finish a) := h.bind hn
  rwa [List.append_nil] at ht

/-- The course with fixed replies is an execution. -/
theorem yields_course (replies : (call : Call) → call.Reply) (p : Procedure α) :
    p.Yields ((p.course replies).calls.map fun call => ⟨call, replies call⟩)
      (p.course replies).result := by
  induction p with
  | finish result => exact .refl _
  | note event next ih => exact .head (.note event next) ih
  | ask call next ih => exact .head (.ask call next (replies call)) (ih (replies call))
  | askBoth first second next ih =>
      exact .head (.askFirst first second next (replies first))
        (.head (.ask second _ (replies second)) (ih (replies first) (replies second)))

/-! ## Procedures without calls -/

/-- A procedure only notes events, and ends with a result. -/
inductive EndsAtOnce : Procedure α → α → Prop
  | finish (a : α) : EndsAtOnce (.finish a) a
  | note (event : Metric) {next : Procedure α} {a : α} (h : EndsAtOnce next a) :
      EndsAtOnce (.note event next) a

namespace EndsAtOnce

variable {p : Procedure α} {a : α}

theorem bind (h : p.EndsAtOnce a) {f : α → Procedure β} {b : β} (hf : (f a).EndsAtOnce b) :
    (p >>= f).EndsAtOnce b := by
  induction h with
  | finish a => exact hf
  | note event _ ih => exact .note event (ih hf)

theorem reaches (h : p.EndsAtOnce a) {q : Procedure α} {trace : List Exchange}
    (hq : p.Reaches trace q) : trace = [] ∧ q.EndsAtOnce a := by
  induction hq with
  | refl p => exact ⟨rfl, h⟩
  | head hs _ ih =>
      cases h with
      | finish a => cases hs
      | note event h =>
          cases hs
          exact ih h

theorem yields (h : p.EndsAtOnce a) : p.Yields [] a := by
  induction h with
  | finish a => exact .refl _
  | note event _ ih => exact .head (.note event _) ih

/-- Nobody is asked, and there is one result. -/
theorem yields_iff (h : p.EndsAtOnce a) {trace : List Exchange} {b : α} :
    p.Yields trace b ↔ trace = [] ∧ b = a := by
  constructor
  · intro hy
    obtain ⟨rfl, hb⟩ := h.reaches hy
    cases hb
    exact ⟨rfl, rfl⟩
  · rintro ⟨rfl, rfl⟩
    exact h.yields

end EndsAtOnce

/-! ## Obedience -/

/-- Whatever the replies, every exchange satisfies `may` after the exchanges before it, and every
end satisfies `ends` after the exchanges of the whole execution; `past` holds those so far. -/
def Obeys (may : List Exchange → Exchange → Prop) (ends : List Exchange → α → Prop) :
    Procedure α → List Exchange → Prop
  | finish result, past => ends past result
  | note _ next, past => Obeys may ends next past
  | ask call next, past =>
      ∀ reply, may past ⟨call, reply⟩ ∧ Obeys may ends (next reply) (past ++ [⟨call, reply⟩])
  | askBoth first second next, past =>
      (∀ x, may past ⟨first, x⟩ ∧
        ∀ y, may (past ++ [⟨first, x⟩]) ⟨second, y⟩ ∧
          Obeys may ends (next x y) (past ++ [⟨first, x⟩] ++ [⟨second, y⟩])) ∧
      (∀ y, may past ⟨second, y⟩ ∧
        ∀ x, may (past ++ [⟨second, y⟩]) ⟨first, x⟩ ∧
          Obeys may ends (next x y) (past ++ [⟨second, y⟩] ++ [⟨first, x⟩]))

section

variable {may : List Exchange → Exchange → Prop} {past : List Exchange}

theorem obeys_andThen {ends : List Exchange → β → Prop} {f : α → Procedure β}
    (p : Procedure α) :
    (p.andThen f).Obeys may ends past ↔
      p.Obeys may (fun past a => (f a).Obeys may ends past) past := by
  induction p generalizing past with
  | finish result => exact Iff.rfl
  | note event next ih => exact ih
  | ask call next ih => simp only [andThen, Obeys, ih]
  | askBoth first second next ih => simp only [andThen, Obeys, ih]

@[simp] theorem obeys_bind {ends : List Exchange → β → Prop} {f : α → Procedure β}
    (p : Procedure α) :
    (p >>= f).Obeys may ends past ↔
      p.Obeys may (fun past a => (f a).Obeys may ends past) past :=
  obeys_andThen p

@[simp] theorem obeys_pure {ends : List Exchange → α → Prop} (a : α) :
    (pure a : Procedure α).Obeys may ends past ↔ ends past a := Iff.rfl

@[simp] theorem obeys_noting {ends : List Exchange → Unit → Prop} (event : Metric) :
    (noting event).Obeys may ends past ↔ ends past () := Iff.rfl

@[simp] theorem obeys_asking {call : Call} {ends : List Exchange → call.Reply → Prop} :
    (asking call).Obeys may ends past ↔
      ∀ reply, may past ⟨call, reply⟩ ∧ ends (past ++ [⟨call, reply⟩]) reply := Iff.rfl

@[simp] theorem obeys_timed {ends : List Exchange → α → Prop} (stage : Stage)
    (p : Procedure α) : (timed stage p).Obeys may ends past ↔ p.Obeys may ends past := by
  simp only [timed, obeys_bind, obeys_noting, obeys_pure]

end

section

variable {may : List Exchange → Exchange → Prop} {ends : List Exchange → α → Prop}
  {p q : Procedure α} {past es : List Exchange}

/-- What obeys keeps obeying, and each of its exchanges is one that it may make. -/
theorem Obeys.step (h : p.Obeys may ends past) (hs : p.Step es q) :
    (∀ e ∈ es, may past e) ∧ q.Obeys may ends (past ++ es) := by
  cases hs with
  | note event next =>
      rw [List.append_nil]
      exact ⟨fun e he => by simp at he, h⟩
  | ask call next reply => simpa using h reply
  | askFirst first second next reply =>
      obtain ⟨hm, hy⟩ := h.1 reply
      exact ⟨by simpa using hm, hy⟩
  | askSecond first second next reply =>
      obtain ⟨hm, hx⟩ := h.2 reply
      exact ⟨by simpa using hm, hx⟩

theorem Obeys.reaches (hs : p.Reaches es q) (h : p.Obeys may ends past) :
    q.Obeys may ends (past ++ es) := by
  induction hs generalizing past with
  | refl p => simpa using h
  -- what was done so far grows by each step, so `past` is general
  | head hstep _ ih => simpa using ih (h.step hstep).2

theorem Obeys.yields {result : α} (h : p.Obeys may ends []) (hy : p.Yields es result) :
    ends es result := h.reaches hy

end

end Procedure

end BlindSign
