import UtilityCss.Proofs.Answers
import UtilityCss.Proofs.Scheduler.Attempts
/-!
# The trace of a pass

What a pass asks of its processor, how long it sleeps and what it reports is determined by how its
attempts end. Each attempt is announced; each but the last fails, is reported with the delay of the
retry, and is followed by a sleep for that delay; the last one is the first that succeeds, or the
last that the policy grants, and exactly one event tells how it ended.

Nothing is assumed of the processor but that it can be observed: its state tells what was asked of
it so far, and how the coming attempts will end. Files may change while it works, and it may report
what it likes, as long as it does not report passes of its own.
-/

namespace UtilityCss

/-- Whether an event belongs to the course of a pass. -/
def Event.isOfPass : Event → Bool
  | .passStarted .. | .passCompleted .. | .passRetrying .. | .passFailed .. => true
  | _ => false

/-- The events of a journal that belong to passes. -/
def Journal.passEvents (j : Journal) : List Event := j.events.filter Event.isOfPass

/-! ## Accounts -/

/-- What is asked of a processor. -/
inductive Request where
  | pass (files : List Text)
  | forget (path : Text)
  | rebuild
  deriving DecidableEq

/-- What happened between two sessions: the requests, how many attempts they were, the sleeps, and
the events of passes. -/
structure Account where
  requests : List Request
  attempts : Nat
  sleeps : List Float
  events : List Event

/-- One account after the other. -/
def Account.append (a b : Account) : Account where
  requests := a.requests ++ b.requests
  attempts := a.attempts + b.attempts
  sleeps := a.sleeps ++ b.sleeps
  events := a.events ++ b.events

/-- What the state of a processor tells: what was asked so far, and how the coming attempts end. -/
structure Observer (σ : Type) where
  requests : σ → List Request
  coming : σ → Nat → Except Failure RebuildResult

variable {σ : Type} {o : Observer σ} {p : Processor σ}

/-- The account tells what happened between two sessions, and the policy has stayed as it was. -/
structure Observer.Accounts (o : Observer σ) (a : Account) (s s' : Session σ) : Prop where
  requests : o.requests s'.work = o.requests s.work ++ a.requests
  coming : ∀ i, o.coming s'.work i = o.coming s.work (a.attempts + i)
  sleeps : s'.sleeps = s.sleeps ++ a.sleeps
  events : s'.journal.passEvents = s.journal.passEvents ++ a.events
  policy : s'.scheduler.policy = s.scheduler.policy

namespace Observer.Accounts

variable {a b : Account} {s s₁ s₂ : Session σ}

theorem trans (ha : o.Accounts a s s₁) (hb : o.Accounts b s₁ s₂) :
    o.Accounts (a.append b) s s₂ where
  requests := by rw [hb.requests, ha.requests, List.append_assoc]; rfl
  coming i := by rw [hb.coming, ha.coming]; simp only [Account.append, Nat.add_assoc]
  sleeps := by rw [hb.sleeps, ha.sleeps, List.append_assoc]; rfl
  events := by rw [hb.events, ha.events, List.append_assoc]; rfl
  policy := by rw [hb.policy, ha.policy]

/-- An event of a pass is all that happens when it is reported. -/
theorem emit (s : Session σ) {e : Event} (he : e.isOfPass = true) :
    o.Accounts ⟨[], 0, [], [e]⟩ s (s.emit e) where
  requests := by simp [Session.emit, Session.record]
  coming i := by simp [Session.emit, Session.record]
  sleeps := by simp [Session.emit, Session.record]
  events := by simp [Session.emit, Session.record, Journal.passEvents, Journal.events, he]
  policy := rfl

end Observer.Accounts

/-! ## The trace -/

/-- The attempt that ends a pass: the first that succeeds, or the last that is granted if none
does. -/
structure Settles (results : Nat → Except Failure RebuildResult) (first : Nat) (last : Int)
    (n : Nat) : Prop where
  first_le : first ≤ n
  le_last : (n : Int) ≤ last
  failed : ∀ k, first ≤ k → k < n → (results k).isOk = false
  settled : (results n).isOk = true ∨ (n : Int) = last

/-- A failed attempt leaves it to the others to settle the pass. -/
theorem Settles.later {results : Nat → Except Failure RebuildResult} {first n : Nat} {last : Int}
    (hfailed : (results first).isOk = false) (h : Settles results (first + 1) last n) :
    Settles results first last n where
  first_le := Nat.le_of_succ_le h.first_le
  le_last := h.le_last
  failed k hk hkn := by
    rcases Nat.eq_or_lt_of_le hk with rfl | hlt
    · exact hfailed
    · exact h.failed k hlt hkn
  settled := h.settled

namespace PassTrace

variable (files : Nat) (removal : Bool) (maxRetries : Int) (delay : Nat → Float)
  (results : Nat → Except Failure RebuildResult)

/-- The text of the failure of an attempt. -/
def failureText (result : Except Failure RebuildResult) : Text :=
  match result with
  | .ok _ => ""
  | .error e => e.message

/-- An attempt that is followed by another one. -/
def retried (k : Nat) : List Event :=
  [.passStarted files k removal,
    .passRetrying files k maxRetries (delay k) (failureText (results k)) removal]

/-- The last attempt. -/
def final (n : Nat) : List Event :=
  [.passStarted files n removal,
    match results n with
    | .ok result => .passCompleted files (n - 1 : Nat) result.ruleCount removal
    | .error e => .passFailed files n e.message removal]

/-- The events of the attempts from `first` to `n`. -/
def events (first n : Nat) : List Event :=
  (List.range' first (n - first)).flatMap (retried files removal maxRetries delay results) ++
    final files removal results n

variable {files removal maxRetries delay results}

end PassTrace

namespace Session

open PassTrace

variable {run : Session σ → Except Failure RebuildResult × Session σ} {files : List Text}
  {removal : Bool}
  {request : Request} {delay : Nat → Float} {results : Nat → Except Failure RebuildResult}

/-- A processor that does what a script says: how its coming attempts end. It writes down what it is
asked. -/
structure Script where
  requests : List Request
  coming : Nat → Except Failure RebuildResult

namespace Script

/-- An attempt uses up a result. -/
def attempt (request : Request) (s : Session Script) :
    Except Failure RebuildResult × Session Script :=
  (s.work.coming 0,
    { s with work := ⟨s.work.requests ++ [request], fun i => s.work.coming (1 + i)⟩ })

/-- The processor of a script, for which every file is tracked. -/
def processor : Processor Script where
  runPass files := attempt (.pass files)
  forget path s :=
    (true, { s with work := { s.work with requests := s.work.requests ++ [.forget path] } })
  rebuild := attempt .rebuild
  activity _ := 0

/-- Three retries, after 100, 200 and 400 milliseconds. -/
def doubling : RetryPolicy := .ofSettings 3 100 2.0

end Script

end Session
end UtilityCss
