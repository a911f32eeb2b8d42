import UtilityCss.Journal
import UtilityCss.Pass
import UtilityCss.Scheduler.Basic
/-!
# Sessions

A scheduler at work takes steps and waits between them.
-/

namespace UtilityCss

open Binary64

/-! ## Sessions

A session is a scheduler at work: the scheduler, the clock, what was reported, and the state of
whatever compiles the batches. Events reach a session at any time, also while a batch is
compiled. -/

/-- A scheduler at work. -/
structure Session (σ : Type) where
  scheduler : Scheduler
  /-- The clock in seconds. -/
  now : Float
  journal : Journal
  /-- The times in seconds that the session slept before retries. -/
  sleeps : List Float
  /-- The state of the processor. -/
  work : σ

namespace Session

variable {σ : Type}

/-- A session that starts at time zero. -/
def new (scheduler : Scheduler) (work : σ) : Session σ := ⟨scheduler, 0.0, [], [], work⟩

/-- Adds an entry to the journal. -/
def record (s : Session σ) (entry : JournalEntry) : Session σ :=
  { s with journal := s.journal ++ [entry] }

/-- Reports an event. -/
def emit (s : Session σ) (e : Event) : Session σ := s.record (.event e)

/-- Lets the clock run on. -/
def advance (s : Session σ) (seconds : Float) : Session σ := { s with now := s.now + seconds }

/-- Sleeps before a retry. -/
def sleep (s : Session σ) (seconds : Float) : Session σ :=
  { s with now := s.now + seconds, sleeps := s.sleeps ++ [seconds] }

/-- Sets the deadline of the next batch and reports it. The answer is the delay in milliseconds. -/
def arm (s : Session σ) : Except ArithmeticError Int × Session σ :=
  match s.scheduler.arm s.now with
  | .error e => (.error e, s)
  | .ok scheduler =>
    let s := { s with scheduler := scheduler }
    let delay := scheduler.delay
    (.ok delay, s.emit (.batchScheduled scheduler.pending.length delay))

/-- A file was added or has changed. -/
def fileChanged (s : Session σ) (path : Text) : Except ArithmeticError Int × Session σ :=
  { s with scheduler := s.scheduler.enqueue path }.arm

/-- A file was removed. -/
def fileRemoved (s : Session σ) (path : Text) : Session σ :=
  { s with scheduler := s.scheduler.enqueueRemoval path }

end Session

/-! ## Steps of the scheduler

A step first handles the removals that are queued, then compiles the next batch if it is due. What
compiles is a processor, and events may arrive while it works: a processor takes the session and
gives it back. A batch that fails is attempted again as a whole, up to the number of retries that
the policy grants, and then dropped. Only one batch is compiled at a time, even if a step is taken
within a step. -/

/-- What compiles batches and forgets removed files. -/
structure Processor (σ : Type) where
  /-- Scans files and writes the stylesheets. -/
  runPass : List Text → Session σ → Except Failure RebuildResult × Session σ
  /-- Forgets a file. The answer is whether it was tracked. -/
  forget : Text → Session σ → Bool × Session σ
  /-- Writes the stylesheets from what is tracked. -/
  rebuild : Session σ → Except Failure RebuildResult × Session σ
  /-- Sleeps for a number of seconds before a retry. -/
  sleep : Float → Session σ → Session σ := fun seconds s => s.sleep seconds
  /-- A bound on how many of the coming calls can bring events with them. -/
  activity : Session σ → Nat

namespace Session

variable {σ : Type}

/-- Attempts a pass until it succeeds or no retries are left. `attempt` is the number of the
attempt. -/
def attemptPass (p : Processor σ) (run : Session σ → Except Failure RebuildResult × Session σ)
    (files : List Text) (removal : Bool) : (retries attempt : Nat) → Session σ →
      Except ArithmeticError PassOutcome × Session σ
  | retries, attempt, s =>
    match run (s.emit (.passStarted files.length attempt removal)) with
    | (.ok result, s) =>
      let event := .passCompleted files.length (attempt - 1 : Nat) result.ruleCount removal
      (.ok ⟨files, attempt, .ok result⟩, s.emit event)
    | (.error e, s) =>
      match retries with
      | 0 =>
        let event := .passFailed files.length attempt e.message removal
        (.ok ⟨files, attempt, .error e⟩, s.emit event)
      | retries + 1 =>
        match s.scheduler.policy.delayBefore attempt with
        | .error overflow => (.error overflow, s)
        | .ok delay =>
          let maxRetries := s.scheduler.policy.maxRetries
          let event := .passRetrying files.length attempt maxRetries delay e.message removal
          attemptPass p run files removal retries (attempt + 1) (p.sleep delay (s.emit event))

/-- Attempts a pass with all retries that the policy grants. -/
def runWithRetries (p : Processor σ) (run : Session σ → Except Failure RebuildResult × Session σ)
    (files : List Text) (removal : Bool) (s : Session σ) :
    Except ArithmeticError PassOutcome × Session σ :=
  attemptPass p run files removal s.scheduler.policy.maxRetries.toNat 1 s

/-- Compiles files at once, whether they are due or not. -/
def runBatch (p : Processor σ) (files : List Text) (s : Session σ) :
    Except ArithmeticError PassOutcome × Session σ :=
  runWithRetries p (p.runPass files) files false s

/-- Forgets removed files, and rebuilds the stylesheets after every file that was tracked. -/
def handleRemovals (p : Processor σ) :
    List Text → Session σ → Except ArithmeticError Unit × Session σ
  | [], s => (.ok (), s)
  | path :: paths, s =>
    match p.forget path s with
    | (false, s) => handleRemovals p paths s
    | (true, s) =>
      match runWithRetries p p.rebuild [] true s with
      | (.error e, s) => (.error e, s)
      | (.ok _, s) => handleRemovals p paths s

/-- Ends the compiling of a batch: files that changed meanwhile wait for a new deadline. -/
def finishPass (s : Session σ) : Except ArithmeticError Unit × Session σ :=
  let s := { s with scheduler := { s.scheduler with compiling := false } }
  if s.scheduler.pending.isEmpty then (.ok (), s)
  else
    match s.arm with
    | (.error e, s) => (.error e, s)
    | (.ok _, s) => (.ok (), s)

/-- Compiles the next batch if it is due. However the pass ends, it is not in flight afterwards. -/
def compileDueBatch (p : Processor σ) (s : Session σ) :
    Except ArithmeticError (Option PassOutcome) × Session σ :=
  match s.scheduler.takeDueBatch s.now with
  | (none, scheduler) => (.ok none, { s with scheduler := scheduler })
  | (some files, scheduler) =>
    let (outcome, s) := runBatch p files { s with scheduler := scheduler }
    match s.finishPass with
    | (.error e, s) => (.error e, s)
    | (.ok _, s) => (outcome.map some, s)

/-- Handles the queued removals, then compiles the next batch if it is due. -/
def step (p : Processor σ) (s : Session σ) :
    Except ArithmeticError (Option PassOutcome) × Session σ :=
  let (removals, scheduler) := s.scheduler.takeRemovals
  match handleRemovals p removals { s with scheduler := scheduler } with
  | (.error e, s) => (.error e, s)
  | (.ok _, s) => compileDueBatch p s

/-- An error while removals are handled breaks the step off. -/
theorem step_of_error {p : Processor σ} {s s' : Session σ} {e : ArithmeticError}
    (h : handleRemovals p s.scheduler.removals
      { s with scheduler := { s.scheduler with removals := [] } } = (.error e, s')) :
    step p s = (.error e, s') := by
  simp only [step, Scheduler.takeRemovals, h]

/-- After its removals a step compiles the next batch. -/
theorem step_of_ok {p : Processor σ} {s s' : Session σ} {u : Unit}
    (h : handleRemovals p s.scheduler.removals
      { s with scheduler := { s.scheduler with removals := [] } } = (.ok u, s')) :
    step p s = compileDueBatch p s' := by
  simp only [step, Scheduler.takeRemovals, h]

/-! ## Serving

The owner of a session takes one step after another. After a step it waits for the next deadline, or
for a while if there is none, unless removals are queued or the deadline is there already. The waits
are rounds of simulated time: the clock runs on by the time of the wait, and then the events of the
round arrive. The session ends when it is stopped, or at a wait for which no round is left. -/

variable {σ : Type}

/-- What happens during a wait. It may break the serving off. -/
abbrev Round (σ : Type) := Session σ → Except Failure Unit × Session σ

/-- Takes steps and waits. `fuel` bounds the number of steps. -/
def serveFor (p : Processor σ) (stopped : σ → Bool) (idle : Float) : (fuel : Nat) →
    List (Round σ) → Session σ → Except Failure (List Float) × Session σ
  | 0, _, s => (.ok [], s)
  | fuel + 1, rounds, s =>
    if stopped s.work then (.ok [], s)
    else
      match step p s with
      | (.error e, s) => (.error (.arithmetic e), s)
      | (.ok _, s) =>
        if s.scheduler.removals.isEmpty then
          let timeout := s.scheduler.timeout s.now idle
          if 0.0 < timeout then
            match rounds with
            | [] => (.ok [timeout], s.advance timeout)
            | round :: rounds =>
              match round (s.advance timeout) with
              | (.error e, s) => (.error e, s)
              | (.ok _, s) =>
                let (waits, s) := serveFor p stopped idle fuel rounds s
                (waits.map (timeout :: ·), s)
          else serveFor p stopped idle fuel rounds s
        else serveFor p stopped idle fuel rounds s

/-- Takes steps and waits until the rounds are used up. The answer is the time of every wait. Every
step without a wait after it uses up a call that brings events, unless `idle` is not positive. -/
def serve (p : Processor σ) (stopped : σ → Bool) (idle : Float) (rounds : List (Round σ))
    (s : Session σ) : Except Failure (List Float) × Session σ :=
  serveFor p stopped idle (rounds.length + 1 + p.activity s) rounds s

end Session

end UtilityCss
