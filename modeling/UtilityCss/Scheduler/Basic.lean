import UtilityCss.Scheduler.Delay
import UtilityCss.Text.Basic
/-!
# The batch scheduler

The scheduler collects file changes and compiles them together. It is idle until a file changes;
then it accumulates changed files, and every change moves the deadline of the batch into the future;
when the deadline has passed it compiles the batch. Files that change meanwhile make up the next
batch:

idle → accumulating → compiling → idle or accumulating

Removed files are queued apart, since they do not wait for a deadline. This module holds the state
of the scheduler and what events and the clock do to it.
-/

namespace UtilityCss

open Binary64

/-- What the scheduler is doing. -/
inductive SchedulerState where
  | idle
  | accumulating
  | compiling
  deriving DecidableEq, Repr

/-- The name of a state. -/
def SchedulerState.name : SchedulerState → Text
  | .idle => "idle"
  | .accumulating => "accumulating"
  | .compiling => "compiling"

/-- The files that wait to be compiled or forgotten. -/
structure Scheduler where
  settings : BatchSettings
  policy : RetryPolicy
  /-- The files of the next batch, in the order in which they joined it. -/
  pending : List Text
  /-- The removed files that have not been handled, the earliest first. -/
  removals : List Text
  /-- When the next batch is due, in seconds. -/
  deadline : Option Float
  /-- Whether a batch is being compiled. -/
  compiling : Bool

namespace Scheduler

/-- A scheduler that waits for nothing. -/
def new (settings : BatchSettings) (policy : RetryPolicy) : Scheduler :=
  ⟨settings, policy, [], [], none, false⟩

/-- What the scheduler is doing. -/
def state (s : Scheduler) : SchedulerState :=
  if s.compiling then .compiling else if s.pending.isEmpty then .idle else .accumulating

theorem state_eq_compiling_iff {s : Scheduler} : s.state = .compiling ↔ s.compiling = true := by
  unfold state
  cases s.compiling <;> cases s.pending.isEmpty <;> simp

/-- Lets a file join the next batch; a file that is part of it keeps its place. -/
def enqueue (s : Scheduler) (path : Text) : Scheduler :=
  if path ∈ s.pending then s else { s with pending := s.pending ++ [path] }

/-- A file that joins the next batch changes nothing else. -/
theorem enqueue_eq (s : Scheduler) (path : Text) : s.enqueue path =
    { s with pending := if path ∈ s.pending then s.pending else s.pending ++ [path] } := by
  unfold enqueue; split <;> rfl

@[simp] theorem enqueue_pending (s : Scheduler) (path : Text) : (s.enqueue path).pending =
    if path ∈ s.pending then s.pending else s.pending ++ [path] := by
  rw [enqueue_eq]

@[simp] theorem enqueue_removals (s : Scheduler) (path : Text) :
    (s.enqueue path).removals = s.removals := by
  rw [enqueue_eq]

@[simp] theorem enqueue_deadline (s : Scheduler) (path : Text) :
    (s.enqueue path).deadline = s.deadline := by
  rw [enqueue_eq]

@[simp] theorem enqueue_compiling (s : Scheduler) (path : Text) :
    (s.enqueue path).compiling = s.compiling := by
  rw [enqueue_eq]

@[simp] theorem enqueue_settings (s : Scheduler) (path : Text) :
    (s.enqueue path).settings = s.settings := by
  rw [enqueue_eq]

/-- Takes a file out of the next batch and queues its removal. -/
def enqueueRemoval (s : Scheduler) (path : Text) : Scheduler :=
  { s with pending := s.pending.erase path, removals := s.removals ++ [path] }

@[simp] theorem enqueueRemoval_pending (s : Scheduler) (path : Text) :
    (s.enqueueRemoval path).pending = s.pending.erase path := rfl

@[simp] theorem enqueueRemoval_removals (s : Scheduler) (path : Text) :
    (s.enqueueRemoval path).removals = s.removals ++ [path] := rfl

@[simp] theorem enqueueRemoval_deadline (s : Scheduler) (path : Text) :
    (s.enqueueRemoval path).deadline = s.deadline := rfl

@[simp] theorem enqueueRemoval_compiling (s : Scheduler) (path : Text) :
    (s.enqueueRemoval path).compiling = s.compiling := rfl

@[simp] theorem enqueueRemoval_settings (s : Scheduler) (path : Text) :
    (s.enqueueRemoval path).settings = s.settings := rfl

/-- The delay in milliseconds that the next batch deserves. -/
def delay (s : Scheduler) : Int := s.settings.delay s.pending.length

/-- Sets the deadline of the next batch. -/
def arm (s : Scheduler) (now : Float) : Except ArithmeticError Scheduler := do
  return { s with deadline := some (now + (← thousandths s.delay)) }

/-- Whether the deadline of a batch has passed and the batch may be taken. -/
def isDue (s : Scheduler) (now : Float) : Bool :=
  !s.compiling &&
    match s.deadline with
    | none => false
    | some deadline => !(now < deadline)

/-- Takes the next batch if it is due; an empty batch only loses its deadline. -/
def takeDueBatch (s : Scheduler) (now : Float) : Option (List Text) × Scheduler :=
  if s.isDue now then
    let rest := { s with pending := [], deadline := none }
    if s.pending.isEmpty then (none, rest) else (some s.pending, { rest with compiling := true })
  else (none, s)

theorem isDue_iff {s : Scheduler} {now : Float} :
    s.isDue now = true ↔
      s.compiling = false ∧ ∃ deadline, s.deadline = some deadline ∧ ¬now < deadline := by
  cases h : s.deadline <;> simp [isDue, h]

theorem isDue_of_compiling {s : Scheduler} (h : s.compiling = true) (now : Float) :
    s.isDue now = false := by
  simp [isDue, h]

theorem takeDueBatch_eq_some_iff {s s' : Scheduler} {now : Float} {files : List Text} :
    s.takeDueBatch now = (some files, s') ↔ s.isDue now = true ∧ s.pending = files ∧ files ≠ [] ∧
      s' = { s with pending := [], deadline := none, compiling := true } := by
  unfold takeDueBatch
  by_cases hdue : s.isDue now
  · by_cases hempty : s.pending = [] <;> simp [hdue, hempty] <;> grind
  · simp [hdue]

theorem takeDueBatch_eq_none_iff {s s' : Scheduler} {now : Float} :
    s.takeDueBatch now = (none, s') ↔ (s.isDue now = false ∧ s' = s) ∨
      (s.isDue now = true ∧ s.pending = [] ∧ s' = { s with deadline := none }) := by
  unfold takeDueBatch
  by_cases hdue : s.isDue now
  · by_cases hempty : s.pending = []
    · simp [hdue, hempty, eq_comm]
    · simp [hdue, hempty]
  · simp [hdue, eq_comm]

/-- Where no batch is taken, at most the deadline changes. -/
theorem eq_of_takeDueBatch_eq_none {s s' : Scheduler} {now : Float}
    (h : s.takeDueBatch now = (none, s')) : ∃ deadline, s' = { s with deadline := deadline } := by
  rcases takeDueBatch_eq_none_iff.mp h with ⟨-, hs⟩ | ⟨-, -, hs⟩
  · exact ⟨s.deadline, hs⟩
  · exact ⟨none, hs⟩

/-- Takes all queued removals. -/
def takeRemovals (s : Scheduler) : List Text × Scheduler :=
  (s.removals, { s with removals := [] })

/-- How long the owner of the scheduler may sleep: until the deadline, and never longer than `idle`
seconds. -/
def timeout (s : Scheduler) (now idle : Float) : Float :=
  match s.deadline with
  | none => idle
  | some deadline =>
    let left := deadline - now
    let left := if 0.0 < left then left else 0.0
    if left < idle then left else idle

end Scheduler

end UtilityCss
