import UtilityCss.Scheduler.Session
/-!
# Chronicles

A chronicle is a processor that writes down what happens to its scheduler. Whatever else the
processor does is left open: each of its calls, and each sleep before a retry, is a visit, and the
list of visits says what is done to the scheduler during the call, before and after the processor's
own work, and whether that work succeeds. So a statement about all lists of visits is a statement
about all processors that touch the scheduler only through its events, its clock and its steps.

The history of a chronicle is a list of moments, the latest first. Every change of the scheduler or
of the clock is followed by a moment that shows both as they are then. What a history says about the
steps that are running, about the files that are tracked and about the queues is read off by the
functions of this module and of the modules behind it.
-/

namespace UtilityCss

/-! ## Deeds and visits -/

/-- What is done to a scheduler from outside. -/
inductive Deed where
  | change (path : Text)
  | remove (path : Text)
  /-- Lets the clock run on. -/
  | advance (seconds : Float)
  | step

/-- What is done during a call of the processor or a sleep, before and after its own work, and how
that work ends if it is a pass or a rebuild. -/
structure Visit where
  before : List Deed
  result : Except Failure RebuildResult
  after : List Deed

/-- A visit during which nothing is done. -/
def Visit.plain : Visit := ⟨[], .ok ⟨0, 0, 0, [], []⟩, []⟩

/-! ## Histories -/

/-- What has just happened. -/
inductive Happening where
  /-- A file was added or has changed. -/
  | changed (path : Text)
  /-- A file was removed. -/
  | removed (path : Text)
  | advanced
  | slept
  /-- A step is about to take the queued removals. -/
  | stepBegan
  /-- The processor was called to forget a file. -/
  | forgetBegan (path : Text)
  /-- The processor has forgotten a file, and the call goes on. -/
  | forgot (path : Text)
  /-- A step has taken a batch, since it calls the processor for its first pass. -/
  | taken (files : List Text)
  /-- The processor was called for a pass. -/
  | passBegan (files : List Text)
  /-- The processor has compiled the files or has failed to, and the call goes on. -/
  | compiled (files : List Text) (succeeded : Bool)
  | passEnded (files : List Text) (succeeded : Bool)
  /-- A step has returned or was broken off by an error, after it had taken this batch. -/
  | stepEnded (batch : Option (List Text)) (raised : Bool)
  deriving DecidableEq

/-- Something that has happened, with the scheduler and the clock right after it. -/
structure Moment where
  happening : Happening
  scheduler : Scheduler
  now : Float

/-- How far a running step is. -/
inductive Stage where
  /-- It has these removals left to handle. -/
  | handling (held : List Text)
  /-- It is about to forget a path, with these removals left. -/
  | forgetting (path : Text) (held : List Text)
  /-- It has taken a batch. -/
  | taken (files : List Text)
  /-- It is inside a pass that has yet to compile the files. -/
  | passing (files : List Text)
  /-- It is inside a pass that has compiled the files or failed to. -/
  | passed (files : List Text) (succeeded : Bool)
  /-- The pass has ended. -/
  | returned (files : List Text) (succeeded : Bool)
  deriving DecidableEq

namespace Stage

/-- The removals that the step has taken and the processor was not called for. -/
def held : Stage → List Text
  | handling held | forgetting _ held => held
  | _ => []

/-- The batch that the step has taken. -/
def batch : Stage → Option (List Text)
  | handling _ | forgetting _ _ => none
  | taken files | passing files | passed files _ | returned files _ => some files

/-- Whether a pass of the step is active. -/
def isActive : Stage → Bool
  | passing _ | passed _ _ => true
  | _ => false

@[simp] theorem held_eq :
    (∀ paths, (handling paths).held = paths) ∧
      (∀ path paths, (forgetting path paths).held = paths) ∧
      (∀ files, (taken files).held = []) ∧ (∀ files, (passing files).held = []) ∧
      (∀ files ok, (passed files ok).held = []) ∧ (∀ files ok, (returned files ok).held = []) :=
  ⟨fun _ => rfl, fun _ _ => rfl, fun _ => rfl, fun _ => rfl, fun _ _ => rfl, fun _ _ => rfl⟩

@[simp] theorem batch_eq :
    (∀ paths, (handling paths).batch = none) ∧
      (∀ path paths, (forgetting path paths).batch = none) ∧
      (∀ files, (taken files).batch = some files) ∧ (∀ files, (passing files).batch = some files) ∧
      (∀ files ok, (passed files ok).batch = some files) ∧
      (∀ files ok, (returned files ok).batch = some files) :=
  ⟨fun _ => rfl, fun _ _ => rfl, fun _ => rfl, fun _ => rfl, fun _ _ => rfl, fun _ _ => rfl⟩

@[simp] theorem isActive_eq :
    (∀ paths, (handling paths).isActive = false) ∧
      (∀ path paths, (forgetting path paths).isActive = false) ∧
      (∀ files, (taken files).isActive = false) ∧ (∀ files, (passing files).isActive = true) ∧
      (∀ files ok, (passed files ok).isActive = true) ∧
      (∀ files ok, (returned files ok).isActive = false) :=
  ⟨fun _ => rfl, fun _ _ => rfl, fun _ => rfl, fun _ => rfl, fun _ _ => rfl, fun _ _ => rfl⟩

end Stage

/-- The coming visits, the files that are tracked, and what has happened, the latest first. -/
structure Chronicle where
  visits : List Visit
  tracked : List Text
  history : List Moment

namespace Chronicle

/-- The running steps, the innermost first. -/
def stages : List Moment → List Stage
  | [] => []
  | m :: h =>
    match m.happening, stages h with
    | .stepBegan, running => .handling m.scheduler.removals :: running
    | .forgetBegan path, stage :: outer => .forgetting path stage.held.tail :: outer
    | .forgot _, stage :: outer => .handling stage.held :: outer
    | .taken files, _ :: outer => .taken files :: outer
    | .passBegan files, _ :: outer => .passing files :: outer
    | .compiled files succeeded, _ :: outer => .passed files succeeded :: outer
    | .passEnded files succeeded, _ :: outer => .returned files succeeded :: outer
    | .stepEnded _ _, _ :: outer => outer
    | _, running => running

/-- The batch that the innermost running step has taken. -/
def batch (h : List Moment) : Option (List Text) := (stages h).head?.bind Stage.batch

/-- The moment at a place of a history, with what came after it and before it. -/
theorem exists_split {h : List Moment} (i : Nat) (test : Moment → Bool)
    (htest : h[i]?.any test = true) :
    ∃ m, test m = true ∧ h = h.take i ++ m :: h.drop (i + 1) := by
  obtain ⟨m, hm, hok⟩ := Option.any_eq_true _ _ |>.mp htest
  obtain ⟨hi, rfl⟩ := List.getElem?_eq_some_iff.mp hm
  exact ⟨_, hok, by rw [List.getElem_cons_drop, List.take_append_drop]⟩

/-! ## The processor -/

/-- Writes down what has happened. -/
def note (happening : Happening) (s : Session Chronicle) : Session Chronicle :=
  { s with work := { s.work with history := ⟨happening, s.scheduler, s.now⟩ :: s.work.history } }

/-- Does the work of a call, and the deeds of its visit by `play`. -/
def attend {α : Type} (play : List Deed → Session Chronicle → Session Chronicle)
    (work : Visit → Session Chronicle → α × Session Chronicle) (s : Session Chronicle) :
    α × Session Chronicle :=
  let visit := s.work.visits.headD .plain
  let s := { s with work := { s.work with visits := s.work.visits.tail } }
  let (answer, s) := work visit (play visit.before s)
  (answer, play visit.after s)

/-- Compiles files: tracks them if it succeeds. -/
def compile (files : List Text) (visit : Visit) (s : Session Chronicle) :
    Except Failure RebuildResult × Session Chronicle :=
  let s := if visit.result.isOk then
    { s with work := { s.work with tracked := s.work.tracked ++ files } } else s
  (visit.result, note (.compiled files visit.result.isOk) s)

/-- Forgets a file. The answer is whether it was tracked. -/
def untrack (path : Text) (_ : Visit) (s : Session Chronicle) : Bool × Session Chronicle :=
  let tracked := s.work.tracked.filter (· != path)
  (s.work.tracked.contains path,
    note (.forgot path) { s with work := { s.work with tracked := tracked } })

/-- A pass. The first pass of a step shows that the step has taken a batch. -/
def runPass (play : List Deed → Session Chronicle → Session Chronicle) (files : List Text)
    (s : Session Chronicle) : Except Failure RebuildResult × Session Chronicle :=
  let s := if (batch s.work.history).isNone then note (.taken files) s else s
  let (result, s) := attend play (compile files) (note (.passBegan files) s)
  (result, note (.passEnded files result.isOk) s)

/-- The processor that does the deeds of a visit by `play`. -/
def processorOf (play : List Deed → Session Chronicle → Session Chronicle) :
    Processor Chronicle where
  runPass := runPass play
  forget path s := attend play (untrack path) (note (.forgetBegan path) s)
  rebuild := attend play fun visit s => (visit.result, s)
  sleep seconds s := (attend play (fun _ s => ((), note .slept (s.sleep seconds))) s).2
  activity s := s.work.visits.length

/-! ## Runs -/

/-- Does a deed other than a step. -/
def arrive (s : Session Chronicle) : Deed → Session Chronicle
  | .change path => note (.changed path) (s.fileChanged path).2
  | .remove path => note (.removed path) (s.fileRemoved path)
  | .advance seconds => note .advanced (s.advance seconds)
  | .step => s

/-- Does a deed. -/
def perform (p : Processor Chronicle) (s : Session Chronicle) : Deed → Session Chronicle
  | .step =>
    let (outcome, s) := (note .stepBegan s).step p
    note (.stepEnded (batch s.work.history) !outcome.isOk) s
  | deed => arrive s deed

/-- Does deeds one after the other. Steps within steps are taken up to the depth: with depth one, a
step is taken only while no step is running. -/
def run : (depth : Nat) → List Deed → Session Chronicle → Session Chronicle
  | 0, deeds, s => deeds.foldl arrive s
  | depth + 1, deeds, s => deeds.foldl (perform (processorOf (run depth))) s

/-- A session in which nothing has happened. -/
def start (settings : BatchSettings) (policy : RetryPolicy) (visits : List Visit) :
    Session Chronicle :=
  .new (.new settings policy) ⟨visits, [], []⟩

end Chronicle

end UtilityCss
