import UtilityCss.Scheduler.Session
/-!
# Rehearsals

A rehearsal is a processor that compiles nothing and follows a script instead. The script says for
each pass and each rebuild whether it fails and which actions are taken while it is running; those
may be steps of the same scheduler again. It keeps a record of all calls, so that a session with a
rehearsal shows what the scheduler asks for, and when.
-/

namespace UtilityCss

open Binary64

/-- What is done to a session from outside. -/
inductive Action where
  | change (path : Text)
  | remove (path : Text)
  /-- Lets the clock run on by some milliseconds. -/
  | advance (milliseconds : Float)
  | step
  | runBatch (files : List Text)
  /-- Ends a wait early, which nobody notices between waits. -/
  | wake
  | serve (rounds : List (List Action)) (idle : Float)

/-- How a pass or a rebuild goes. -/
structure Scene where
  /-- The text of the failure, if it fails. -/
  fails : Option Text
  /-- The number of generated rules, which otherwise is the number of files. -/
  ruleCount : Option Nat
  /-- What is done while it is running. -/
  during : List Action

/-- A pass or a rebuild of which the script says nothing. -/
def Scene.plain : Scene := ⟨none, none, []⟩

/-- What a scene gives for a number of files. -/
def Scene.result (scene : Scene) (files : Nat) : Except Failure RebuildResult :=
  match scene.fails with
  | some text => .error (.disk (.fault .os text))
  | none => .ok ⟨files, scene.ruleCount.getD files, 0, [], []⟩

/-- What the scheduler returns for an action. -/
inductive Answer where
  | nothing
  /-- The delay of the batch in milliseconds. -/
  | delay (milliseconds : Int)
  | clock (now : Float)
  | outcome (o : Option PassOutcome)
  | waits (timeouts : List Float)

/-- What the scheduler returns for an action, and how it stands afterwards. -/
structure Reply where
  answer : Except Failure Answer
  state : SchedulerState
  pending : List Text
  deadline : Option Float

/-- A call of the processor. -/
inductive Call where
  | runPass (files : List Text) (replies : List Reply)
  | forget (path : Text) (tracked : Bool)
  | rebuild (replies : List Reply)

/-- The rest of the script, the files that are tracked, and the record of the calls. -/
structure Rehearsal where
  passes : List Scene
  rebuilds : List Scene
  tracked : List Text
  calls : List Call

namespace Rehearsal

/-- How many scenes are left. -/
def scenesLeft (r : Rehearsal) : Nat := r.passes.length + r.rebuilds.length

/-- Plays a scene: takes its actions and records the call, followed by the calls that they lead
to. -/
def playScene (play : List Action → Session Rehearsal → List Reply × Session Rehearsal)
    (scene : Scene) (call : List Reply → Call) (s : Session Rehearsal) : Session Rehearsal :=
  let before := s.work.calls
  let (replies, s) := play scene.during { s with work := { s.work with calls := [] } }
  { s with work := { s.work with calls := before ++ call replies :: s.work.calls } }

/-- Plays the next scene for passes. A pass that succeeds tracks its files. -/
def runPass (play : List Action → Session Rehearsal → List Reply × Session Rehearsal)
    (files : List Text) (s : Session Rehearsal) :
    Except Failure RebuildResult × Session Rehearsal :=
  let scene := s.work.passes.headD .plain
  let s := { s with work := { s.work with passes := s.work.passes.tail } }
  let s := playScene play scene (.runPass files) s
  match scene.result files.length with
  | .error e => (.error e, s)
  | .ok result =>
    (.ok result, { s with work := { s.work with tracked := (s.work.tracked ++ files).eraseDups } })

/-- Plays the next scene for rebuilds. -/
def rebuild (play : List Action → Session Rehearsal → List Reply × Session Rehearsal)
    (s : Session Rehearsal) : Except Failure RebuildResult × Session Rehearsal :=
  let scene := s.work.rebuilds.headD .plain
  let s := { s with work := { s.work with rebuilds := s.work.rebuilds.tail } }
  (scene.result 0, playScene play scene .rebuild s)

/-- Stops tracking a file. -/
def forget (path : Text) (s : Session Rehearsal) : Bool × Session Rehearsal :=
  let was := s.work.tracked.contains path
  let tracked := s.work.tracked.filter (· != path)
  (was, { s with work := { s.work with
    tracked := tracked, calls := s.work.calls ++ [.forget path was] } })

/-- The processor that takes the actions of a scene by `play`. -/
def processorOf (play : List Action → Session Rehearsal → List Reply × Session Rehearsal) :
    Processor Rehearsal where
  runPass := runPass play
  forget := forget
  rebuild := rebuild play
  activity s := s.work.scenesLeft

/-- The reply to an action. -/
def reply (answer : Except Failure Answer) (s : Session Rehearsal) :
    Reply × Session Rehearsal :=
  (⟨answer, s.scheduler.state, s.scheduler.pending, s.scheduler.deadline⟩, s)

mutual

/-- Takes an action. -/
def act (p : Processor Rehearsal) : Action → Session Rehearsal → Reply × Session Rehearsal
  | .change path, s =>
    let (delay, s) := s.fileChanged path
    reply ((delay.map .delay).mapError .arithmetic) s
  | .remove path, s => reply (.ok .nothing) (s.fileRemoved path)
  | .advance milliseconds, s =>
    let s := s.advance (milliseconds / 1000.0)
    reply (.ok (.clock s.now)) s
  | .step, s =>
    let (outcome, s) := s.step p
    reply ((outcome.map .outcome).mapError .arithmetic) s
  | .runBatch files, s =>
    let (outcome, s) := s.runBatch p files
    reply ((outcome.map fun o => .outcome (some o)).mapError .arithmetic) s
  | .wake, s => reply (.ok .nothing) s
  | .serve rounds idle, s =>
    let (waits, s) := s.serve p (fun _ => false) idle (roundsOf p rounds)
    reply (waits.map .waits) s

/-- Takes actions one after the other. -/
def actAll (p : Processor Rehearsal) :
    List Action → Session Rehearsal → List Reply × Session Rehearsal
  | [], s => ([], s)
  | action :: actions, s =>
    let (r, s) := act p action s
    let (rs, s) := actAll p actions s
    (r :: rs, s)

/-- Takes actions up to the first that fails. -/
def actUntilFailure (p : Processor Rehearsal) :
    List Action → Session Rehearsal → Except Failure Unit × Session Rehearsal
  | [], s => (.ok ⟨⟩, s)
  | action :: actions, s =>
    let (r, s) := act p action s
    match r.answer with
    | .error e => (.error e, s)
    | .ok _ => actUntilFailure p actions s

/-- Rounds of actions, whose replies are dropped. An action that fails breaks the serving off. -/
def roundsOf (p : Processor Rehearsal) : List (List Action) → List (Session.Round Rehearsal)
  | [] => []
  | round :: rounds => actUntilFailure p round :: roundsOf p rounds

end

/-- The processor that plays scenes within scenes up to a depth. -/
def processor : (depth : Nat) → Processor Rehearsal
  | 0 => processorOf fun _ s => ([], s)
  | depth + 1 => processorOf (actAll (processor depth))

/-- Takes an action from outside all scenes. Each scene is played once, so scenes cannot be nested
deeper than their number. -/
def perform (action : Action) (s : Session Rehearsal) : Reply × Session Rehearsal :=
  act (processor s.work.scenesLeft) action s

end Rehearsal

end UtilityCss
