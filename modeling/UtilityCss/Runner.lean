import UtilityCss.Config.Settings
import UtilityCss.Pipeline
import UtilityCss.Scheduler.Session
import UtilityCss.Watch.Watcher
/-!
# The runner

A runner puts the pipeline, the scheduler and the watcher of a configuration together. What the
watcher sees is dispatched to the scheduler, and the scheduler drives the pipeline. A build without
watching scans all matching files at once.
-/

namespace UtilityCss

open Binary64

/-- What a session works with when it follows a configuration. -/
structure Runner where
  pipeline : Pipeline
  disk : Disk
  /-- The file that the journal is written to, if there is one. -/
  log : Option LogFile
  watcher : Watcher
  /-- The watched patterns as the configuration has them. -/
  patterns : List Text
  /-- The time between polls in seconds. -/
  pollInterval : Float
  /-- Whether watching was started. -/
  watching : Bool
  /-- Whether the runner was told to stop. -/
  stopped : Bool

namespace Runner

/-- How long the scheduler waits in seconds while nothing is due. -/
def idleWait : Float := 0.5

/-- A session that follows a configuration, unless a watched pattern is refused. -/
def start (c : Config) (d : Disk) : Except Failure (Session Runner) := do
  let watchList ← WatchList.ofPatterns c.watchPatterns c.root true
  return .new (.new c.batchSettings c.retryPolicy) {
    pipeline := .new c.vocabulary c.outputSettings c.existingCssPaths c.ignoreExistingClasses
      c.scanWorkers
    disk := d
    log := none
    watcher := .new watchList
    patterns := c.watchPatterns
    pollInterval := c.pollInterval
    watching := false
    stopped := false }

/-- Lets a session write its journal to a file, from the next entry on. -/
def logTo (f : LogFile) (s : Session Runner) : Session Runner :=
  { s with work := { s.work with log := some { f with written := s.journal.length } } }

/-- The workbench of a session: its disk, its journal and its log file. -/
def bench (s : Session Runner) : Workbench := ⟨s.work.disk, s.journal, s.work.log⟩

/-- Puts a workbench into a session. -/
def withBench (s : Session Runner) (b : Workbench) : Session Runner :=
  { s with journal := b.journal, work := { s.work with disk := b.disk, log := b.log } }

/-- Brings the log file up to date. -/
def settle (s : Session Runner) : Session Runner := withBench s (bench s).settle

/-- Works in the workshop of a session: with its pipeline at its workbench. -/
def inWorkshop {α : Type} (f : Workshop → α × Workshop) (s : Session Runner) : α × Session Runner :=
  let (a, w) := f { bench s with pipeline := s.work.pipeline }
  let s := withBench s w.toWorkbench
  (a, { s with work := { s.work with pipeline := w.pipeline } })

/-- The processor that compiles with the pipeline. No events arrive while it works. -/
def processor : Processor Runner where
  runPass files := inWorkshop (·.runPass files)
  forget path := inWorkshop (·.forget path)
  rebuild := inWorkshop (·.rebuild)
  activity _ := 0

/-- Reports a message that is no event. -/
def report (s : Session Runner) (level : Level) (message : Text) : Session Runner :=
  s.record (.line ⟨level, message⟩)

/-- Hands what the watcher has seen to the scheduler. -/
def dispatch (e : WatchEvent) (s : Session Runner) : Except ArithmeticError Unit × Session Runner :=
  let queue (s : Session Runner) : Except ArithmeticError Unit × Session Runner :=
    let (delay, s) := s.fileChanged e.path
    (delay.map fun _ => ⟨⟩, s)
  match e.kind with
  | .added => queue (report s .info ("File added: " ++ e.path))
  | .changed => queue (report s .info ("File changed: " ++ e.path))
  | .removed => (.ok ⟨⟩, (report s .info ("File removed: " ++ e.path)).fileRemoved e.path)
  | .error => (.ok ⟨⟩, s.emit (.watchError (if e.message.isEmpty then e.path else e.message)))

/-- Polls the disk. -/
def poll (s : Session Runner) : Except Failure (List WatchEvent) × Session Runner :=
  let s := settle s
  let (r, watcher) := s.work.watcher.poll s.work.disk
  (r, { s with work := { s.work with watcher := watcher } })

/-- Hands events to the scheduler up to the first failure. -/
def dispatchAll : List WatchEvent → Session Runner → Except ArithmeticError Unit × Session Runner
  | [], s => (.ok ⟨⟩, s)
  | e :: es, s =>
    match dispatch e s with
    | (.error overflow, s) => (.error overflow, s)
    | (.ok _, s) => dispatchAll es s

/-- Polls the disk and hands all events to the scheduler. -/
def drain (s : Session Runner) : Except Failure (List WatchEvent) × Session Runner :=
  match poll s with
  | (.error e, s) => (.error e, s)
  | (.ok events, s) =>
    match dispatchAll events s with
    | (.error overflow, s) => (.error (.arithmetic overflow), s)
    | (.ok _, s) => (.ok events, s)

/-- Takes a step of the scheduler. -/
def step (s : Session Runner) : Except ArithmeticError (Option PassOutcome) × Session Runner :=
  s.step processor

/-- Scans all matching files and writes the stylesheets, without waiting for anything. -/
def buildOnce (s : Session Runner) : Except Failure PassOutcome × Session Runner :=
  let s := settle s
  let (found, problems) := s.work.watcher.watchList.matchingFiles s.work.disk
  let s := problems.foldl (fun s message => report s .error message) s
  match found with
  | .error e => (.error e, s)
  | .ok files =>
    let (outcome, s) := s.runBatch processor (files.map Path.text)
    (outcome.mapError .arithmetic, s)

/-- The patrol that hands events to the scheduler. -/
def patrol : Patrol (Session Runner) where
  poll := poll
  handle e s :=
    match dispatch e s with
    | (.ok _, s) => (true, s)
    | (.error _, s) => (false, s)
  report line s := s.record (.line line)

/-- The line that tells what is watched. -/
def watchingLine (patterns : List Text) : LogLine :=
  ⟨.info, "Started watching files in: " ++ Text.intercalate ", " patterns⟩

/-- Starts watching with a first round, unless watching was started before. -/
def startWatching (s : Session Runner) : Except Failure Unit × Session Runner :=
  if s.work.watching then (.ok ⟨⟩, s)
  else
    match patrol.run s.work.pollInterval [] { s with work := { s.work with watching := true } } with
    | (.error e, s) => (.error e, s)
    | (.ok _, s) =>
      (.ok ⟨⟩, s.record (.line (watchingLine s.work.patterns)))

/-- Watches and compiles until the rounds of simulated time are used up or the runner is stopped.
The answer is the time of every wait. -/
def run (rounds : List (Session.Round Runner)) (s : Session Runner) :
    Except Failure (List Float) × Session Runner :=
  match startWatching { s with work := { s.work with stopped := false } } with
  | (.error e, s) => (.error e, s)
  | (.ok _, s) => s.serve processor Runner.stopped idleWait rounds

/-- Stops watching. -/
def stop (s : Session Runner) : Session Runner :=
  { s with work := { s.work with watching := false, stopped := true } }

end Runner

end UtilityCss
