import UtilityCss.Decimal.Written
import UtilityCss.Text.Basic
/-!
# The journal

What is reported while the program works: lifecycle events, their listeners, and the log.
-/

namespace UtilityCss

/-! ## Lifecycle events

What the scheduler, the pipeline and the watcher report while they work. A pass is an attempt to
scan a batch of files and to write the stylesheets; a removal is the rebuilding after a file was
deleted. -/

/-- The events in the life of a batch. -/
inductive Event where
  /-- A file was added to the batch, which now waits for the delay in milliseconds. -/
  | batchScheduled (pending delay : Int)
  | passStarted (files attempt : Int) (removal : Bool)
  | fileScanned (path : Text) (classes : Int)
  | passCompleted (files retries rules : Int) (removal : Bool)
  /-- An attempt has failed and another one follows after the delay in seconds. -/
  | passRetrying (files attempt maxRetries : Int) (delay : Float) (error : Text) (removal : Bool)
  | passFailed (files attempts : Int) (error : Text) (removal : Bool)
  | fileRemoved (path : Text) (tracked : Bool)
  | stylesheetWritten (path : Text) (rules : Int)
  | stylesheetUnchanged (path : Text)
  | watchError (message : Text)

/-- The kinds of events that a listener may subscribe to. -/
inductive EventKind where
  | batchScheduled
  | passStarted
  | fileScanned
  | passCompleted
  | passRetrying
  | passFailed
  | fileRemoved
  | stylesheetWritten
  | stylesheetUnchanged
  | watchError
  deriving DecidableEq, Repr

/-- All kinds of events. -/
def EventKind.all : List EventKind :=
  [.batchScheduled, .passStarted, .fileScanned, .passCompleted, .passRetrying, .passFailed,
    .fileRemoved, .stylesheetWritten, .stylesheetUnchanged, .watchError]

/-- The name of a kind. -/
def EventKind.name : EventKind → Text
  | .batchScheduled => "BatchScheduled"
  | .passStarted => "PassStarted"
  | .fileScanned => "FileScanned"
  | .passCompleted => "PassCompleted"
  | .passRetrying => "PassRetrying"
  | .passFailed => "PassFailed"
  | .fileRemoved => "FileRemoved"
  | .stylesheetWritten => "StylesheetWritten"
  | .stylesheetUnchanged => "StylesheetUnchanged"
  | .watchError => "WatchError"

/-- The kind of an event. -/
def Event.kind : Event → EventKind
  | .batchScheduled .. => .batchScheduled
  | .passStarted .. => .passStarted
  | .fileScanned .. => .fileScanned
  | .passCompleted .. => .passCompleted
  | .passRetrying .. => .passRetrying
  | .passFailed .. => .passFailed
  | .fileRemoved .. => .fileRemoved
  | .stylesheetWritten .. => .stylesheetWritten
  | .stylesheetUnchanged .. => .stylesheetUnchanged
  | .watchError .. => .watchError

/-! ## The event bus

Listeners are called for every event or for the events of one kind. Those for every event come
first, and within each group the order is that of registration. Who is called is settled when the
event is emitted, so a listener that is registered during the calls waits for the next event. A
listener that fails ends the calls. -/

/-- A listener that may fail, and may register another one when it is first called. One that fails
registers nobody. -/
inductive Listener where
  /-- `kind` is `none` for a listener to every event. -/
  | make (id : Text) (kind : Option EventKind) (fails : Bool) (successor : Option Listener)

namespace Listener

/-- The name of the listener. -/
def id : Listener → Text
  | make id _ _ _ => id

/-- The kind of events that it listens to. -/
def kind : Listener → Option EventKind
  | make _ kind _ _ => kind

/-- Whether it fails when it is called. -/
def fails : Listener → Bool
  | make _ _ fails _ => fails

/-- The listener that it registers on its next call. -/
def successor : Listener → Option Listener
  | make _ _ _ successor => successor

/-- The listener after its first call, when it registers nobody any more. -/
def called : Listener → Listener
  | make id kind fails _ => make id kind fails none

end Listener

/-- The listeners in the order of their registration. -/
structure EventBus where
  listeners : List Listener

namespace EventBus

/-- A bus without listeners. -/
def empty : EventBus := ⟨[]⟩

/-- Registers a listener. -/
def register (b : EventBus) (l : Listener) : EventBus := ⟨b.listeners ++ [l]⟩

/-- The places of the listeners that an event of a kind calls, in the order of the calls. -/
def audience (b : EventBus) (k : EventKind) : List Nat :=
  let places (p : Option EventKind → Bool) :=
    (b.listeners.zipIdx.filter fun (l, _) => p l.kind).map Prod.snd
  places (· == none) ++ places (· == some k)

/-- What came of emitting an event. -/
structure Emission where
  /-- The listeners that were called. -/
  called : List Text
  /-- The listener that failed. -/
  failed : Option Text
  bus : EventBus

/-- Calls the listeners at the given places until one fails. -/
def callAll (b : EventBus) : List Nat → Emission
  | [] => ⟨[], none, b⟩
  | place :: places =>
    match b.listeners[place]? with
    | none => b.callAll places
    | some l =>
      if l.fails then ⟨[l.id], some l.id, b⟩
      else
        let b : EventBus := ⟨b.listeners.set place l.called ++ l.successor.toList⟩
        let rest := b.callAll places
        { rest with called := l.id :: rest.called }

/-- Calls the listeners of an event. -/
def emit (b : EventBus) (e : Event) : Emission := b.callAll (b.audience e.kind)

end EventBus

/-! ## The journal

A journal is the list of everything that was reported: events, and messages that are no events. Read
as a log, every event has one line with a level of its own: retries are warnings, a batch that is
given up and a watcher error are errors. -/

/-- How important a message is. -/
inductive Level where
  | debug
  | info
  | warning
  | error
  deriving DecidableEq, Repr

/-- The name of a level. -/
def Level.name : Level → Text
  | .debug => "DEBUG"
  | .info => "INFO"
  | .warning => "WARNING"
  | .error => "ERROR"

/-- Whether messages of the level are left out unless details are asked for. -/
def Level.isDetail (l : Level) : Bool := l == .debug

/-- A message with its level. -/
structure LogLine where
  level : Level
  message : Text
  deriving DecidableEq, Repr

/-- A line of a log. -/
def LogLine.text (l : LogLine) (time : Text) : Text :=
  "[" ++ l.level.name ++ "] " ++ time ++ " - " ++ l.message ++ "\n"

/-- What was being tried, in messages about retries. -/
def attemptName (removal : Bool) : Text :=
  if removal then "Rebuild after removal" else "Batch processing"

/-- The line of an event in a log. -/
def Event.logLine : Event → LogLine
  | .batchScheduled pending delay =>
    ⟨.info, s!"Added to batch, current size: {pending}, delay: {delay}ms"⟩
  | .passStarted files attempt removal =>
    ⟨.debug, if removal then s!"Rebuilding after file removal (attempt {attempt})"
      else s!"Compiling batch of {files} files (attempt {attempt})"⟩
  | .fileScanned path classes =>
    ⟨.info, "Processed file: " ++ path ++ s!", found {classes} classes"⟩
  | .passCompleted files retries rules removal =>
    ⟨.info, if removal then s!"Rebuilt after file removal with {retries} retries, {rules} rules"
      else s!"Batch processed {files} files with {retries} retries, {rules} rules"⟩
  | .passRetrying _ attempt maxRetries delay error removal =>
    ⟨.warning, attemptName removal ++ " failed: " ++ error ++
      s!"; retrying ({attempt}/{maxRetries}) in {Decimal.fixedText 2 delay}s"⟩
  | .passFailed files attempts error removal =>
    ⟨.error,
      if removal then
        s!"Rebuild after removal failed after {attempts} attempts, giving up: " ++ error
      else s!"Batch of {files} files failed after {attempts} attempts, giving up: " ++ error⟩
  | .fileRemoved path tracked =>
    if tracked then ⟨.info, "File deleted: " ++ path ++ ", removed its classes from tracking"⟩
    else ⟨.warning, "Deleted file " ++ path ++ " was not tracked"⟩
  | .stylesheetWritten path rules =>
    ⟨.info, "Updated CSS file: " ++ path ++ s!", {rules} rules written"⟩
  | .stylesheetUnchanged path => ⟨.info, "No changes detected in CSS file: " ++ path⟩
  | .watchError message => ⟨.error, "Watcher error: " ++ message⟩

/-- Something that was reported. -/
inductive JournalEntry where
  | event (e : Event)
  | line (l : LogLine)

/-- Everything that was reported, the earliest first. -/
abbrev Journal := List JournalEntry

namespace Journal

/-- The events of a journal. -/
def events (j : Journal) : List Event :=
  j.filterMap fun
    | .event e => some e
    | .line _ => none

/-- The journal as a log. -/
def logLines (j : Journal) : List LogLine :=
  j.map fun
    | .event e => e.logLine
    | .line l => l

/-- The lines of a log that are shown, with details or without. -/
def shown (j : Journal) (verbose : Bool) : List LogLine :=
  j.logLines.filter fun l => verbose || !l.level.isDetail

end Journal

end UtilityCss
