import UtilityCss.Journal
import UtilityCss.Pass
import UtilityCss.Text.Basic
import UtilityCss.Watch.Braces
/-!
# Watching files

A watcher looks at the files that its patterns match at one time after the other, and tells what has
become different.
-/

namespace UtilityCss

/-! ## Watch events

What a watcher tells about the files that it watches. -/

/-- The kinds of watch events. -/
inductive WatchKind where
  | added
  | changed
  | removed
  | error
  deriving DecidableEq, Repr

/-- The name of a kind. -/
def WatchKind.name : WatchKind → Text
  | .added => "added"
  | .changed => "changed"
  | .removed => "removed"
  | .error => "error"

/-- A file that was added, has changed or was removed, or an error about a path or a pattern. -/
structure WatchEvent where
  kind : WatchKind
  path : Text
  message : Text
  deriving DecidableEq, Repr

namespace WatchEvent

/-- A file that was not known before. -/
def added (path : Text) : WatchEvent := ⟨.added, path, ""⟩

/-- A known file with a new time of modification. -/
def changed (path : Text) : WatchEvent := ⟨.changed, path, ""⟩

/-- A known file that is there no more. -/
def removed (path : Text) : WatchEvent := ⟨.removed, path, ""⟩

/-- An error about a path or a pattern. -/
def error (path message : Text) : WatchEvent := ⟨.error, path, message⟩

end WatchEvent

/-! ## Surveys of the watched files

A survey is what a watcher finds on the disk at one time: for each pattern the files that match it,
each with its time of modification. Listing a pattern or looking at a file may fail; most failures
only concern that pattern or that file, and some end the survey. -/

/-- What was found out about the time of modification of a file. -/
inductive Sighting where
  | modified (time : Int)
  /-- The file is there no more. -/
  | gone
  /-- The operating system has refused to tell. -/
  | failed (message : Text)
  /-- The survey ends. -/
  | broken (e : Failure)

/-- What was found for a pattern. -/
inductive Listing where
  | files (found : List (Text × Sighting))
  /-- The pattern could not be listed. -/
  | failed (message : Text)
  /-- The survey ends. -/
  | broken (e : Failure)

/-- The listings of all patterns in their order. -/
abbrev Survey := List (Text × Listing)

/-- What to watch: patterns without braces, seen from a directory. -/
structure WatchList where
  patterns : List Text
  root : Path
  /-- Whether files are left out if they are hidden or in a hidden directory. -/
  ignoreHidden : Bool

namespace WatchList

/-- What patterns with braces watch. -/
def ofPatterns (patterns : List Text) (root : Path) (ignoreHidden : Bool) :
    Except Failure WatchList :=
  match patterns.mapM expandBraces? with
  | some expanded => .ok ⟨expanded.flatten, root, ignoreHidden⟩
  | none => .error .deepBraces

/-- The directory from which a pattern is seen, and the pattern without what says so. -/
def resolve (w : WatchList) (pattern : Text) : Path × Text :=
  let pattern := (Text.afterText? "./" pattern).getD pattern
  let p := Path.ofText pattern
  if p.isAbsolute then (⟨p.anchor, []⟩, (⟨.none, p.parts⟩ : Path).text) else (w.root, pattern)

/-- The files that match a pattern. -/
def filesOf (w : WatchList) (d : Disk) (pattern : Text) : Except Failure (List Path) :=
  match d.listFaults.get? pattern with
  | some e => .error (.disk e)
  | none =>
    let (base, relative) := w.resolve pattern
    match d.glob base relative with
    | .error e => .error (.ofGlob e)
    | .ok paths =>
      .ok (paths.filter fun p => d.isFile p && !(w.ignoreHidden && p.isHiddenBelow base))

end WatchList

/-- Whether a failure to list a pattern leaves the other patterns alone. -/
def Failure.isContained : Failure → Bool
  | .disk e => e.isSystem || e.isValue
  | .pattern .empty | .pattern .starsInName => true
  | .pattern .noComponent | .pattern .slashOnly | .pattern .tooLong => false
  | .selector _ | .arithmetic _ | .deepBlocks | .deepBraces => false

/-- The time of modification of a file. -/
def Sighting.of (d : Disk) (p : Path) : Sighting :=
  match d.stamp p with
  | .ok time => .modified time
  | .error e =>
    if e.isNotFound then .gone else if e.isSystem then .failed e.message else .broken (.disk e)

/-- The files that match a pattern with their times of modification. -/
def WatchList.listing (w : WatchList) (d : Disk) (pattern : Text) : Listing :=
  match w.filesOf d pattern with
  | .ok paths => .files (paths.map fun p => (p.text, .of d p))
  | .error e => if e.isContained then .failed e.message else .broken e

/-- The survey of all patterns. -/
def WatchList.survey (w : WatchList) (d : Disk) : Survey :=
  w.patterns.map fun pattern => (pattern, w.listing d pattern)

/-- The files that match the patterns of a list, and what to report about patterns that cannot be
listed, which are left out. -/
def WatchList.filesOfAll (w : WatchList) (d : Disk) :
    List Text → Except Failure (List Path) × List Text
  | [] => (.ok [], [])
  | pattern :: rest =>
    match w.filesOf d pattern with
    | .ok paths =>
      let (found, problems) := w.filesOfAll d rest
      (found.map (paths ++ ·), problems)
    | .error e =>
      if e.isContained then
        let (found, problems) := w.filesOfAll d rest
        (found, ("Cannot watch " ++ Text.quoted pattern ++ ": " ++ e.message) :: problems)
      else (.error e, [])

/-- The files that match some pattern, in the order in which they are found first, and what to
report about patterns that cannot be listed. -/
def WatchList.matchingFiles (w : WatchList) (d : Disk) : Except Failure (List Path) × List Text :=
  let (found, problems) := w.filesOfAll d w.patterns
  (found.map List.eraseDups, problems)

/-! ## The polling watcher

A watcher compares each survey with what it knew before and reports the difference as events: first
the errors, then the files that were added or have changed, then those that were removed. A pattern
that cannot be listed keeps the files that it owned, so that they are not taken for removed; so does
a file whose time of modification cannot be read. -/

/-- What a watcher knows. -/
structure Watcher where
  watchList : WatchList
  /-- The times of modification of the known files. -/
  snapshot : OrderedMap Text Int
  /-- The files that each pattern matched when it was listed last. -/
  owners : OrderedMap Text (List Text)

namespace Watcher

/-- A watcher that knows no file. -/
def new (watchList : WatchList) : Watcher := ⟨watchList, .empty, .empty⟩

/-- A survey that is being taken in. -/
structure Intake where
  /-- The files seen so far. -/
  current : OrderedMap Text Int
  owners : OrderedMap Text (List Text)
  errors : List WatchEvent

namespace Intake

/-- Goes on with what was known of a file, if it was known. -/
def keep (known : OrderedMap Text Int) (i : Intake) (path : Text) : Intake :=
  match known.get? path with
  | some time => { i with current := i.current.insert path time }
  | none => i

/-- Takes a file in, unless it was seen already. -/
def file (known : OrderedMap Text Int) (i : Intake) (path : Text) (sighting : Sighting) :
    Except Failure Intake :=
  if i.current.contains path then .ok i
  else
    match sighting with
    | .modified time => .ok { i with current := i.current.insert path time }
    | .gone => .ok i
    | .failed message =>
      let i := { i with errors := i.errors ++ [WatchEvent.error path message] }
      .ok (i.keep known path)
    | .broken e => .error e

/-- Takes the files of a pattern in. -/
def files (known : OrderedMap Text Int) : Intake → List (Text × Sighting) → Except Failure Intake
  | i, [] => .ok i
  | i, (path, sighting) :: rest =>
    match i.file known path sighting with
    | .ok i => i.files known rest
    | .error e => .error e

/-- Takes the listing of a pattern in. -/
def listing (known : OrderedMap Text Int) (i : Intake) (pattern : Text) :
    Listing → Except Failure Intake
  | .files found =>
    match i.files known found with
    | .ok i => .ok { i with owners := i.owners.insert pattern (found.map Prod.fst) }
    | .error e => .error e
  | .failed message =>
    let i :=
      { i with errors := i.errors ++ [WatchEvent.error pattern (pattern ++ ": " ++ message)] }
    .ok (((i.owners.get? pattern).getD []).foldl (keep known) i)
  | .broken e => .error e

/-- Takes a survey in. After a failure that ends the survey, the patterns before it own their
files. -/
def survey (known : OrderedMap Text Int) : Intake → Survey → Option Failure × Intake
  | i, [] => (none, i)
  | i, (pattern, found) :: rest =>
    match i.listing known pattern found with
    | .ok i => i.survey known rest
    | .error e => (some e, i)

end Intake

/-- The difference between what was known and what is known now. -/
def changes (known current : OrderedMap Text Int) : List WatchEvent :=
  let seen := current.entries.filterMap fun (path, time) =>
    match known.get? path with
    | none => some (.added path)
    | some before => if before = time then none else some (.changed path)
  seen ++ (known.keys.filter fun path => !current.contains path).map .removed

/-- Takes a survey in and reports what is new. A survey that was ended reports nothing. -/
def observe (w : Watcher) (s : Survey) : Except Failure (List WatchEvent) × Watcher :=
  match (⟨.empty, w.owners, []⟩ : Intake).survey w.snapshot s with
  | (some e, i) => (.error e, { w with owners := i.owners })
  | (none, i) =>
    (.ok (i.errors ++ changes w.snapshot i.current),
      { w with snapshot := i.current, owners := i.owners })

/-- Takes a survey of the disk and reports what is new. -/
def poll (w : Watcher) (d : Disk) : Except Failure (List WatchEvent) × Watcher :=
  w.observe (w.watchList.survey d)

end Watcher

/-! ## Patrols

A patrol polls at regular intervals and hands every event to a handler. A handler that fails is
reported and does not end the patrol; a poll that fails does. -/

/-- How a patrol polls, handles and reports. -/
structure Patrol (σ : Type) where
  poll : σ → Except Failure (List WatchEvent) × σ
  /-- Handles an event. The answer is whether that succeeded. -/
  handle : WatchEvent → σ → Bool × σ
  report : LogLine → σ → σ

namespace Patrol

variable {σ : Type}

/-- Hands events to the handler. -/
def handleAll (p : Patrol σ) : List WatchEvent → σ → σ
  | [], s => s
  | e :: es, s =>
    match p.handle e s with
    | (true, s) => p.handleAll es s
    | (false, s) =>
      let line := "Watch handler failed for " ++ e.kind.name ++ " event on " ++ e.path
      p.handleAll es (p.report ⟨.error, line⟩ s)

/-- Polls once and handles the events. -/
def goRound (p : Patrol σ) (s : σ) : Except Failure Unit × σ :=
  match p.poll s with
  | (.error e, s) => (.error e, s)
  | (.ok events, s) => (.ok ⟨⟩, p.handleAll events s)

/-- Goes one round more than there are rounds of simulated time, with a wait after each. The answer
is the time of every wait. Simulated time may break the patrol off. -/
def run (p : Patrol σ) (interval : Float) :
    List (σ → Except Failure Unit × σ) → σ → Except Failure (List Float) × σ
  | [], s =>
    let (r, s) := p.goRound s
    (r.map fun _ => [interval], s)
  | meanwhile :: rest, s =>
    match p.goRound s with
    | (.error e, s) => (.error e, s)
    | (.ok _, s) =>
      match meanwhile s with
      | (.error e, s) => (.error e, s)
      | (.ok _, s) =>
        let (waits, s) := p.run interval rest s
        (waits.map (interval :: ·), s)

end Patrol

end UtilityCss
