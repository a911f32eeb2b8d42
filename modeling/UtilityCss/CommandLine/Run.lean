import UtilityCss.CommandLine.Request
import UtilityCss.Config.Loader
import UtilityCss.Config.Validation
import UtilityCss.Runner
/-!
# Running commands

A request is run on a disk and answers with what is printed, the exit code and the disk afterwards.
A failure has the exit code 1. Watching goes on up to the first wait, at which it is interrupted.
-/

namespace UtilityCss.CommandLine

/-- An error that ends a command without a message of its own. -/
inductive Crash where
  | config (e : Config.LoadError)
  | failure (e : Failure)

/-- The text of a crash. -/
def Crash.message : Crash → Text
  | config e => e.message
  | failure e => e.message

/-- What a command line has done. -/
structure Result where
  exitCode : Nat
  output : Text
  errors : Text
  crash : Option Crash
  disk : Disk

/-- A command that ends with an exit code. -/
def finished (d : Disk) (exitCode : Nat) (output errors : Text) : Result :=
  ⟨exitCode, output, errors, none, d⟩

/-- A command that crashes. -/
def crashed (d : Disk) (output errors : Text) (e : Crash) : Result := ⟨1, output, errors, some e, d⟩

/-- A command that prints some lines and ends with an exit code, or crashes at a line that cannot be
printed. -/
def printing (d : Disk) (exitCode : Nat) (lines : List Text) (errors : Text) : Result :=
  match printedAll lines with
  | (output, none) => finished d exitCode output errors
  | (output, some e) => crashed d output errors (.failure (.disk (.encoding e)))

/-! ## Commands -/

/-- Prints the rules of class names. -/
def printRules (d : Disk) (p : Preferences) (names : List Text) : Result :=
  match Config.loadOrDefault d p.configPath with
  | (.error e, journal) => crashed d "" (bareWarnings journal) (.config e)
  | (.ok c, journal) =>
    let answers := names.map fun name => (name, c.vocabulary.compile name)
    let unknown := answers.filter fun a => a.2.isNone
    let rules := answers.filterMap Prod.snd
    let separator := if p.minify then "" else "\n\n"
    let text := Text.intercalate separator (rules.map (·.render p.minify))
    printing d 0 (if rules.isEmpty then [] else [text])
      (bareWarnings journal ++ Text.join
        (unknown.map fun a => complained ("Not recognized: " ++ a.1)))

/-- Prints the findings about a configuration. -/
def printFindings (d : Disk) (p : Preferences) : Result :=
  match Config.load d p.configPath with
  | .error (.problem problem) => finished d 1 "" (complained ("Config error: " ++ problem.message))
  | .error e => crashed d "" "" (.config e)
  | .ok c =>
    match Config.validate d c with
    | .error e => crashed d "" "" (.failure (.disk e))
    | .ok [] => finished d 0 (printed s!"OK: {c.rules.rules.size} rules, 0 diagnostics") ""
    | .ok findings =>
      let errors := Diagnostic.count findings .error
      let warnings := Diagnostic.count findings .warning
      let infos := Diagnostic.count findings .info
      let summary : List Text :=
        ["", s!"Summary: {errors} error(s), {warnings} warning(s), {infos} info"]
      printing d (if errors = 0 then 0 else 1) (findings.map Diagnostic.text ++ summary) ""

/-- Scans all matching files and writes the stylesheets. -/
def buildOnce (d : Disk) (p : Preferences) (time : Text) : Result :=
  let log := p.logStyle.onConsole time
  match Config.loadOrDefault d p.configPath with
  | (.error e, journal) => crashed d "" (log journal) (.config e)
  | (.ok c, journal) =>
    match Runner.start c d with
    | .error e => crashed d "" (log journal) (.failure e)
    | .ok s =>
      let (outcome, s) := Runner.buildOnce s
      let logged := log (journal ++ s.journal)
      match outcome with
      | .error e => crashed s.work.disk "" logged (.failure e)
      | .ok outcome =>
        match outcome.result with
        | .error e =>
          finished s.work.disk 1 "" (logged ++ complained ("Build failed: " ++ e.message))
        | .ok r =>
          let summary := s!"Built {r.ruleCount} rules from {outcome.files.length} files " ++
            s!"({r.written.length} written, {r.unchanged.length} unchanged)"
          finished s.work.disk 0 (printed summary) logged

/-- Makes a log file if it is missing, with the directories above it. -/
def openLog (d : Disk) (p : Path) : Except DiskError Unit × Disk :=
  match d.ensureFolders p.parent with
  | (.error e, d) => (.error e, d)
  | (.ok _, d) => d.append (d.absolutePath p) []

/-- Opens the log file, if there is one. -/
def openLog? (d : Disk) : Option Path → Except DiskError Unit × Disk
  | none => (.ok ⟨⟩, d)
  | some p => openLog d p

/-- The log file: that of the command line, or that of the configuration. -/
def Preferences.logPath (p : Preferences) (c : Config) : Option Path :=
  if p.logFile.isEmpty then c.logPath else some (Path.ofText p.logFile)

/-- A session that is about to watch. -/
structure Watch where
  session : Session Runner
  /-- What was reported while the configuration was loaded, before the log file was opened. -/
  journal : Journal

/-- The line that is printed when watching begins. -/
def watchTitle : Text := printed "WatchClass Compiler"

/-- Opens the log file and begins a session, unless the configuration or the log file is at
fault. -/
def openWatch (d : Disk) (p : Preferences) (time : Text) : Except Result Watch :=
  let log := p.logStyle.onConsole time
  match Config.loadOrDefault d p.configPath with
  | (.error e, journal) => .error (crashed d "" (log journal) (.config e))
  | (.ok c, journal) =>
    let logPath := p.logPath c
    match openLog? d logPath with
    | (.error e, d) => .error (crashed d "" (log journal) (.failure (.disk e)))
    | (.ok _, d) =>
      match Runner.start c d with
      | .error e => .error (crashed d watchTitle (log journal) (.failure e))
      | .ok s =>
        match logPath with
        | none => .ok ⟨s, journal⟩
        | some file => .ok ⟨Runner.logTo (.new (d.absolutePath file) p.verbose time) s, journal⟩

/-- Watches the sources up to the first wait. -/
def watchSources (d : Disk) (p : Preferences) (time : Text) : Result :=
  match openWatch d p time with
  | .error r => r
  | .ok w =>
    let (waits, s) := Runner.run [] w.session
    let s := Runner.settle s
    let logged := p.logStyle.onConsole time (w.journal ++ s.journal)
    match waits with
    | .error e => crashed s.work.disk watchTitle logged (.failure e)
    | .ok _ => finished s.work.disk 0 (watchTitle ++ printed "Stopping watcher") logged

/-- Does what a command line asks for. `time` stands in the log lines. -/
def Request.run (d : Disk) (time : Text) : Request → Result
  | .text exitCode output errors => finished d exitCode output errors
  | .unusable e => crashed d "" "" (.failure (.disk e))
  | .command .build p _ => buildOnce d p time
  | .command .compile p names => printRules d p names
  | .command .validate p _ => printFindings d p
  | .command .watch p _ => watchSources d p time

/-- Runs a command line. `time` stands in the log lines. -/
def run (d : Disk) (time : Text) (args : List Text) : Result :=
  (Request.ofArguments args).run d time

end UtilityCss.CommandLine
