import UtilityCss.CommandLine.Arguments
import UtilityCss.CommandLine.Command
import UtilityCss.CommandLine.Console
import UtilityCss.Disk.Basic
/-!
# Requests

A command line asks for a command with its preferences, or for a text: a help page, the version, or
what is wrong with the command line. Asking for help goes before the check of other arguments, and
the names of files are looked at before the other arguments.
-/

namespace UtilityCss.CommandLine

/-- What was asked for on the command line, with the last setting of each option. -/
structure Preferences where
  config : Text
  logFile : Text
  verbose : Bool
  color : Bool
  minify : Bool

namespace Preferences

/-- What holds without options. -/
def default : Preferences := ⟨".", "", false, true, false⟩

/-- What holds after a setting. -/
def set (p : Preferences) : Setting → Preferences
  | .config path => { p with config := path }
  | .logFile path => { p with logFile := path }
  | .verbose => { p with verbose := true }
  | .color on => { p with color := on }
  | .minify on => { p with minify := on }
  | .version | .help => p

/-- What holds after all settings. -/
def ofSettings (settings : List Setting) : Preferences := settings.foldl set default

/-- Where the configuration is. -/
def configPath (p : Preferences) : Path := Path.ofText p.config

/-- The value of the option that a setting sets, if it names a file. -/
def fileName? (p : Preferences) : Setting → Option Text
  | .config _ => some p.config
  | .logFile _ => some p.logFile
  | _ => none

/-- Why some settings cannot be followed, if they cannot: the operating system does not take the
name of a file. The last setting of an option counts; the option that was set first is looked at
first. -/
def fileError? (settings : List Setting) : Option DiskError :=
  (settings.filterMap (ofSettings settings).fileName?).findSome? fun name =>
    match systemName name with
    | .error e => some e
    | .ok _ => none

/-- How the log is shown. -/
def logStyle (p : Preferences) : LogStyle := ⟨p.color, p.verbose⟩

end Preferences

/-- What a command line asks for. -/
inductive Request where
  /-- A text, which needs no disk. -/
  | text (exitCode : Nat) (output errors : Text)
  | command (c : Command) (p : Preferences) (names : List Text)
  /-- A failure, since an option names a file that cannot be. -/
  | unusable (e : DiskError)

namespace Request

/-- The request of a command line that makes no sense. -/
def misuse (usage caller : Text) (e : UsageError) : Request :=
  let hint := usage ++ "\nTry '" ++ caller ++ " --help' for help.\n\n"
  .text 2 "" ((if e.showsUsage then hint else "") ++ complained ("Error: " ++ e.message))

/-- What a command with arguments asks for. -/
def ofCommand (c : Command) (args : List Text) : Request :=
  match c.readArguments args with
  | .error e => misuse c.usage c.fullName e
  | .ok as =>
    if as.settings.contains .help then .text 0 c.helpPage ""
    else
      match Preferences.fileError? as.settings, c.check as.rest with
      | some e, _ => .unusable e
      | none, .error e => misuse c.usage c.fullName e
      | none, .ok _ => .command c (.ofSettings as.settings) as.rest

/-- What an option in front of the command asks for. -/
def ofGlobal? : List Setting → Option Request
  | .version :: _ => some (.text 0 (printed (programName ++ ", version " ++ version)) "")
  | .help :: _ => some (.text 0 programHelp "")
  | _ => none

/-- What a command that is named first asks for. A name that is no command and starts with a dash is
read once more as an option. -/
def ofNamed : List Text → Request
  | [] => misuse programUsage programName .noCommand
  | name :: args =>
    match Command.ofName? name with
    | some c => ofCommand c args
    | none =>
      let unknown := misuse programUsage programName
        (.noSuchCommand name (Text.similarTo name (Command.all.map Command.name)))
      if Text.startsWith name "-" then
        match readArguments (spellingsOf globalChoices) false (name :: args) with
        | .error e => misuse programUsage programName e
        | .ok as => (ofGlobal? as.settings).getD unknown
      else unknown

/-- What a command line asks for. -/
def ofArguments (args : List Text) : Request :=
  if args.isEmpty then .text 2 "" programHelp
  else
    match readArguments (spellingsOf globalChoices) false args with
    | .error e => misuse programUsage programName e
    | .ok as => (ofGlobal? as.settings).getD (ofNamed as.rest)

end Request

end UtilityCss.CommandLine
