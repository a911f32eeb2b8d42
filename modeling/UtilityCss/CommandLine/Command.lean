import UtilityCss.Text.Basic
import UtilityCss.Text.Words
/-!
# Commands and their options

What can be given on the command line: the commands, and the options of each command with the
spellings that set them.
-/

namespace UtilityCss.CommandLine

/-- The name of the program. -/
def programName : Text := "watchclass"

/-- The version of the program. -/
def version : Text := "0.1.0"

/-- What an option on the command line asks for. -/
inductive Setting where
  /-- A configuration file, or the directory of one. -/
  | config (path : Text)
  | logFile (path : Text)
  | verbose
  | color (on : Bool)
  | minify (on : Bool)
  | version
  | help
  deriving DecidableEq, Repr

/-- What an option does under one of its spellings. -/
inductive Spelling where
  /-- It takes the next argument as its value. -/
  | valued (set : Text → Setting)
  | plain (setting : Setting)

/-- An option of a command. -/
structure Choice where
  /-- How the option is written, for the help page. -/
  usage : Text
  help : Text
  spellings : List (Text × Spelling)

/-- Where the configuration is. -/
def configChoice : Choice where
  usage := "--config PATH"
  help := "Config file, or a directory containing watchclass.json [default: .]"
  spellings := [("--config", .valued .config)]

/-- Whether details are logged. -/
def verboseChoice : Choice where
  usage := "--verbose"
  help := "Log debug output"
  spellings := [("--verbose", .plain .verbose)]

/-- Where the log is written. -/
def logFileChoice : Choice where
  usage := "--log-file PATH"
  help := "Override the log file location"
  spellings := [("--log-file", .valued .logFile)]

/-- Whether the log is coloured. -/
def colorChoice : Choice where
  usage := "--color / --no-color"
  help := "Colour console output"
  spellings := [("--color", .plain (.color true)), ("--no-color", .plain (.color false))]

/-- Whether rules are written in their compact form. -/
def minifyChoice : Choice where
  usage := "--minify / --pretty"
  help := "Single-line rule bodies"
  spellings := [("--minify", .plain (.minify true)), ("--pretty", .plain (.minify false))]

/-- The version of the program. -/
def versionChoice : Choice where
  usage := "--version"
  help := "Show the version and exit."
  spellings := [("--version", .plain .version)]

/-- The help page. -/
def helpChoice : Choice where
  usage := "--help"
  help := "Show this message and exit."
  spellings := [("--help", .plain .help)]

/-- The commands of the program. -/
inductive Command where
  | build
  | compile
  | validate
  | watch
  deriving DecidableEq, Repr

namespace Command

/-- All commands in alphabetical order. -/
def all : List Command := [.build, .compile, .validate, .watch]

/-- The name of a command. -/
def name : Command → Text
  | .build => "build"
  | .compile => "compile"
  | .validate => "validate"
  | .watch => "watch"

/-- The command of a name. -/
def ofName? (s : Text) : Option Command := all.find? fun c => c.name == s

/-- What a command does, in one sentence. -/
def summary : Command → Text
  | .build => "Scan every matching source file once and write the stylesheet."
  | .compile => "Compile CLASS_NAMES and print the resulting CSS."
  | .validate => "Load and validate a watchclass configuration."
  | .watch => "Watch source files and regenerate the stylesheet on change."

/-- More about a command. -/
def details : Command → Text
  | .build => "Exits with code 1 if the build still fails after all retries."
  | .compile => "Names that no rule recognizes are listed on stderr."
  | .validate => "Prints diagnostics and exits with code 0 if no errors are found, or code 1 if " ++
      "the file cannot be loaded or has errors."
  | .watch =>
    "Runs until interrupted. Failures are logged and retried; the watcher keeps running " ++
      "after a bad file or a failed batch."

/-- The options of a command. -/
def choices : Command → List Choice
  | .build => [configChoice, verboseChoice, colorChoice, helpChoice]
  | .compile => [configChoice, minifyChoice, helpChoice]
  | .validate => [configChoice, helpChoice]
  | .watch => [configChoice, verboseChoice, logFileChoice, colorChoice, helpChoice]

/-- Whether a command is given class names. -/
def takesClassNames (c : Command) : Bool := c == .compile

end Command

/-- The options in front of a command. -/
def globalChoices : List Choice := [versionChoice, helpChoice]

/-- What all commands do together, in one sentence. -/
def programSummary : Text :=
  "Watchclass - generate utility CSS from the class names in your sources."

/-! ## Help pages

A help page shows how a command is used, what it does, and its options in two columns. The lines of
a paragraph have at most 78 characters behind their indentation, and those of a table in all. -/

/-- The length of the longest line, without its indentation in a paragraph. -/
def pageWidth : Nat := 78

/-- Adds words to a line as long as it has at most `width` characters, and goes on with a new
line. -/
def fillLines (width : Nat) (line : Text) : List Text → List Text
  | [] => [line]
  | word :: words =>
    if line.length + 1 + word.length ≤ width then fillLines width (line ++ " " ++ word) words
    else line :: fillLines width word words

/-- The words of a text on lines of at most `width` characters. A longer word has a line of its
own. -/
def wrap (width : Nat) (text : Text) : List Text :=
  match (Text.words text.toList).map Text.ofList with
  | [] => []
  | word :: words => fillLines width word words

/-- Blanks. -/
def blanks (n : Nat) : Text := Text.ofList (List.replicate n ' ')

/-- A paragraph, indented. -/
def paragraph (text : Text) : List Text := (wrap pageWidth text).map ("  " ++ ·)

/-- Two columns under a heading. The second one starts two blanks behind the longest entry of the
first. -/
def table (heading : Text) (rows : List (Text × Text)) : List Text :=
  let column := (rows.map fun r => r.1.length).foldl max 0 + 2
  let row (r : Text × Text) : List Text :=
    match wrap (pageWidth - column - 2) r.2 with
    | [] => ["  " ++ r.1]
    | line :: lines =>
      ("  " ++ r.1 ++ blanks (column - r.1.length) ++ line) :: lines.map (blanks (column + 2) ++ ·)
  (heading ++ ":") :: rows.flatMap row

/-- The options as a table. -/
def choiceTable (choices : List Choice) : List Text :=
  table "Options" (choices.map fun c => (c.usage, c.help))

/-- Lines as a text. -/
def unlines (lines : List Text) : Text := Text.join (lines.map (· ++ "\n"))

/-- How the program is called. -/
def programUsage : Text := "Usage: " ++ programName ++ " [OPTIONS] COMMAND [ARGS]..."

/-- The name of the program and the command. -/
def Command.fullName (c : Command) : Text := programName ++ " " ++ c.name

/-- How a command is called. -/
def Command.usage (c : Command) : Text :=
  "Usage: " ++ c.fullName ++ " [OPTIONS]" ++ (if c.takesClassNames then " CLASS_NAMES..." else "")

/-- The help page of the program. -/
def programHelp : Text :=
  let parts := [[programUsage], paragraph programSummary, choiceTable globalChoices,
    table "Commands" (Command.all.map fun c => (c.name, c.summary))]
  unlines (List.intercalate [""] parts)

/-- The help page of a command. -/
def Command.helpPage (c : Command) : Text :=
  let parts := [[c.usage], paragraph c.summary, paragraph c.details, choiceTable c.choices]
  unlines (List.intercalate [""] parts)

end UtilityCss.CommandLine
