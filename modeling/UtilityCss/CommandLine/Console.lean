import UtilityCss.Journal
import UtilityCss.Text.Utf8
import UtilityCss.Text.Words
/-!
# The console

Log lines have a level, a time and a message; on the console they may be coloured. Results and error
messages are printed without control sequences, also where a printed text brings some along. What
has no form in bytes is shown as escapes among errors and in the log, and cannot be printed as a
result.
-/

namespace UtilityCss.CommandLine

/-- The escape character. -/
def escape : Text := "\x1b"

/-- A text in a colour, given by its number, and back to normal. -/
def colored (color : Nat) (bold : Bool) (text : Text) : Text :=
  escape ++ s!"[{color}m" ++ (if bold then escape ++ "[1m" else "") ++ text ++ escape ++ "[0m"

/-- The colour of the tag of a level. -/
def coloredTag (level : Level) (tag : Text) : Text :=
  match level with
  | .debug => colored 90 false tag
  | .info => colored 34 true tag
  | .warning => colored 33 true tag
  | .error => colored 31 true tag

/-- The colour of a message of a level. -/
def coloredMessage (level : Level) (message : Text) : Text :=
  match level with
  | .debug | .info => message
  | .warning => colored 33 false message
  | .error => colored 31 false message

/-- A line of a log with colours. -/
def coloredLine (l : LogLine) (time : Text) : Text :=
  let tag := coloredTag l.level ("[" ++ l.level.name ++ "]")
  tag ++ " " ++ colored 90 false time ++ " - " ++ coloredMessage l.level l.message ++ "\n"

/-- How log lines are shown. -/
structure LogStyle where
  color : Bool
  /-- Whether details are shown. -/
  verbose : Bool

/-- A journal on the console, where the halves of surrogate pairs are shown as escapes. -/
def LogStyle.onConsole (style : LogStyle) (time : Text) (j : Journal) : Text :=
  let line (l : LogLine) : Text := if style.color then coloredLine l time else l.text time
  Text.withoutHalves (Text.join ((j.shown style.verbose).map line))

/-- The messages of a journal that are shown where no log was asked for: warnings and errors. -/
def bareWarnings (j : Journal) : Text :=
  let lines := j.logLines.filter fun l => l.level == .warning || l.level == .error
  Text.withoutHalves (Text.join (lines.map fun l => l.message ++ "\n"))

/-- Whether a code point may stand between the bracket of a control sequence and its last part. -/
def isParameter (c : CodePoint) : Bool := '0' ≤ c && c ≤ '?'

/-- Whether a code point may stand behind the parameters of a control sequence. -/
def isIntermediate (c : CodePoint) : Bool := ' ' ≤ c && c ≤ '/'

/-- What follows the control sequence at the start of a text: an escape character and a bracket,
parameters, intermediate characters, and a final one. -/
def afterSequence? : List CodePoint → Option (List CodePoint)
  | .char '\x1b' :: .char '[' :: rest =>
    match (rest.dropWhile isParameter).dropWhile isIntermediate with
    | final :: behind => if '@' ≤ final && final ≤ '~' then some behind else none
    | [] => none
  | _ => none

/-- A line of output, without the control sequences that the text brings along. -/
def printed (text : Text) : Text := Text.replacePieces afterSequence? "" text ++ "\n"

/-- A line of error output, where the halves of surrogate pairs are shown as escapes. -/
def complained (text : Text) : Text := Text.withoutHalves (printed text)

/-- Lines of output, up to one that has no form in bytes. -/
def printedAll : List Text → Text × Option Text.Utf8.EncodeError
  | [] => ("", none)
  | text :: texts =>
    match Text.Utf8.encode (printed text) with
    | .error e => ("", some e)
    | .ok _ =>
      let (more, e) := printedAll texts
      (printed text ++ more, e)

end UtilityCss.CommandLine
