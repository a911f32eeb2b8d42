import UtilityCss.Decimal.Binary64
import UtilityCss.Disk.Glob
import UtilityCss.Stylesheet.Selector
/-!
# Passes and their failures

A pass scans the files of a batch and writes the stylesheets, or fails.
-/

namespace UtilityCss

/-! ## Failures

What can go wrong while sources are scanned and stylesheets are written: an access to the disk, a
class name in an existing stylesheet that cannot be decoded, a delay that cannot be computed, a text
that is no file pattern, or something that is nested too deeply. A failed pass is retried whatever
the reason is. -/

/-- Why an operation fails. -/
inductive Failure where
  | disk (e : DiskError)
  | selector (e : Stylesheet.EscapeError)
  | arithmetic (e : Binary64.ArithmeticError)
  | pattern (e : Disk.PatternError)
  /-- The blocks of an existing stylesheet are nested too deeply. -/
  | deepBlocks
  /-- A watched pattern has too many groups in braces. -/
  | deepBraces
  deriving DecidableEq

namespace Failure

/-- The text of a failure. -/
def message : Failure → Text
  | disk e => e.message
  | selector e => e.message
  | arithmetic e => e.message
  | pattern e => e.message
  | deepBlocks | deepBraces => "maximum recursion depth exceeded"

/-- The failure to list the matches of a pattern. -/
def ofGlob : Disk.GlobError → Failure
  | .pattern e => pattern e
  | .disk e => disk e

end Failure

/-! ## Passes

A pass scans the files of a batch and writes the stylesheets. It is attempted again when it fails,
and its outcome is that of the last attempt. -/

/-- What a rebuild of the stylesheets has done. -/
structure RebuildResult where
  /-- How many distinct class names the tracked files use. -/
  candidates : Nat
  /-- How many rules were generated. -/
  ruleCount : Nat
  /-- How many class names existing stylesheets define already. -/
  suppressed : Nat
  written : List Path
  unchanged : List Path
  deriving DecidableEq

/-- Whether any stylesheet was written. -/
def RebuildResult.changed (r : RebuildResult) : Bool := !r.written.isEmpty

/-- How a pass ended after one or more attempts. -/
structure PassOutcome where
  files : List Text
  attempts : Nat
  /-- What the last attempt gave. -/
  result : Except Failure RebuildResult

namespace PassOutcome

/-- Whether the last attempt succeeded. -/
def succeeded (o : PassOutcome) : Bool :=
  match o.result with
  | .ok _ => true
  | .error _ => false

/-- How many attempts followed the first one. -/
def retries (o : PassOutcome) : Nat := o.attempts - 1

/-- The text of the last failure, empty if there is none. -/
def error (o : PassOutcome) : Text :=
  match o.result with
  | .ok _ => ""
  | .error e => e.message

end PassOutcome

end UtilityCss
