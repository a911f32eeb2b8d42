import UtilityCss.Config.Settings
import UtilityCss.Text.Basic
/-!
# Checking a configuration

A configuration that can be read may still be wrong. The checks tell what they find.
-/

namespace UtilityCss

/-! ## Findings

A finding says what is wrong or suspicious about a configuration, how serious that is, where it is,
and how it may be mended. -/

/-- How serious a finding is. -/
inductive Severity where
  | error
  | warning
  | info
  deriving DecidableEq, Repr

/-- The name of a severity. -/
def Severity.name : Severity → Text
  | .error => "ERROR"
  | .warning => "WARNING"
  | .info => "INFO"

/-- A finding about a configuration. -/
structure Diagnostic where
  /-- The check that has found it. -/
  check : Text
  severity : Severity
  message : Text
  /-- The prefix of the rule in question. -/
  prefixName : Option Text := none
  /-- The name of the setting in question. -/
  setting : Option Text := none
  /-- How to mend it. -/
  fix : Option Text := none
  deriving DecidableEq, Repr

namespace Diagnostic

/-- Whether the configuration cannot be used. -/
def isError (d : Diagnostic) : Bool := d.severity == .error

/-- Whether the configuration is suspicious. -/
def isWarning (d : Diagnostic) : Bool := d.severity == .warning

/-- The rule or the setting in question, empty if there is none. -/
def location (d : Diagnostic) : Text :=
  match d.prefixName.filter (!·.isEmpty), d.setting.filter (!·.isEmpty) with
  | some p, _ => "rule=" ++ p
  | none, some s => "setting=" ++ s
  | none, none => ""

/-- The finding on one line. -/
def text (d : Diagnostic) : Text :=
  let place : Text := if d.location.isEmpty then "" else " [" ++ d.location ++ "]"
  let remedy : Text := match d.fix.filter (!·.isEmpty) with
    | some fix => " (fix: " ++ fix ++ ")"
    | none => ""
  d.severity.name ++ place ++ ": " ++ d.message ++ remedy

/-- How many findings have a severity. -/
def count (ds : List Diagnostic) (s : Severity) : Nat := ds.countP fun d => d.severity == s

end Diagnostic

end UtilityCss

/-! ## Checking a configuration

Nine checks look for rules that cannot work, settings that contradict each other, and files that are
missing. Their findings come in the order of the checks. A configuration with errors is not valid;
warnings and remarks do not count. -/

namespace UtilityCss.Config

/-- A property name: letters, digits and dashes that start with a letter, or with a dash and a
letter. -/
def isProperty (s : Text) : Bool :=
  let cs := Text.withoutFinalNewline s.toList
  match (Text.after? (Text.toList "-") cs).getD cs with
  | [] => false
  | c :: cs =>
    Text.isAsciiLetter c && cs.all fun c => Text.isAsciiLetter c || Text.isAsciiDigit c || c == '-'

/-- A prefix that can stand in a class name: words of letters and digits with single dashes between
them, the first of which starts with a letter. -/
def isPrefix (s : Text) : Bool :=
  let words := Text.splitWhere (· == .char '-') (Text.withoutFinalNewline s.toList)
  (words.head?.bind List.head?).any Text.isAsciiLetter &&
    words.all fun w => !w.isEmpty && w.all fun c => Text.isAsciiLetter c || Text.isAsciiDigit c

/-- Every rule sets at least one property, and its properties are well formed. -/
def checkRuleProperties (c : Config) : List Diagnostic :=
  c.rules.rules.entries.flatMap fun (p, r) =>
    if r.properties.isEmpty then
      [{ check := "check_rule_properties", severity := .error
         message := "Rule '" ++ p ++ "' has no CSS property."
         prefixName := some p
         fix := some "Set 'property' to a property name or a list of names." }]
    else
      (r.properties.filter (!isProperty ·)).map fun property =>
        { check := "check_rule_properties", severity := .error
          message := "Rule '" ++ p ++ "' targets malformed property " ++ Text.quoted property ++ "."
          prefixName := some p }

/-- Every prefix can stand in a class name. -/
def checkRulePrefixes (c : Config) : List Diagnostic :=
  (c.rules.prefixes.filter (!isPrefix ·)).map fun p =>
    { check := "check_rule_prefixes", severity := .error
      message := "Rule prefix " ++ Text.quoted p ++ " is not usable in a class name."
      prefixName := some p
      fix := some "Use letters and digits joined by single dashes, e.g. 'min-w'." }

/-- No colour rule has a fixed value or a unit. -/
def checkColorRuleExtras (c : Config) : List Diagnostic :=
  c.rules.rules.entries.filterMap fun (p, r) =>
    let given (name : Text) (v : Option Text) : List Text := if v.isSome then [name] else []
    let ignored := given "value" r.fixedValue ++ given "unit" r.unit
    let names := Text.intercalate ", " ignored
    if r.kind = .color ∧ ignored ≠ [] then
      some { check := "check_color_rule_extras", severity := .warning
             message := "Colour rule '" ++ p ++ "' sets " ++ names ++ ", which colour rules ignore."
             prefixName := some p }
    else none

/-- No fixed rule has a value map. -/
def checkFixedRuleValueMap (c : Config) : List Diagnostic :=
  c.rules.rules.entries.filterMap fun (p, r) =>
    if r.kind = .fixed ∧ r.valueMap.size ≠ 0 then
      some { check := "check_fixed_rule_value_map", severity := .info
             message := "Rule '" ++ p ++ "' has a fixed value, so its valueMap is unused."
             prefixName := some p }
    else none

/-- The findings of a check about settings that are negative. -/
def negativeSettings (check : Text) (settings : List (Text × Int)) : List Diagnostic :=
  (settings.filter (·.2 < 0)).map fun (name, _) =>
    { check, severity := .error, message := name ++ " must not be negative.", setting := some name }

/-- No delay is negative, and the base delay is not longer than the maximum. -/
def checkBatchDelays (c : Config) : List Diagnostic :=
  negativeSettings "check_batch_delays" [("batch_base_delay", c.batchBaseDelay),
      ("batch_delay_per_file", c.batchDelayPerFile), ("max_batch_delay", c.maxBatchDelay)] ++
    if c.batchBaseDelay > c.maxBatchDelay then
      [{ check := "check_batch_delays", severity := .warning
         message := s!"batch_base_delay ({c.batchBaseDelay}ms) exceeds max_batch_delay " ++
           s!"({c.maxBatchDelay}ms); every batch waits the maximum."
         setting := some "batch_base_delay" }]
    else []

/-- No retry setting is negative, and delays do not become shorter. -/
def checkRetrySettings (c : Config) : List Diagnostic :=
  negativeSettings "check_retry_settings"
      [("max_retries", c.maxRetries), ("retry_delay", c.retryDelay)] ++
    if c.retryBackoffFactor < 1.0 then
      [{ check := "check_retry_settings", severity := .warning
         message := "retry_backoff_factor below 1.0 shortens each successive retry delay."
         setting := some "retry_backoff_factor" }]
    else []

/-- There is something to watch. -/
def checkWatchPatterns (c : Config) : List Diagnostic :=
  if c.watchPatterns.isEmpty then
    [{ check := "check_watch_patterns", severity := .warning
       message := "No watch patterns configured; nothing will be scanned."
       setting := some "watch_patterns" }]
  else []

/-- No namespace is empty, and none writes to the default file. -/
def checkSplitNamespaces (c : Config) : List Diagnostic :=
  c.splitNamespaces.entries.flatMap fun (p, file) =>
    (if p.isEmpty then
      [{ check := "check_split_namespaces", severity := .error
         message := "Empty namespace prefix would capture every rule."
         setting := some "split_namespaces" }]
    else []) ++
    (if file = c.outputFileName then
      [{ check := "check_split_namespaces", severity := .warning
         message := "Namespace " ++ Text.quoted p ++ " writes to the default file " ++
           Text.quoted file ++ "."
         setting := some "split_namespaces" }]
    else [])

/-- The finding that an existing stylesheet is missing. -/
def missingCssFile (p : Path) : Diagnostic where
  check := "check_existing_css_files"
  severity := .warning
  message := "Existing stylesheet " ++ p.text ++ " does not exist and will be skipped."
  setting := some "existing_css_files"

/-- The existing stylesheets are there. A path that cannot be looked at is an error. -/
def checkExistingCssFiles (d : Disk) : List Path → Except DiskError (List Diagnostic)
  | [] => .ok []
  | p :: ps => do
    let found ← d.look p
    let more ← checkExistingCssFiles d ps
    return if found.any Entry.isFile then more else missingCssFile p :: more

/-- The findings about the settings themselves, which need no disk. -/
def checkSettings (c : Config) : List Diagnostic :=
  checkRuleProperties c ++ checkRulePrefixes c ++ checkColorRuleExtras c ++
    checkFixedRuleValueMap c ++ checkBatchDelays c ++ checkRetrySettings c ++
    checkWatchPatterns c ++ checkSplitNamespaces c

/-- All findings about a configuration. -/
def validate (d : Disk) (c : Config) : Except DiskError (List Diagnostic) :=
  (checkExistingCssFiles d c.existingCssPaths).map (checkSettings c ++ ·)

/-- The errors of a configuration that is not valid. -/
structure ValidationError where
  errors : List Diagnostic

/-- The text of a validation error. -/
def ValidationError.message (e : ValidationError) : Text :=
  let details := Text.intercalate "; " (e.errors.map Diagnostic.text)
  s!"{e.errors.length} configuration error(s): " ++ details

/-- The findings, if none of them is an error. -/
def requireValid (findings : List Diagnostic) : Except ValidationError (List Diagnostic) :=
  match findings.filter Diagnostic.isError with
  | [] => .ok findings
  | errors => .error ⟨errors⟩

end UtilityCss.Config
