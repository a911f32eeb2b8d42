import UtilityCss.Config.Settings
import UtilityCss.Journal
import UtilityCss.Json.Reader
import UtilityCss.Rule.Spec
/-!
# Loading a configuration

A configuration is a JSON object whose members override the defaults. A setting may be spelled with
underscores or in camel case, but not in both ways at once. The rules of the configuration replace
and extend the default rules, and the value null removes a rule; names for values are added
likewise. Members with other names have no effect, and a repeated key anywhere is an error.
-/

namespace UtilityCss.Config

/-- What is wrong with a configuration. -/
inductive Problem where
  | notAString (key kind : Text)
  | notANumber (key kind : Text)
  | notABool (key : Text)
  | notStrings (key : Text)
  | notAnObject (key : Text)
  | bothSpellings (name camelName : Text)
  | ruleNotAnObject (prefixName : Text)
  /-- The configuration as a whole is no object. -/
  | rootNotAnObject
  | duplicateKey (key : Text)
  | unreadable (file : Path) (e : DiskError)
  | malformed (fileName : Text) (flaw : Json.Flaw) (place : Text)
  deriving DecidableEq

/-- The name of the configuration file in a directory. -/
def fileName : Text := "watchclass.json"

/-- The text of a problem. -/
def Problem.message : Problem → Text
  | notAString key kind => key ++ " must be a string, got " ++ kind
  | notANumber key kind => key ++ " must be a number, got " ++ kind
  | notABool key => key ++ " must be true or false"
  | notStrings key => key ++ " must be a list of strings"
  | notAnObject key => key ++ " must be an object"
  | bothSpellings name camelName =>
    "Both " ++ Text.quoted name ++ " and " ++ Text.quoted camelName ++ " are set; use one spelling"
  | ruleNotAnObject prefixName => "rule " ++ Text.quoted prefixName ++ " must be an object"
  | rootNotAnObject => fileName ++ " must contain an object at the root"
  | duplicateKey key => "Duplicate key " ++ Text.quoted key ++ " in configuration"
  | unreadable file e => "Cannot read " ++ file.text ++ ": " ++ e.message
  | malformed name flaw place => "Failed to parse " ++ name ++ ": " ++ flaw.message ++ ": " ++ place

/-- Why a configuration is not loaded. A problem is a matter of the configuration file and can be
answered with the defaults; the other causes cannot. -/
inductive LoadError where
  | problem (p : Problem)
  | arithmetic (e : Binary64.ArithmeticError)
  | rule (e : SpecError)
  | encoding (e : Text.Utf8.DecodeError)
  | disk (e : DiskError)
  /-- An integer in the file has too many digits. -/
  | integerTooLong (digits : Nat)
  /-- The values in the file are nested too deeply. -/
  | nestedTooDeep (call : Json.DeepCall)
  /-- A path starts with a tilde, and nobody's home directory is known. -/
  | noHome
  deriving DecidableEq

/-- The text of a load error. -/
def LoadError.message : LoadError → Text
  | problem p => p.message
  | arithmetic e => e.message
  | rule e => e.message
  | encoding e => e.message
  | disk e => e.message
  | integerTooLong digits => (Json.ReadError.integerTooLong digits).message ""
  | nestedTooDeep call => (Json.ReadError.nestedTooDeep call).message ""
  | noHome => "Could not determine home directory."

/-! ## Values of settings -/

/-- A text. -/
def asString (key : Text) : Json → Except LoadError Text
  | .str s => .ok s
  | v => .error (.problem (.notAString key v.kindName))

/-- An integer, or the integer part of a number. -/
def asInt (key : Text) : Json → Except LoadError Int
  | .int i => .ok i
  | .float x => (Binary64.truncate x).mapError .arithmetic
  | v => .error (.problem (.notANumber key v.kindName))

/-- A number. -/
def asFloat (key : Text) : Json → Except LoadError Float
  | .int i => (Binary64.ofInt i).mapError .arithmetic
  | .float x => .ok x
  | v => .error (.problem (.notANumber key v.kindName))

/-- A truth value. -/
def asBool (key : Text) : Json → Except LoadError Bool
  | .bool b => .ok b
  | _ => .error (.problem (.notABool key))

/-- One text or a list of texts. -/
def asStrings (key : Text) : Json → Except LoadError (List Text)
  | .str s => .ok [s]
  | .arr items =>
    let text? : Json → Option Text
      | .str s => some s
      | _ => none
    match items.mapM text? with
    | some texts => .ok texts
    | none => .error (.problem (.notStrings key))
  | _ => .error (.problem (.notStrings key))

/-- An object whose values are taken in their display form. -/
def asTextMap (key : Text) : Json → Except LoadError (OrderedMap Text Text)
  | .obj members => .ok (.ofList (members.map fun m => (m.1, m.2.text)))
  | _ => .error (.problem (.notAnObject key))

/-- A text, or null for none. -/
def asOptionalString (key : Text) : Json → Except LoadError (Option Text)
  | .null => .ok none
  | v => (asString key v).map some

/-! ## Settings -/

/-- A setting with its two spellings and its effect on a configuration. -/
structure Field where
  name : Text
  camelName : Text
  /-- Reads the value that stands under a key and puts it into a configuration. -/
  apply : (key : Text) → Json → Config → Except LoadError Config

/-- A setting whose value is read by one function and stored by another. -/
def Field.make {α : Type} (name camelName : Text) (read : Text → Json → Except LoadError α)
    (store : Config → α → Config) : Field :=
  ⟨name, camelName, fun key v c => (read key v).map (store c)⟩

/-- The settings in the order in which they are read. -/
def fields : List Field := [
  .make "unit" "unit" asString fun c v => { c with unit := v },
  .make "watch_patterns" "watchDirs" asStrings fun c v => { c with watchPatterns := v },
  .make "output_dir" "outputDir" asString fun c v => { c with outputDir := v },
  .make "output_file_name" "outputFileName" asString fun c v => { c with outputFileName := v },
  .make "batch_base_delay" "batchBaseDelay" asInt fun c v => { c with batchBaseDelay := v },
  .make "batch_delay_per_file" "batchDelayPerFile" asInt fun c v =>
    { c with batchDelayPerFile := v },
  .make "max_batch_delay" "maxBatchDelay" asInt fun c v => { c with maxBatchDelay := v },
  .make "max_retries" "maxRetries" asInt fun c v => { c with maxRetries := v },
  .make "retry_delay" "retryDelay" asInt fun c v => { c with retryDelay := v },
  .make "retry_backoff_factor" "retryBackoffFactor" asFloat
    fun c v => { c with retryBackoffFactor := v },
  .make "minify" "minify" asBool fun c v => { c with minify := v },
  .make "existing_css_files" "existingCssFiles" asStrings fun c v =>
    { c with existingCssFiles := v },
  .make "ignore_existing_classes" "ignoreExistingClasses" asBool
    fun c v => { c with ignoreExistingClasses := v },
  .make "banner" "banner" asString fun c v => { c with banner := v },
  .make "footer" "footer" asString fun c v => { c with footer := v },
  .make "split_namespaces" "splitNamespaces" asTextMap fun c v => { c with splitNamespaces := v },
  .make "scan_workers" "scanWorkers" asInt fun c v => { c with scanWorkers := v },
  .make "poll_interval" "pollInterval" asFloat fun c v => { c with pollInterval := v },
  .make "log_file" "logFile" asOptionalString fun c v => { c with logFile := v }]

/-- The names for values. Those of the configuration replace and extend the default ones. -/
def valueMapField : Field :=
  .make "value_map" "valueMap" asTextMap fun c v => { c with valueMap := c.valueMap.merge v }

/-- The member that sets a field, if there is one. -/
def Field.find? (f : Field) (members : List (Text × Json)) :
    Except LoadError (Option (Text × Json)) :=
  match Json.get? f.name members, Json.get? f.camelName members with
  | some v, none => .ok (some (f.name, v))
  | none, some v => .ok (some (f.camelName, v))
  | none, none => .ok none
  | some v, some _ =>
    if f.name = f.camelName then .ok (some (f.name, v))
    else .error (.problem (.bothSpellings f.name f.camelName))

/-- Puts a field into a configuration if a member sets it. -/
def Field.update (f : Field) (members : List (Text × Json)) (c : Config) :
    Except LoadError Config := do
  match ← f.find? members with
  | some (key, v) => f.apply key v c
  | none => return c

/-- The rules that some members define, and the prefixes that they remove. -/
def readRules : List (Text × Json) → Except LoadError (List Rule × List Text)
  | [] => .ok ([], [])
  | (p, .null) :: rest => do
    let (rules, removed) ← readRules rest
    return (rules, p :: removed)
  | (p, .obj members) :: rest => do
    let r ← (Rule.Spec.toRule p members).mapError .rule
    let (rules, removed) ← readRules rest
    return (r :: rules, removed)
  | (p, _) :: _ => .error (.problem (.ruleNotAnObject p))

/-- Puts the rules of a configuration into it. -/
def updateRules (members : List (Text × Json)) (c : Config) : Except LoadError Config :=
  match Json.get? "rules" members with
  | none => .ok c
  | some .null => .ok c
  | some (.obj specs) => do
    let (rules, removed) ← readRules specs
    return { c with rules := (c.rules.merge (.ofRules rules)).without removed }
  | some _ => .error (.problem (.notAnObject "rules"))

/-- The configuration that a JSON value describes. -/
def ofJson (root : Path) : Json → Except LoadError Config
  | .obj members => do
    let c ← fields.foldlM (fun c f => f.update members c) { root }
    let c ← updateRules members c
    valueMapField.update members c
  | _ => .error (.problem .rootNotAnObject)

/-! ## Files -/

/-- The path with the home directory of a user in place of a name behind a tilde in front. -/
def expandHome (d : Disk) (p : Path) : Except LoadError Path :=
  match p.anchor, p.parts with
  | .none, part :: rest =>
    match Text.afterText? "~" part with
    | none => .ok p
    | some user =>
      match d.homes.get? user with
      | some home => .ok ⟨home.anchor, home.parts ++ rest⟩
      | none => .error .noHome
  | _, _ => .ok p

/-- The absolute path of the configuration file that a path names: the file itself, or the one in a
directory. -/
def filePath (d : Disk) (p : Path) : Except LoadError Path := do
  let p ← expandHome d p
  let found ← (d.look p).mapError .disk
  (d.resolve (if found = some .folder then p / fileName else p)).mapError .disk

/-- The error for a text that cannot be read. -/
def readError (file : Path) (text : Text) : Json.ReadError → LoadError
  | .malformed flaw offset => .problem (.malformed file.name flaw (Json.placeText text offset))
  | .duplicateKey key => .problem (.duplicateKey key)
  | .integerTooLong digits => .integerTooLong digits
  | .nestedTooDeep call => .nestedTooDeep call

/-- The configuration that a text describes. A blank text describes the defaults. -/
def ofText (file : Path) (text : Text) : Except LoadError Config := do
  if Text.isBlankText text then return { root := file.parent }
  let v ← (Json.read .distinct text).mapError (readError file text)
  ofJson file.parent v

/-- Loads the configuration at a path. A file that is missing means the defaults. -/
def load (d : Disk) (p : Path) : Except LoadError Config := do
  let file ← filePath d p
  let found ← (d.look file).mapError .disk
  if found.isNone then return { root := file.parent }
  match d.content file with
  | .error e => throw (if e.isSystem then .problem (.unreadable file e) else .disk e)
  | .ok bytes =>
    let text ← (Text.Utf8.decodeStrict bytes).mapError .encoding
    ofText file (Text.ofFile text)

/-- Loads the configuration at a path. A problem with the file is reported, and answered with the
defaults. -/
def loadOrDefault (d : Disk) (p : Path) : Except LoadError Config × Journal :=
  match load d p with
  | .error (.problem problem) =>
    let line := "Failed to load config file: " ++ problem.message
    ((filePath d p).map fun file => { root := file.parent }, [.line ⟨.warning, line⟩])
  | r => (r, [])

end UtilityCss.Config
