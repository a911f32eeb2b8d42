import UtilityCss.Compiler
import UtilityCss.Output
import UtilityCss.Rule
import UtilityCss.Scheduler.Delay
/-!
# Settings

What a configuration can say, and what applies where it says nothing.
-/

namespace UtilityCss.Config

/-! ## Built-in vocabulary

The rules, names for values, unit and watch pattern that apply where the configuration says
nothing. -/

/-- The unit of plain numbers. -/
def defaultUnit : Text := "px"

/-- The source files that are watched. -/
def defaultWatchPatterns : List Text := ["src/**/*.\x7bwxml,js,vue,jsx,tsx,html\x7d"]

/-- Names for values that every rule knows. -/
def defaultValueMap : ValueMap :=
  .ofList [("auto", "auto"), ("full", "100%"), ("0", "0"), ("transparent", "transparent")]

/-- A scalar rule that uses the configured unit. -/
def scalarRule (prefixName : Text) (properties : List Text) : Rule :=
  { prefixName, properties, kind := .scalar, fixedValue := none, unit := none, valueMap := .empty }

/-- A scalar rule for numbers without a unit. -/
def unitlessRule (prefixName property : Text) : Rule :=
  { scalarRule prefixName [property] with unit := some "" }

/-- A colour rule. -/
def colorRule (prefixName property : Text) : Rule :=
  { scalarRule prefixName [property] with kind := .color }

/-- A rule with one value. -/
def fixedRule (prefixName property value : Text) : Rule :=
  { scalarRule prefixName [property] with kind := .fixed, fixedValue := some value }

/-! ## The rules by subject -/

def marginRules : List Rule := [
  scalarRule "m" ["margin"],
  scalarRule "mx" ["margin-left", "margin-right"],
  scalarRule "my" ["margin-top", "margin-bottom"],
  scalarRule "mt" ["margin-top"],
  scalarRule "mr" ["margin-right"],
  scalarRule "mb" ["margin-bottom"],
  scalarRule "ml" ["margin-left"]]

def paddingRules : List Rule := [
  scalarRule "p" ["padding"],
  scalarRule "px" ["padding-left", "padding-right"],
  scalarRule "py" ["padding-top", "padding-bottom"],
  scalarRule "pt" ["padding-top"],
  scalarRule "pr" ["padding-right"],
  scalarRule "pb" ["padding-bottom"],
  scalarRule "pl" ["padding-left"]]

def sizeRules : List Rule := [
  scalarRule "w" ["width"],
  scalarRule "h" ["height"],
  scalarRule "min-w" ["min-width"],
  scalarRule "min-h" ["min-height"],
  scalarRule "max-w" ["max-width"],
  scalarRule "max-h" ["max-height"]]

def positionRules : List Rule := [
  scalarRule "top" ["top"],
  scalarRule "right" ["right"],
  scalarRule "bottom" ["bottom"],
  scalarRule "left" ["left"],
  unitlessRule "z" "z-index"]

def typographyRules : List Rule := [
  scalarRule "fs" ["font-size"],
  scalarRule "leading" ["line-height"],
  scalarRule "tracking" ["letter-spacing"],
  unitlessRule "font" "font-weight"]

def colorRules : List Rule := [
  colorRule "bg" "background-color",
  colorRule "text" "color",
  colorRule "border-color" "border-color"]

def borderRules : List Rule := [
  scalarRule "border" ["border-width"],
  scalarRule "border-t" ["border-top-width"],
  scalarRule "border-r" ["border-right-width"],
  scalarRule "border-b" ["border-bottom-width"],
  scalarRule "border-l" ["border-left-width"]]

def radiusRules : List Rule := [
  scalarRule "rounded" ["border-radius"],
  scalarRule "rounded-t" ["border-top-left-radius", "border-top-right-radius"],
  scalarRule "rounded-r" ["border-top-right-radius", "border-bottom-right-radius"],
  scalarRule "rounded-b" ["border-bottom-left-radius", "border-bottom-right-radius"],
  scalarRule "rounded-l" ["border-top-left-radius", "border-bottom-left-radius"]]

def layoutRules : List Rule := [
  scalarRule "d" ["display"],
  scalarRule "justify" ["justify-content"],
  scalarRule "items" ["align-items"],
  scalarRule "gap" ["gap"],
  scalarRule "gap-x" ["column-gap", "gap"],
  scalarRule "gap-y" ["row-gap", "gap"],
  fixedRule "flex-col" "flex-direction" "column",
  fixedRule "flex-row" "flex-direction" "row",
  fixedRule "absolute" "position" "absolute",
  fixedRule "relative" "position" "relative"]

def effectRules : List Rule := [
  { scalarRule "shadow" ["box-shadow"] with
    valueMap := .ofList [
      ("sm", "0 1px 2px rgba(0,0,0,0.05)"),
      ("md", "0 4px 6px rgba(0,0,0,0.1)"),
      ("lg", "0 10px 15px rgba(0,0,0,0.1)"),
      ("xl", "0 20px 25px rgba(0,0,0,0.15)"),
      ("none", "none")] },
  { unitlessRule "opacity" "opacity" with valueMap := .ofList [("50", "0.5"), ("75", "0.75")] },
  scalarRule "overflow" ["overflow"],
  scalarRule "cursor" ["cursor"],
  fixedRule "transition" "transition" "all 0.3s ease"]

/-- The rules that apply without a configuration. -/
def defaultRules : RuleTable :=
  .ofRules (marginRules ++ paddingRules ++ sizeRules ++ positionRules ++ typographyRules ++
    colorRules ++ borderRules ++ radiusRules ++ layoutRules ++ effectRules)

end UtilityCss.Config

/-! ## Settings

Everything that a configuration can say, with the values that apply where it says nothing, and what
the parts of the program read from it. Relative paths are seen from the directory of the
configuration. -/

namespace UtilityCss

/-- A configuration. Delays are in milliseconds, except for the polling interval, which is in
seconds. -/
structure Config where
  root : Path
  unit : Text := Config.defaultUnit
  watchPatterns : List Text := Config.defaultWatchPatterns
  outputDir : Text := "dist/css"
  outputFileName : Text := "generated.css"
  batchBaseDelay : Int := 500
  batchDelayPerFile : Int := 50
  maxBatchDelay : Int := 2000
  maxRetries : Int := 3
  retryDelay : Int := 1000
  retryBackoffFactor : Float := 1.0
  minify : Bool := false
  rules : RuleTable := Config.defaultRules
  valueMap : ValueMap := Config.defaultValueMap
  existingCssFiles : List Text := []
  ignoreExistingClasses : Bool := true
  banner : Text := ""
  footer : Text := ""
  splitNamespaces : OrderedMap Text Text := .empty
  scanWorkers : Int := 8
  pollInterval : Float := 0.5
  logFile : Option Text := some "compiler.log"

namespace Config

/-- A path of the configuration, seen from its directory. -/
def resolve (c : Config) (path : Text) : Path := c.root / path

/-- The directory of the generated stylesheets. -/
def outputPath (c : Config) : Path := c.resolve c.outputDir

/-- The log file, which lies in the directory of the stylesheets unless its path is absolute. -/
def logPath (c : Config) : Option Path :=
  match c.logFile with
  | none => none
  | some name => if name.isEmpty then none else some (c.outputPath / name)

/-- The stylesheets whose classes are left out. -/
def existingCssPaths (c : Config) : List Path := c.existingCssFiles.map c.resolve

/-- What class names mean. -/
def vocabulary (c : Config) : Vocabulary := ⟨c.rules, c.valueMap, c.unit⟩

/-- Where generated rules go. -/
def outputSettings (c : Config) : OutputSettings where
  dir := c.outputPath
  fileName := c.outputFileName
  minify := c.minify
  banner := c.banner
  footer := c.footer
  namespaces := c.splitNamespaces

/-- How long a batch waits. -/
def batchSettings (c : Config) : BatchSettings :=
  ⟨c.batchBaseDelay, c.batchDelayPerFile, c.maxBatchDelay⟩

/-- How a failed pass is tried again. -/
def retryPolicy (c : Config) : RetryPolicy :=
  .ofSettings c.maxRetries c.retryDelay c.retryBackoffFactor

end Config

end UtilityCss
