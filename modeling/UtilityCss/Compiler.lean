import UtilityCss.ClassToken
import UtilityCss.Rule
import UtilityCss.Text.Basic
/-!
# Compiling class names

Class names are compiled to rules of a stylesheet.
-/

namespace UtilityCss

/-! ## Generated rules

A generated rule is one block of the stylesheet: the selector of a class and its declarations. It is
written on several lines with indented declarations, or on one line in the compact form. -/

/-- A CSS declaration such as `margin: 4px`. -/
structure Declaration where
  property : Text
  value : Text
  deriving DecidableEq, Repr

/-- The rule that was generated for a class name. -/
structure CssRule where
  className : Text
  selector : Text
  declarations : List Declaration
  deriving DecidableEq, Repr

namespace CssRule

/-- The compact form, without blanks that are not needed. -/
def compact (r : CssRule) : Text :=
  r.selector ++ "\x7b" ++
    Text.join (r.declarations.map fun d => d.property ++ ":" ++ d.value ++ ";") ++ "\x7d"

/-- The readable form, with one declaration on a line. -/
def pretty (r : CssRule) : Text :=
  r.selector ++ " \x7b\n" ++
    Text.intercalate "\n"
      (r.declarations.map fun d => "  " ++ d.property ++ ": " ++ d.value ++ ";") ++
    "\n\x7d"

/-- The text of a rule in one of its two forms. -/
def render (r : CssRule) (minify : Bool) : Text := if minify then r.compact else r.pretty

end CssRule

/-! ## Compiling class names

A compiler turns class names into generated rules with a rule table, a map of names for values and a
default unit. It remembers every answer, also that a name is not recognised, and counts how often it
could answer from memory. -/

/-- What the meaning of class names depends on. -/
structure Vocabulary where
  rules : RuleTable
  valueMap : ValueMap
  defaultUnit : Text

namespace Vocabulary

/-- The generated rule of a class name, if the name is recognised. A sign is put in front of the
value, and every property of the rule receives the same value. -/
def compile (v : Vocabulary) (name : Text) : Option CssRule :=
  match ClassToken.ofName? name with
  | none => none
  | some token =>
    match v.rules.lookup? token.base with
    | none => none
    | some (rule, raw) =>
      if rule.properties.isEmpty then none
      else
        match rule.resolve v.valueMap v.defaultUnit raw with
        | none => none
        | some value =>
          let signed := if token.negative then "-" ++ value else value
          some ⟨name, token.selector, rule.properties.map fun p => ⟨p, signed⟩⟩

end Vocabulary

/-- A vocabulary with the answers given so far. -/
structure Compiler where
  vocabulary : Vocabulary
  cache : OrderedMap Text (Option CssRule)
  hits : Nat
  misses : Nat

namespace Compiler

/-- A compiler that has not been asked yet. -/
def new (v : Vocabulary) : Compiler := ⟨v, .empty, 0, 0⟩

/-- Answers from memory if the name was asked before, and remembers the answer otherwise. -/
def compile (c : Compiler) (name : Text) : Option CssRule × Compiler :=
  match c.cache.get? name with
  | some answer => (answer, { c with hits := c.hits + 1 })
  | none =>
    let answer := c.vocabulary.compile name
    (answer, { c with cache := c.cache.insert name answer, misses := c.misses + 1 })

/-- The rules of the recognised names, in their order. -/
def compileMany (c : Compiler) : List Text → List CssRule × Compiler
  | [] => ([], c)
  | name :: names =>
    let (answer, c) := c.compile name
    let (rules, c) := c.compileMany names
    (answer.toList ++ rules, c)

end Compiler

end UtilityCss
