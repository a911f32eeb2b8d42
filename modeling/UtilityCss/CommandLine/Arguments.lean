import UtilityCss.CommandLine.Command
import UtilityCss.Text.Basic
import UtilityCss.Text.Quoted
import UtilityCss.Text.Words
/-!
# Reading arguments

Arguments are told apart into options, their values, and the rest. Where an option or a command is
unknown, the message names those that are similar.
-/

namespace UtilityCss.Text

/-! ## Similar texts

How alike two texts are is measured by their common blocks: the longest one, and then those on its
left and on its right. The similarity is the part of all characters that lies in common blocks. -/

/-- The length of the common beginning of two texts. -/
def commonLength : List CodePoint → List CodePoint → Nat
  | a :: as, b :: bs => if a = b then commonLength as bs + 1 else 0
  | _, _ => 0

/-- A block that two texts have in common: where it starts in each, and its length. -/
structure CommonBlock where
  left : Nat
  right : Nat
  length : Nat

/-- The longest common block. Among blocks of one length the leftmost counts, first in `as` and then
in `bs`. -/
def longestBlock (as bs : List CodePoint) : CommonBlock :=
  let starts := (List.range as.length).flatMap fun i => (List.range bs.length).map fun j => (i, j)
  starts.foldl (fun best (i, j) =>
    let length := commonLength (as.drop i) (bs.drop j)
    if best.length < length then ⟨i, j, length⟩ else best) ⟨0, 0, 0⟩

/-- The number of characters in common blocks; `depth` bounds how often texts are cut at a block. -/
def matchedWithin : (depth : Nat) → List CodePoint → List CodePoint → Nat
  | 0, _, _ => 0
  | depth + 1, as, bs =>
    let block := longestBlock as bs
    if block.length = 0 then 0
    else
      matchedWithin depth (as.take block.left) (bs.take block.right) + block.length +
        matchedWithin depth (as.drop (block.left + block.length))
          (bs.drop (block.right + block.length))

/-- The number of characters in common blocks. -/
def matched (s t : Text) : Nat := matchedWithin s.length s.toList t.toList

/-- Whether at least three fifths of the characters of both texts lie in common blocks. -/
def isSimilar (s t : Text) : Bool := 3 * (s.length + t.length) ≤ 10 * matched s t

/-- The candidates that are similar to a text, at most three, in alphabetical order. The most
similar ones are taken. -/
def similarTo (t : Text) (candidates : List Text) : List Text :=
  let closer (a b : Text) : Bool :=
    let left := matched a t * (b.length + t.length)
    let right := matched b t * (a.length + t.length)
    if left = right then b.le a else right ≤ left
  (((candidates.filter (isSimilar · t)).mergeSort closer).take 3).mergeSort le

end UtilityCss.Text

/-! ## Reading arguments

Arguments that start with a dash are options, up to a double dash behind which nothing is an option
any more. A value is the next argument, whatever it looks like, or stands behind an equals sign. In
front of a command the first argument that is no option ends the options; behind a command options
and other arguments may be mixed. -/

namespace UtilityCss.CommandLine

/-- Why arguments make no sense. -/
inductive UsageError where
  | noSuchOption (name : Text) (similar : List Text)
  | needsValue (name : Text)
  | takesNoValue (name : Text)
  | noSuchCommand (name : Text) (similar : List Text)
  | noCommand
  | noClassNames
  | extraArguments (args : List Text)
  deriving DecidableEq, Repr

namespace UsageError

/-- A question after names that may have been meant. -/
def suggestion (similar : List Text) : Text :=
  match similar with
  | [] => ""
  | [name] => " Did you mean " ++ Text.quoted name ++ "?"
  | names =>
    let list := Text.intercalate ", " (names.map Text.quoted)
    " (Did you mean one of: " ++ list ++ "?)"

/-- The text of the error. -/
def message : UsageError → Text
  | noSuchOption name similar => "No such option " ++ Text.quoted name ++ "." ++ suggestion similar
  | needsValue name => "Option " ++ Text.quoted name ++ " requires an argument."
  | takesNoValue name => "Option " ++ Text.quoted name ++ " does not take a value."
  | noSuchCommand name similar =>
    "No such command " ++ Text.quoted name ++ "." ++ suggestion similar
  | noCommand => "Missing command."
  | noClassNames => "Missing argument 'CLASS_NAMES...'."
  | extraArguments args =>
    let list := Text.intercalate " " args
    if args.length = 1 then "Got unexpected extra argument (" ++ list ++ ")"
    else "Got unexpected extra arguments (" ++ list ++ ")"

/-- Whether the usage line is shown with the error. It is not where the value of an option is
wrong. -/
def showsUsage : UsageError → Bool
  | needsValue _ | takesNoValue _ => false
  | _ => true

end UsageError

/-- Options that were set, in their order, and the other arguments. -/
structure Arguments where
  settings : List Setting
  rest : List Text

/-- An option with an equals sign and a value behind it. -/
def splitValue (arg : Text) : Text × Option Text :=
  let name := arg.toList.takeWhile (· != .char '=')
  match arg.toList.dropWhile (· != .char '=') with
  | [] => (arg, none)
  | _ :: value => (Text.ofList name, some (Text.ofList value))

/-- The error for an option that is not known. Where only one dash is in front, the first letter is
taken for the option. -/
def unknownOption (spellings : List (Text × Spelling)) (arg name : Text) : UsageError :=
  if Text.startsWith arg "--" then .noSuchOption name (Text.similarTo name (spellings.map Prod.fst))
  else .noSuchOption (Text.ofList (arg.toList.take 2)) []

/-- Reads arguments. With `mixed`, options may follow other arguments. -/
def readArguments (spellings : List (Text × Spelling)) (mixed : Bool) :
    List Text → Except UsageError Arguments
  | [] => .ok ⟨[], []⟩
  | arg :: args =>
    if arg == "--" then .ok ⟨[], args⟩
    else if Text.startsWith arg "-" && arg != "-" then
      let (name, value) := splitValue arg
      let more (setting : Setting)
          (r : Except UsageError Arguments) : Except UsageError Arguments :=
        r.map fun as => { as with settings := setting :: as.settings }
      match spellings.lookup name, value with
      | none, _ => .error (unknownOption spellings arg name)
      | some (.plain setting), none => more setting (readArguments spellings mixed args)
      | some (.plain _), some _ => .error (.takesNoValue name)
      | some (.valued set), some value => more (set value) (readArguments spellings mixed args)
      | some (.valued set), none =>
        match args with
        | [] => .error (.needsValue name)
        | value :: args => more (set value) (readArguments spellings mixed args)
    else if mixed then
      (readArguments spellings mixed args).map fun as => { as with rest := arg :: as.rest }
    else .ok ⟨[], arg :: args⟩

/-- The spellings of options. -/
def spellingsOf (choices : List Choice) : List (Text × Spelling) := choices.flatMap Choice.spellings

/-- Reads the arguments behind a command. -/
def Command.readArguments (c : Command) (args : List Text) : Except UsageError Arguments :=
  CommandLine.readArguments (spellingsOf c.choices) true args

/-- Checks the arguments of a command that are no options. -/
def Command.check (c : Command) (rest : List Text) : Except UsageError Unit :=
  if c.takesClassNames then (if rest.isEmpty then .error .noClassNames else .ok ⟨⟩)
  else if rest.isEmpty then .ok ⟨⟩ else .error (.extraArguments rest)

end UtilityCss.CommandLine
