import UtilityCss.Limits
import UtilityCss.Stylesheet.Source
import UtilityCss.Text.LowerCase
import UtilityCss.Text.Quoted
import UtilityCss.Text.Words
/-!
# The block structure of stylesheets

A stylesheet is cut into tokens, and these are put together to a tree of blocks.
-/

namespace UtilityCss.Stylesheet

/-! ## Blocks

A stylesheet is a tree of blocks. A block has a prelude, which is a list of selectors or an at-rule,
and the blocks inside its braces; declarations and statements are not kept. -/

/-- A prelude with the blocks inside its braces. -/
structure Block where
  prelude : Text
  children : List Block

namespace Block

/-- Whether the block is an at-rule, such as `@media`, and not an ordinary rule. -/
def isAtRule (b : Block) : Bool := Text.startsWith b.prelude "@"

/-- The keyword of an at-rule in lower case, empty for ordinary rules. -/
def atKeyword (b : Block) : Text :=
  match Text.afterText? "@" b.prelude with
  | none => ""
  | some rest =>
    match Text.words rest.toList with
    | [] => ""
    | keyword :: _ => Text.lower (Text.ofList keyword)

/-- The at-rules whose braces hold no selectors of elements. -/
def opaqueKeywords : List Text :=
  ["keyframes", "-webkit-keyframes", "-moz-keyframes", "font-face", "page"]

/-- Whether what is inside the braces is not looked at for class names. -/
def isOpaque (b : Block) : Bool := b.isAtRule && opaqueKeywords.contains b.atKeyword

end Block

/-! ## Stylesheet tokens

The structure of a stylesheet is carried by braces and semicolons. Everything between them is a
prelude: a maximal run that does not start with a blank. Spaces, tabs, form feeds and line breaks
between tokens are skipped; another blank character there starts no token. -/

/-- A line and a column, both counted from one. -/
structure Place where
  line : Nat
  column : Nat
  deriving DecidableEq, Repr

/-- The place behind a character. -/
def Place.next (p : Place) (c : CodePoint) : Place :=
  if c = '\n' then ⟨p.line + 1, 1⟩ else ⟨p.line, p.column + 1⟩

/-- The tokens of a stylesheet. -/
inductive Token where
  | prelude (text : Text)
  | openBrace
  | closeBrace
  | semicolon
  /-- A blank character that may not stand between tokens. -/
  | stray (c : CodePoint)
  deriving DecidableEq, Repr

/-- A token and the place where it starts. -/
structure Located where
  token : Token
  place : Place
  deriving DecidableEq, Repr

/-- The token of a punctuation mark. -/
def punctuation? (c : CodePoint) : Option Token :=
  if c = '\x7b' then some .openBrace
  else if c = '\x7d' then some .closeBrace
  else if c = ';' then some .semicolon
  else none

/-- The characters that are skipped between tokens. -/
def isSkipped (c : CodePoint) : Bool :=
  c == ' ' || c == '\t' || c == '\x0c' || c == '\r' || c == '\n'

/-- The characters that a prelude may go on with. -/
def continuesPrelude (c : CodePoint) : Bool := (punctuation? c).isNone

/-- The tokens of a text that starts at a place. Nothing follows a stray character. -/
def tokensFrom (p : Place) : List CodePoint → List Located
  | [] => []
  | c :: cs =>
    match punctuation? c with
    | some t => ⟨t, p⟩ :: tokensFrom (p.next c) cs
    | none =>
      if isSkipped c then tokensFrom (p.next c) cs
      else if Text.isBlank c then [⟨.stray c, p⟩]
      else
        let run := c :: cs.takeWhile continuesPrelude
        ⟨.prelude (Text.ofList run), p⟩ ::
          tokensFrom (run.foldl Place.next p) (cs.dropWhile continuesPrelude)
termination_by cs => cs.length
decreasing_by
  · simp
  · simp
  · have := (List.dropWhile_sublist continuesPrelude : List.Sublist _ cs).length_le
    simp only [List.length_cons]
    omega

/-- The tokens of a text. -/
def tokens (cs : List CodePoint) : List Located := tokensFrom ⟨1, 1⟩ cs

/-! ## Reading the block structure

A stylesheet is a sequence of items. An item is a block, a statement that a semicolon ends, or a
lone semicolon. Inside braces the last declaration needs no semicolon. The parser goes through the
tokens once with a stack of the blocks that are still open. -/

/-- Why a text is no stylesheet. -/
inductive ParseError where
  /-- A brace where none is allowed. -/
  | unexpected (token : Token) (place : Place)
  /-- The text ends too early; the place is the start of its last token. -/
  | unexpectedEnd (place : Place)
  /-- A character that starts no token. -/
  | noToken (c : CodePoint) (place : Place)
  deriving DecidableEq, Repr

namespace ParseError

/-- Where the error is. -/
def place : ParseError → Place
  | unexpected _ p => p
  | unexpectedEnd p => p
  | noToken _ p => p

/-- The name and the text of a token in messages. -/
def tokenText : Token → Text
  | .prelude text => "Token('PRELUDE', " ++ Text.quoted text ++ ")"
  | .openBrace => "Token('LBRACE', '\x7b')"
  | .closeBrace => "Token('RBRACE', '\x7d')"
  | .semicolon => "Token('SEMICOLON', ';')"
  | .stray c => "Token('STRAY', " ++ Text.quoted (Text.ofList [c]) ++ ")"

/-- What is wrong, without the place in front. -/
def detail : ParseError → Text
  | unexpected t p =>
    "Unexpected token " ++ tokenText t ++ s!" at line {p.line}, column {p.column}."
  | unexpectedEnd p => s!"Unexpected token Token('$END', '') at line {p.line}, column {p.column}."
  | noToken c p =>
    "No terminal matches '" ++ Text.ofList [c] ++
      s!"' in the current parser context, at line {p.line} col {p.column}"

/-- The text of the error. -/
def message (e : ParseError) : Text :=
  s!"line {e.place.line}, column {e.place.column}: " ++ e.detail

end ParseError

/-- A block that is still open: its prelude, and in reverse order the blocks in front of it. -/
structure OpenBlock where
  prelude : Text
  before : List Block

/-- What the parser knows between two tokens. -/
structure ParserState where
  /-- The open blocks, the innermost first. -/
  stack : List OpenBlock
  /-- The blocks that are complete at this depth, in reverse order. -/
  blocks : List Block
  /-- A prelude that was read and not used yet. -/
  pending : Option Text
  /-- The start of the last token. -/
  last : Place

/-- The state before the first token. -/
def ParserState.start : ParserState := ⟨[], [], none, ⟨1, 1⟩⟩

/-- The state after a token. -/
def ParserState.step (s : ParserState) (t : Located) : Except ParseError ParserState :=
  match t.token, s.pending, s.stack with
  | .stray c, _, _ => .error (.noToken c t.place)
  | .prelude text, none, _ => .ok { s with pending := some text, last := t.place }
  | .semicolon, _, _ => .ok { s with pending := none, last := t.place }
  | .openBrace, some text, stack =>
    .ok ⟨⟨Text.collapse text, s.blocks⟩ :: stack, [], none, t.place⟩
  | .closeBrace, _, b :: below =>
    .ok ⟨below, ⟨b.prelude, s.blocks.reverse⟩ :: b.before, none, t.place⟩
  | token, _, _ => .error (.unexpected token t.place)

/-- The blocks of a stylesheet whose tokens have all been read. -/
def ParserState.finish (s : ParserState) : Except ParseError (List Block) :=
  if s.stack.isEmpty && s.pending.isNone then .ok s.blocks.reverse
    else .error (.unexpectedEnd s.last)

/-- Reads tokens up to the end. -/
def parseTokens (s : ParserState) : List Located → Except ParseError (List Block)
  | [] => s.finish
  | t :: ts =>
    match s.step t with
    | .ok s' => parseTokens s' ts
    | .error e => .error e

/-- The top-level blocks of a stylesheet. -/
def parse (source : Text) : Except ParseError (List Block) :=
  parseTokens .start (tokens (significant source))

/-! ## Nesting of blocks

Blocks may stand inside blocks, but not to any depth: a stylesheet whose blocks are nested too
deeply is well formed and refused all the same. -/

mutual

/-- How many blocks stand inside one another, the block itself included. -/
def Block.depth (b : Block) : Nat :=
  match b with
  | ⟨_, children⟩ => depthOf children + 1

/-- How many blocks stand inside one another among some blocks. -/
def depthOf : List Block → Nat
  | [] => 0
  | b :: bs => max b.depth (depthOf bs)

end

/-- Why a stylesheet is not read. -/
inductive ReadError where
  | malformed (e : ParseError)
  | nestedTooDeep
  deriving DecidableEq, Repr

/-- The top-level blocks of a stylesheet that is not nested too deeply. -/
def read (source : Text) : Except ReadError (List Block) :=
  match parse source with
  | .error e => .error (.malformed e)
  | .ok blocks => if depthOf blocks ≤ maxDepth then .ok blocks else .error .nestedTooDeep

end UtilityCss.Stylesheet
