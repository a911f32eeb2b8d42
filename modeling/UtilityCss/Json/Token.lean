import UtilityCss.Json.Basic
import UtilityCss.Text.Words
/-!
# JSON tokens

A JSON text is a sequence of punctuation marks, strings and other scalars with blank characters
between them. Reading never fails here: what cannot start a token, or a string that is not well
formed, becomes a token itself, which the reader rejects where it needs that token.
-/

namespace UtilityCss.Json

/-- What is wrong with a text at an offset. -/
inductive Flaw where
  | expectingValue
  | expectingKey
  | expectingColon
  | expectingComma
  | extraData
  | unterminatedString
  | controlCharacter
  | badEscape
  | badUnicodeEscape
  | byteOrderMark
  deriving DecidableEq, Repr

/-- The text of a flaw. -/
def Flaw.message : Flaw → Text
  | .expectingValue => "Expecting value"
  | .expectingKey => "Expecting property name enclosed in double quotes"
  | .expectingColon => "Expecting ':' delimiter"
  | .expectingComma => "Expecting ',' delimiter"
  | .extraData => "Extra data"
  | .unterminatedString => "Unterminated string starting at"
  | .controlCharacter => "Invalid control character at"
  | .badEscape => "Invalid \\escape"
  | .badUnicodeEscape => "Invalid \\uXXXX escape"
  | .byteOrderMark => "Unexpected UTF-8 BOM (decode using utf-8-sig)"

/-- The tokens of a JSON text. -/
inductive Token where
  | openBrace
  | closeBrace
  | openBracket
  | closeBracket
  | colon
  | comma
  | string (value : Text)
  /-- A literal or a number. -/
  | scalar (value : Json)
  /-- An integer with more digits than can be read. -/
  | longInteger (digits : Nat)
  /-- A string that is not well formed. -/
  | badString (flaw : Flaw) (offset : Nat)
  /-- A character that starts no token. -/
  | unknown
  deriving Inhabited

/-- A token with its offset in the text. -/
structure Located where
  token : Token
  offset : Nat
  deriving Inhabited

/-- The characters that may stand between tokens. -/
def isSeparator (c : CodePoint) : Bool := c == ' ' || c == '\t' || c == '\n' || c == '\r'

/-- The character that a short escape stands for. -/
def shortEscape? : CodePoint → Option CodePoint
  | .char '"' => some '"'
  | .char '\\' => some '\\'
  | .char '/' => some '/'
  | .char 'b' => some '\x08'
  | .char 'f' => some '\x0c'
  | .char 'n' => some '\n'
  | .char 'r' => some '\r'
  | .char 't' => some '\t'
  | _ => none

/-- The number that four hexadecimal digits write. -/
def hexQuad? (a b c d : CodePoint) : Option Nat :=
  if [a, b, c, d].all Text.isHexDigit then some (Text.hexNumber [a, b, c, d]) else none

/-- A string as far as it was read: its code points, what follows it, and the offset of that. -/
structure StringRead where
  points : List CodePoint
  rest : List CodePoint
  stop : Nat
  /-- Whether the first code point was written as an escape of four digits. -/
  escaped : Bool

/-- Puts a code point that stands for itself in front of what was read. -/
def StringRead.push (c : CodePoint) (r : StringRead) : StringRead :=
  { r with points := c :: r.points, escaped := false }

/-- Puts an escaped code point in front of what was read. Two halves of a pair that are both escaped
make one character. -/
def StringRead.pushEscape (c : CodePoint) (r : StringRead) : StringRead :=
  let joined := match c, r.points with
    | .half high, .half low :: points =>
      if r.escaped then (CodePoint.ofHalves? high low).map (· :: points) else none
    | _, _ => none
  { r with points := joined.getD (c :: r.points), escaped := true }

/-- Reads a string that starts at `start`, from behind its opening quote up to its closing one. An
escape by code point needs a character behind it. -/
def readString (start : Nat) : Nat → List CodePoint → Except (Flaw × Nat) StringRead
  | _, [] => .error (.unterminatedString, start)
  | _, [.char '\\'] => .error (.unterminatedString, start)
  | offset, .char '"' :: rest => .ok ⟨[], rest, offset + 1, false⟩
  | offset, .char '\\' :: .char 'u' :: a :: b :: c :: d :: rest =>
    match hexQuad? a b c d with
    | some n =>
      if rest.isEmpty then .error (.badUnicodeEscape, offset + 1)
      else (readString start (offset + 6) rest).map (StringRead.pushEscape (.ofNat n))
    | none => .error (.badUnicodeEscape, offset + 1)
  | offset, .char '\\' :: .char 'u' :: _ => .error (.badUnicodeEscape, offset + 1)
  | offset, .char '\\' :: c :: rest =>
    match shortEscape? c with
    | some e => (readString start (offset + 2) rest).map (StringRead.push e)
    | none => .error (.badEscape, offset)
  | offset, c :: rest =>
    if c.toNat ≤ 0x1F then .error (.controlCharacter, offset)
    else (readString start (offset + 1) rest).map (StringRead.push c)

/-- The number that a list of decimal digits writes. -/
def decimalNumber (cs : List CodePoint) : Nat :=
  cs.foldl (fun n c => n * 10 + (c.toNat - '0'.toNat)) 0

/-- The leading decimal digits of a text, and the rest. -/
def takeDigits (cs : List CodePoint) : List CodePoint × List CodePoint :=
  (cs.takeWhile Text.isAsciiDigit, cs.dropWhile Text.isAsciiDigit)

/-- The digits of an integer part: a single zero, or digits that do not start with one. -/
def takeWhole : List CodePoint → Option (List CodePoint × List CodePoint)
  | .char '0' :: rest => some (['0'], rest)
  | cs => match takeDigits cs with
    | ([], _) => none
    | digits => some digits

/-- The digits behind a point, if a digit follows the point. -/
def takeFraction : List CodePoint → List CodePoint × List CodePoint
  | .char '.' :: rest => match takeDigits rest with
    | ([], _) => ([], '.' :: rest)
    | digits => digits
  | cs => ([], cs)

/-- An exponent with its sign and digits, if it has digits. -/
def takeExponent (cs : List CodePoint) : Option (Bool × List CodePoint) × List CodePoint :=
  match cs with
  | e :: rest =>
    if e == 'e' || e == 'E' then
      let (negative, digitsOn) := match rest with
        | .char '-' :: more => (true, more)
        | .char '+' :: more => (false, more)
        | more => (false, more)
      match takeDigits digitsOn with
      | ([], _) => (none, cs)
      | (digits, rest') => (some (negative, digits), rest')
    else (none, cs)
  | [] => (none, cs)

/-- The greatest number of digits that an integer may have. -/
def integerDigitLimit : Nat := 4300

/-- The characters that numbers are made of. -/
def isNumberChar (c : CodePoint) : Bool :=
  Text.isAsciiDigit c || c == '-' || c == '+' || c == '.' || c == 'e' || c == 'E'

/-- Reads a number, with a sign or without, from the start of `cs`, and returns what follows it. -/
def readNumber (cs : List CodePoint) : Option (Token × List CodePoint) := do
  let (negative, unsigned) := match cs with
    | .char '-' :: rest => (true, rest)
    | _ => (false, cs)
  let (whole, afterWhole) ← takeWhole unsigned
  let (fraction, afterFraction) := takeFraction afterWhole
  let (exponent, rest) := takeExponent afterFraction
  if fraction.isEmpty && exponent.isNone then
    let n : Int := decimalNumber whole
    let token := if whole.length > integerDigitLimit then .longInteger whole.length
      else .scalar (.int (if negative then -n else n))
    return (token, rest)
  else
    let scale : Int := match exponent with
      | some (true, digits) => -(decimalNumber digits : Int)
      | some (false, digits) => decimalNumber digits
      | none => 0
    let x :=
      Binary64.ofDecimal negative (decimalNumber (whole ++ fraction)) (scale - fraction.length)
    return (.scalar (.float x), rest)

/-- The words that stand for values. -/
def literals : List (Text × Json) :=
  [("null", .null), ("true", .bool true), ("false", .bool false),
    ("NaN", .float (Float.ofBits 0x7FF8000000000000)),
      ("Infinity", .float (Binary64.infinity false)),
    ("-Infinity", .float (Binary64.infinity true))]

/-- The value of a word at the start of `cs`, and the word's length. -/
def readLiteral (cs : List CodePoint) : Option (Json × Nat) :=
  literals.findSome? fun (word, value) =>
    if word.toList.isPrefixOf cs then some (value, word.length) else none

/-- A token at a known offset, what follows it, and the offset of that. -/
structure TokenRead where
  token : Token
  rest : List CodePoint
  stop : Nat

/-- Reads a literal or a number. A character that starts neither ends the reading. -/
def readScalar (offset : Nat) (cs : List CodePoint) : TokenRead :=
  match readLiteral cs with
  | some (value, length) => ⟨.scalar value, cs.drop length, offset + length⟩
  | none =>
    let run := cs.takeWhile isNumberChar
    match readNumber run with
    | some (token, rest) =>
      let length := run.length - rest.length
      ⟨token, cs.drop length, offset + length⟩
    | none => ⟨.unknown, [], offset⟩

/-- The first token of a text that starts with `c`. Nothing follows a token that is not well
formed. -/
def readToken (offset : Nat) (c : CodePoint) (cs : List CodePoint) : TokenRead :=
  match c with
  | .char '\x7b' => ⟨.openBrace, cs, offset + 1⟩
  | .char '\x7d' => ⟨.closeBrace, cs, offset + 1⟩
  | .char '[' => ⟨.openBracket, cs, offset + 1⟩
  | .char ']' => ⟨.closeBracket, cs, offset + 1⟩
  | .char ':' => ⟨.colon, cs, offset + 1⟩
  | .char ',' => ⟨.comma, cs, offset + 1⟩
  | .char '"' =>
    match readString offset (offset + 1) cs with
    | .ok r => ⟨.string (.ofList r.points), r.rest, r.stop⟩
    | .error (flaw, place) => ⟨.badString flaw place, [], offset⟩
  | _ => readScalar offset (c :: cs)

/-- The tokens of a text from an offset on, at most as many as the first argument says. -/
def tokensFrom : Nat → Nat → List CodePoint → List Located
  | 0, _, _ => []
  | _, _, [] => []
  | fuel + 1, offset, c :: cs =>
    if isSeparator c then tokensFrom fuel (offset + 1) cs
    else
      let r := readToken offset c cs
      ⟨r.token, offset⟩ :: tokensFrom fuel r.stop r.rest

/-- The tokens of a text. Each takes at least one character, so the length of the text bounds their
number. -/
def tokens (cs : List CodePoint) : List Located := tokensFrom (cs.length + 1) 0 cs

end UtilityCss.Json
