import UtilityCss.Json.Token
import UtilityCss.Limits
import UtilityCss.OrderedMap
/-!
# Reading JSON texts

The reader goes through the tokens of a text once, with a stack of the arrays and objects that are
still open. What happens to the members of an object when it is closed is a policy: all are kept,
the last value of a key is kept, or a repeated key is an error. An object is closed before anything
that follows it is looked at, so a repeated key is reported even if the text is malformed further
on.
-/

namespace UtilityCss.Json

/-- What becomes of the members of an object. -/
inductive KeyPolicy where
  /-- All members are kept as they stand. -/
  | keepAll
  /-- The last value of a key is kept, at the key's first place. -/
  | lastWins
  /-- A repeated key is an error. -/
  | distinct
  deriving DecidableEq, Repr

/-- What there is no call left for. -/
inductive DeepCall where
  /-- To read an array. -/
  | array
  /-- To read an object. -/
  | object
  /-- To look at the keys of an object. -/
  | keys
  /-- To write down a repeated key. -/
  | report
  deriving DecidableEq, Repr

/-- Why a text cannot be read. -/
inductive ReadError where
  | malformed (flaw : Flaw) (offset : Nat)
  | duplicateKey (key : Text)
  | integerTooLong (digits : Nat)
  | nestedTooDeep (call : DeepCall)
  deriving DecidableEq, Repr

/-- The first key that an earlier one equals. -/
def firstRepeated? (seen : List Text) : List Text → Option Text
  | [] => none
  | k :: ks => if k ∈ seen then some k else firstRepeated? (k :: seen) ks

/-- The object with the given members inside of `depth` open containers under a policy. Where keys
have to be distinct, the keys are looked at by a call inside the call that has read the object, and
a repeated key is written down by a call inside that one. -/
def closeObject (policy : KeyPolicy) (depth : Nat) (members : List (Text × Json)) :
    Except ReadError Json :=
  match policy with
  | .keepAll => .ok (.obj members)
  | .lastWins => .ok (.obj (OrderedMap.ofList members).entries)
  | .distinct =>
    if nestingLimit ≤ depth + 1 then .error (.nestedTooDeep .keys)
    else
      match firstRepeated? [] (members.map Prod.fst) with
      | some key =>
        .error (if nestingLimit ≤ depth + 2 then .nestedTooDeep .report else .duplicateKey key)
      | none => .ok (.obj members)

/-- An array or object that is still open, its content in reverse order. -/
inductive Frame where
  | array (items : List Json)
  | object (members : List (Text × Json)) (key : Text)

/-- What the reader is about to see. -/
inductive Expectation where
  /-- A value, or the end of an array that has just been opened. -/
  | value (mayClose : Bool)
  /-- A key of the object with these members, or its end if it has just been opened. -/
  | key (members : List (Text × Json)) (mayClose : Bool)
  /-- The colon after a key. -/
  | colon (members : List (Text × Json)) (key : Text)
  /-- What follows a complete value. -/
  | after (value : Json)

/-- The error for a token that should have started a value. -/
def valueError (t : Located) : ReadError :=
  match t.token with
  | .badString flaw offset => .malformed flaw offset
  | .longInteger digits => .integerTooLong digits
  | _ => .malformed .expectingValue t.offset

/-- The error for a token that should have been a key. -/
def keyError (t : Located) : ReadError :=
  match t.token with
  | .badString flaw offset => .malformed flaw offset
  | _ => .malformed .expectingKey t.offset

/-- Goes on with a container that one token has opened. -/
def openFrame (stack : List Frame) (call : DeepCall) (next : List Frame × Expectation) :
    Except ReadError (List Frame × Expectation) :=
  if stack.length ≥ nestingLimit then .error (.nestedTooDeep call) else .ok next

/-- The reader's state after one token. -/
def step (policy : KeyPolicy) (stack : List Frame) (expected : Expectation) (t : Located) :
    Except ReadError (List Frame × Expectation) :=
  match expected with
  | .value mayClose =>
    match t.token with
    | .string s => .ok (stack, .after (.str s))
    | .scalar v => .ok (stack, .after v)
    | .openBracket => openFrame stack .array (.array [] :: stack, .value true)
    | .openBrace => openFrame stack .object (stack, .key [] true)
    | .closeBracket =>
      match mayClose, stack with
      | true, .array items :: below => .ok (below, .after (.arr items.reverse))
      | _, _ => .error (valueError t)
    | _ => .error (valueError t)
  | .key members mayClose =>
    match t.token with
    | .string s => .ok (stack, .colon members s)
    | .closeBrace =>
      if mayClose then do return (stack, .after (← closeObject policy stack.length members.reverse))
      else .error (keyError t)
    | _ => .error (keyError t)
  | .colon members key =>
    match t.token with
    | .colon => .ok (.object members key :: stack, .value false)
    | _ => .error (.malformed .expectingColon t.offset)
  | .after v =>
    match stack with
    | [] => .error (.malformed .extraData t.offset)
    | .array items :: below =>
      match t.token with
      | .comma => .ok (.array (v :: items) :: below, .value false)
      | .closeBracket => .ok (below, .after (.arr (v :: items).reverse))
      | _ => .error (.malformed .expectingComma t.offset)
    | .object members key :: below =>
      match t.token with
      | .comma => .ok (below, .key ((key, v) :: members) false)
      | .closeBrace =>
        do return (below, .after (← closeObject policy below.length ((key, v) :: members).reverse))
      | _ => .error (.malformed .expectingComma t.offset)

/-- The value or the error at the end of a text, which lies at the offset `length`. -/
def finish (length : Nat) (stack : List Frame) : Expectation → Except ReadError Json
  | .value _ => .error (.malformed .expectingValue length)
  | .key _ _ => .error (.malformed .expectingKey length)
  | .colon _ _ => .error (.malformed .expectingColon length)
  | .after v => if stack.isEmpty then .ok v else .error (.malformed .expectingComma length)

/-- Reads tokens up to the end of the text. -/
def readTokens (policy : KeyPolicy) (length : Nat) :
    List Frame → Expectation → List Located → Except ReadError Json
  | stack, expected, [] => finish length stack expected
  | stack, expected, t :: ts =>
    match step policy stack expected t with
    | .ok (stack', expected') => readTokens policy length stack' expected' ts
    | .error e => .error e

/-- Reads a JSON text. -/
def read (policy : KeyPolicy) (text : Text) : Except ReadError Json :=
  let cs := text.toList
  if cs.head? = some (.char '\uFEFF') then .error (.malformed .byteOrderMark 0)
  else readTokens policy cs.length [] (.value false) (tokens cs)

/-- Line, column and offset of a place in a text. -/
def placeText (text : Text) (offset : Nat) : Text :=
  let before := text.toList.take offset
  let line := before.count (.char '\n') + 1
  let column := (before.reverse.takeWhile (· != .char '\n')).length + 1
  s!"line {line} column {column} (char {offset})"

/-- What was being done when there was no call left. -/
def DeepCall.message : DeepCall → Text
  | array => " while decoding a JSON array from a unicode string"
  | object => " while decoding a JSON object from a unicode string"
  | keys => ""
  | report => " while getting the repr of an object"

/-- The text of an error in reading `text`. -/
def ReadError.message (text : Text) : ReadError → Text
  | .malformed flaw offset => flaw.message ++ ": " ++ placeText text offset
  | .duplicateKey key => "Duplicate key " ++ Text.quoted key ++ " in configuration"
  | .integerTooLong digits =>
    s!"Exceeds the limit ({integerDigitLimit} digits) for integer string conversion: value has " ++
      s!"{digits} digits; use sys.set_int_max_str_digits() to increase the limit"
  | .nestedTooDeep call => "maximum recursion depth exceeded" ++ call.message

end UtilityCss.Json
