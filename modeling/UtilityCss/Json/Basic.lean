import UtilityCss.Decimal.Written
import UtilityCss.Text.Quoted
/-!
# JSON values

A JSON value as the configuration needs it: integers of any size are told apart from numbers with a
fraction or an exponent, the non-finite numbers are admitted, and the members of an object keep
their order. This module also holds the display form of values, which becomes the text of a CSS
value when a configuration gives a number or another value where a text is expected.
-/

namespace UtilityCss

/-- A decoded JSON value. -/
inductive Json where
  | null
  | bool (value : Bool)
  | int (value : Int)
  | float (value : Float)
  | str (value : Text)
  | arr (items : List Json)
  | obj (members : List (Text × Json))
  deriving Inhabited

namespace Json

/-- The name that messages use for the kind of a value. -/
def kindName : Json → Text
  | null => "NoneType"
  | bool _ => "bool"
  | int _ => "int"
  | float _ => "float"
  | str _ => "str"
  | arr _ => "list"
  | obj _ => "dict"

/-- The display form of a truth value. -/
def boolText (b : Bool) : Text := if b then "True" else "False"

mutual

/-- The display form of a value inside a list or an object, where texts are quoted. -/
def nestedText : Json → Text
  | null => "None"
  | bool b => boolText b
  | int i => toString i
  | float x => Decimal.floatText x
  | str s => Text.quoted s
  | arr items => "[" ++ Text.intercalate ", " (itemTexts items) ++ "]"
  | obj members => "\x7b" ++ Text.intercalate ", " (memberTexts members) ++ "\x7d"

/-- The display forms of the items of a list. -/
def itemTexts : List Json → List Text
  | [] => []
  | v :: vs => nestedText v :: itemTexts vs

/-- The display forms of the members of an object. -/
def memberTexts : List (Text × Json) → List Text
  | [] => []
  | (k, v) :: rest => (Text.quoted k ++ ": " ++ nestedText v) :: memberTexts rest

end

/-- The display form of a value: a text stands for itself. -/
def text : Json → Text
  | str s => s
  | v => nestedText v

/-- The value of a member. -/
def get? (key : Text) (members : List (Text × Json)) : Option Json :=
  (members.find? fun m => m.1 = key).map Prod.snd

/-- Whether a value counts as set: not null, false, zero or empty. -/
def isSet : Json → Bool
  | null => false
  | bool b => b
  | int i => i != 0
  | float x => x != 0.0
  | str s => s != ""
  | arr items => !items.isEmpty
  | obj members => !members.isEmpty

end Json

end UtilityCss

/-! ## Writing JSON

The text of a JSON value without blanks, in ASCII: every other character is written as an escape, as
a pair of escapes if it is above U+FFFF. The non-finite numbers have names, as they have for the
reader. -/

namespace UtilityCss.Json

/-- An escape of four hexadecimal digits. -/
def unitEscape (unit : Nat) : String := "\\u" ++ Text.hexDigits 4 unit

/-- A code point inside quotes. -/
def writtenPoint (c : CodePoint) : String :=
  let n := c.toNat
  if c = '"' then "\\\""
  else if c = '\\' then "\\\\"
  else if 0x20 ≤ n && n < 0x7F then String.singleton c.toChar
  else if n < 0x10000 then unitEscape n
  else unitEscape (0xD7C0 + n / 0x400) ++ unitEscape (0xDC00 + n % 0x400)

/-- A text in quotes. -/
def writtenText (s : Text) : String := "\"" ++ String.join (s.toList.map writtenPoint) ++ "\""

/-- A number that is no integer. -/
def writtenFloat (x : Float) : String :=
  match Binary64.parts x with
  | .nan => "NaN"
  | .infinite negative => if negative then "-Infinity" else "Infinity"
  | .finite .. => Decimal.floatText x

mutual

/-- The text of a value. -/
def written : Json → String
  | null => "null"
  | bool b => if b then "true" else "false"
  | int i => toString i
  | float x => writtenFloat x
  | str s => writtenText s
  | arr items => "[" ++ ",".intercalate (writtenItems items) ++ "]"
  | obj members => "\x7b" ++ ",".intercalate (writtenMembers members) ++ "\x7d"

/-- The texts of the items of a list. -/
def writtenItems : List Json → List String
  | [] => []
  | v :: vs => written v :: writtenItems vs

/-- The texts of the members of an object. -/
def writtenMembers : List (Text × Json) → List String
  | [] => []
  | (k, v) :: rest => (writtenText k ++ ":" ++ written v) :: writtenMembers rest

end

end UtilityCss.Json
