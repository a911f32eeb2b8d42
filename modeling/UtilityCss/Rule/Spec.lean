import UtilityCss.Json.Basic
import UtilityCss.Rule
/-!
# Rules from configuration values

A rule is configured by an object with the members `property` (or `properties`), `value`, `unit`,
`valueMap` and `isColor`; the last two also in words joined by underscores. A value map may be given
as an object or as a list of pairs. Values that are no texts are taken in their display form.
-/

namespace UtilityCss

/-- Why a value does not describe a rule. -/
inductive SpecError where
  /-- A list was needed. -/
  | notIterable (kind : Text)
  /-- An entry of a list of pairs is no list. -/
  | notASequence (index : Nat)
  /-- An entry of a list of pairs has not two items. -/
  | notAPair (index length : Nat)
  /-- A list or an object cannot be a key. -/
  | unhashableKey (kind : Text)
  /-- An object was needed. -/
  | notAnObject (kind member : Text)
  deriving DecidableEq, Repr

/-- The text of the error. -/
def SpecError.message : SpecError → Text
  | .notIterable kind => "'" ++ kind ++ "' object is not iterable"
  | .notASequence index =>
    s!"cannot convert dictionary update sequence element #{index} to a sequence"
  | .notAPair index length =>
    s!"dictionary update sequence element #{index} has length {length}; 2 is required"
  | .unhashableKey kind => "unhashable type: '" ++ kind ++ "'"
  | .notAnObject kind member => "'" ++ kind ++ "' object has no attribute '" ++ member ++ "'"

namespace Rule.Spec

/-- The items of a value: the characters of a text, the items of a list, the keys of an object. -/
def items? : Json → Option (List Json)
  | .str s => some (s.toList.map fun c => .str (Text.ofList [c]))
  | .arr items => some items
  | .obj members => some (members.map fun m => .str m.1)
  | _ => none

/-- The properties: one text, or the display forms of several items. -/
def properties : Json → Except SpecError (List Text)
  | .str s => .ok [s]
  | v =>
    match items? v with
    | some items => .ok (items.map Json.text)
    | none => .error (.notIterable v.kindName)

/-- The number that a scalar equals, where truth values count as zero and one. -/
def integer? : Json → Option Int
  | .bool b => some (if b then 1 else 0)
  | .int i => some i
  | .float x =>
    match Binary64.truncate x with
    | .ok i => if Binary64.intLt i x || x < 0.0 && Binary64.intLt (-i) (-x) then none else some i
    | .error _ => none
  | _ => none

/-- Whether two scalars are the same key. Numbers are compared by value. -/
def sameKey (a b : Json) : Bool :=
  match integer? a, integer? b with
  | some i, some j => i == j
  | none, none =>
    match a, b with
    | .null, .null => true
    | .str s, .str t => s == t
    | .float x, .float y => x == y
    | _, _ => false
  | _, _ => false

/-- Gives a key a value: the same key keeps its place and its spelling. -/
def insertPair (key value : Json) : List (Json × Json) → List (Json × Json)
  | [] => [(key, value)]
  | (k, v) :: rest =>
    if sameKey k key then (k, value) :: rest else (k, v) :: insertPair key value rest

/-- The pairs of a list of pairs, the first of which has the given index. -/
def pairsFrom (index : Nat) (found : List (Json × Json)) :
    List Json → Except SpecError (List (Json × Json))
  | [] => .ok found
  | entry :: rest =>
    match items? entry with
    | none => .error (.notASequence index)
    | some [key, value] =>
      match key with
      | .arr _ | .obj _ => .error (.unhashableKey key.kindName)
      | _ => pairsFrom (index + 1) (insertPair key value found) rest
    | some items => .error (.notAPair index items.length)

/-- The pairs of a value map. -/
def pairs : Json → Except SpecError (List (Json × Json))
  | .obj members => .ok (members.map fun m => (.str m.1, m.2))
  | v =>
    match items? v with
    | some items => pairsFrom 0 [] items
    | none => .error (.notIterable v.kindName)

/-- A value map. A value that counts as not set is an empty one. -/
def valueMap (v : Json) : Except SpecError ValueMap :=
  if v.isSet then (pairs v).map fun ps => OrderedMap.ofList (ps.map fun p => (p.1.text, p.2.text))
  else .ok .empty

/-- The first of two members that is there. -/
def member (members : List (Text × Json)) (name other : Text) (default : Json) : Json :=
  (Json.get? name members).getD ((Json.get? other members).getD default)

/-- The display form of a value, if there is a value. -/
def optionalText : Json → Option Text
  | .null => none
  | v => some v.text

/-- The rule that an object describes. -/
def toRule (prefixName : Text) (members : List (Text × Json)) : Except SpecError Rule := do
  let properties ← properties (member members "property" "properties" (.arr []))
  let fixedValue := optionalText (member members "value" "fixed_value" .null)
  let unit := optionalText ((Json.get? "unit" members).getD .null)
  let isColor := (member members "isColor" "is_color" (.bool false)).isSet
  let valueMap ← valueMap (member members "valueMap" "value_map" .null)
  let kind := if isColor then .color else if fixedValue.isSome then .fixed else .scalar
  return { prefixName, properties, kind, fixedValue, unit, valueMap }

/-- The rule that a value describes. -/
def ofJson (prefixName : Text) : Json → Except SpecError Rule
  | .obj members => toRule prefixName members
  | v => .error (.notAnObject v.kindName "get")

/-- The rule table that a value describes. -/
def tableOfJson : Json → Except SpecError RuleTable
  | .obj members => (members.mapM fun (p, spec) => ofJson p spec).map RuleTable.ofRules
  | v => .error (.notAnObject v.kindName "items")

end Rule.Spec

end UtilityCss
