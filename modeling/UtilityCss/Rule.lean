import UtilityCss.OrderedMap
import UtilityCss.Text.Words
/-!
# Rules and rule tables

A class name is read under the rule that its prefix has in a table.
-/

namespace UtilityCss

/-! ## Rules

A rule says which CSS properties the classes of one prefix set and how the value part of a class
name becomes a CSS value. There are three kinds of rules, and the kind is settled when the rule is
made: a colour rule takes hexadecimal colours and mapped names only, a fixed rule has one value
whatever the class says, and a scalar rule takes mapped names, numbers with a unit, and keywords. -/

/-- Names that stand for CSS values. -/
abbrev ValueMap := OrderedMap Text Text

/-- How a rule finds its CSS value. -/
inductive RuleKind where
  | color
  | fixed
  | scalar
  deriving DecidableEq, Repr

/-- The name of a kind. -/
def RuleKind.name : RuleKind → Text
  | .color => "color"
  | .fixed => "fixed"
  | .scalar => "scalar"

/-- What the classes of one prefix mean. -/
structure Rule where
  prefixName : Text
  /-- The CSS properties that receive the value. -/
  properties : List Text
  kind : RuleKind
  /-- The value of a fixed rule. -/
  fixedValue : Option Text
  /-- The unit of plain numbers; the configured unit is used if there is none. -/
  unit : Option Text
  /-- The rule's own names for values. -/
  valueMap : ValueMap
  deriving DecidableEq

namespace Rule

/-- Whether two rules mean the same: they agree in everything but the order of their value maps. -/
def agrees (r r' : Rule) : Bool :=
  r.prefixName == r'.prefixName && r.properties == r'.properties && r.kind == r'.kind &&
    r.fixedValue == r'.fixedValue && r.unit == r'.unit && r.valueMap.sameEntries r'.valueMap

/-- A hexadecimal colour: a number sign with three or six digits. -/
def isHexColor (s : Text) : Bool :=
  match Text.withoutFinalNewline s.toList with
  | .char '#' :: digits => digits.all Text.isHexDigit && (digits.length == 3 || digits.length == 6)
  | _ => false

/-- A number without a sign: digits with a point among or around them. -/
def isNumeric (s : Text) : Bool :=
  let cs := Text.withoutFinalNewline s.toList
  let whole := cs.takeWhile Text.isDecimalDigit
  match cs.dropWhile Text.isDecimalDigit with
  | [] => !whole.isEmpty
  | c :: fraction =>
    c == '.' && fraction.all Text.isDecimalDigit && !(whole.isEmpty && fraction.isEmpty)

/-- The CSS value of the value part `raw` under a rule, if it has one. The rule's own names go
before the global ones. -/
def resolve (r : Rule) (globalMap : ValueMap) (defaultUnit raw : Text) : Option Text :=
  match r.kind with
  | .color =>
    if isHexColor raw then some raw else (r.valueMap.get? raw).or (globalMap.get? raw)
  | .fixed => r.fixedValue
  | .scalar =>
    match (r.valueMap.get? raw).or (globalMap.get? raw) with
    | some value => some value
    | none => some (if isNumeric raw then raw ++ r.unit.getD defaultUnit else raw)

end Rule

/-! ## Rule tables

A rule table holds the rules by their prefixes. A class name belongs to the rule with the longest
prefix that is followed by a dash and a value, so `border-t-2` is read under `border-t` where that
prefix exists and under `border` where it does not. -/

/-- Rules by prefix, in the order in which they were defined. -/
structure RuleTable where
  rules : OrderedMap Text Rule

namespace RuleTable

/-- The table of some rules, each under its own prefix. -/
def ofRules (rules : List Rule) : RuleTable :=
  ⟨OrderedMap.ofList (rules.map fun r => (r.prefixName, r))⟩

/-- The prefixes in the order of their definition. -/
def prefixes (t : RuleTable) : List Text := t.rules.keys

/-- The rule of a prefix. -/
def get? (t : RuleTable) (p : Text) : Option Rule := t.rules.get? p

/-- The rules with their prefixes, the longest prefix first, those of one length in the order of
their definition. -/
def longestFirst (t : RuleTable) : List (Text × Rule) :=
  t.rules.entries.mergeSort fun e f => f.1.length ≤ e.1.length

/-- The value part of a base that belongs to a prefix. -/
def valueAfter? (p base : Text) : Option Text :=
  match Text.afterText? (p ++ "-") base with
  | some value => if value.isEmpty then none else some value
  | none => none

/-- The rule of a base and its value part, under the longest prefix that leaves a value. -/
def lookup? (t : RuleTable) (base : Text) : Option (Rule × Text) :=
  t.longestFirst.findSome? fun (p, r) => (valueAfter? p base).map fun value => (r, value)

/-- The rule is one of the table, and the value part is a piece of the base. -/
theorem of_lookup?_eq_some {t : RuleTable} {base raw : Text} {r : Rule}
    (h : t.lookup? base = some (r, raw)) :
    r ∈ t.rules.values ∧ ∀ c ∈ raw.toList, c ∈ base.toList := by
  obtain ⟨⟨p, r'⟩, hentry, hvalue⟩ := List.exists_of_findSome?_eq_some h
  simp only [Option.map_eq_some_iff, Prod.mk.injEq] at hvalue
  obtain ⟨raw', hraw, rfl, rfl⟩ := hvalue
  refine ⟨List.mem_map_of_mem (f := Prod.snd) ((List.mergeSort_perm _ _).mem_iff.1 hentry), ?_⟩
  unfold valueAfter? at hraw
  split at hraw
  · next behind hafter =>
    simp only [Option.ite_none_left_eq_some, Option.some.injEq] at hraw
    obtain ⟨-, rfl⟩ := hraw
    obtain ⟨cs, hcs, rfl⟩ := Option.map_eq_some_iff.1 hafter
    rw [Text.after?_eq_some_iff.1 hcs]
    exact fun c hc => List.mem_append_right _ hc
  · contradiction

/-- If one prefix alone fits a base, the order of the prefixes does not matter. -/
theorem lookup?_of_only {t : RuleTable} {base : Text} {found : Rule × Text}
    (h : t.rules.entries.filterMap
      (fun (p, r) => (valueAfter? p base).map fun value => (r, value)) =
      [found]) : t.lookup? base = some found := by
  have hperm := (List.mergeSort_perm t.rules.entries fun e f => f.1.length ≤ e.1.length).filterMap
    (fun (p, r) => (valueAfter? p base).map fun value => (r, value))
  rw [h, List.perm_singleton] at hperm
  rw [lookup?, longestFirst, ← List.head?_filterMap, hperm, List.head?_cons]

/-- The table with the rules of another replacing and extending its own. -/
def merge (t overrides : RuleTable) : RuleTable := ⟨t.rules.merge overrides.rules⟩

/-- The table without the rules of the given prefixes. -/
def without (t : RuleTable) (ps : List Text) : RuleTable :=
  ⟨t.rules.filter fun p _ => !ps.contains p⟩

/-- A short description of the table. -/
def summary (t : RuleTable) : Text := s!"RuleTable(prefixes={t.rules.size})"

end RuleTable

end UtilityCss
