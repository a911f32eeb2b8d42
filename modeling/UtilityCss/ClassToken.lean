import UtilityCss.Text.Words
/-!
# Class tokens

A utility class name such as `-mt-4:hover` has a sign, a base and a list of pseudo-class modifiers.
The base names a rule and a value with a dash between them, so a base without a dash is no utility
class. The module also holds the way back into a stylesheet: escaping a class name for use in a
selector, and the selector of a token.
-/

namespace UtilityCss

/-- A utility class name taken apart. -/
structure ClassToken where
  /-- The name as it was written. -/
  raw : Text
  /-- Whether the name starts with a dash. -/
  negative : Bool
  /-- What stands between the sign and the first colon. -/
  base : Text
  /-- What stands between and after the colons. -/
  modifiers : List Text
  deriving DecidableEq, Repr

namespace ClassToken

/-- A modifier is a letter followed by letters and dashes. -/
def isModifier (s : Text) : Bool :=
  match s.toList with
  | [] => false
  | c :: cs =>
    Text.isAsciiLetter c &&
      (Text.withoutFinalNewline cs).all fun c => Text.isAsciiLetter c || c == '-'

/-- Takes a class name apart, if it can be a utility class at all: its base has a dash and its
modifiers are well formed. -/
def ofName? (raw : Text) : Option ClassToken :=
  let unsigned? := Text.afterText? "-" raw
  match Text.splitOnChar ':' (unsigned?.getD raw) with
  | [] => none
  | base :: modifiers =>
    if base.toList.contains '-' && modifiers.all isModifier then
      some ⟨raw, unsigned?.isSome, base, modifiers⟩
    else none

/-- What taking a name apart leaves as it is, and what it checks. -/
theorem ofName?_eq_some {raw : Text} {t : ClassToken} (h : ofName? raw = some t) :
    t.raw = raw ∧ .char '-' ∈ t.base.toList ∧ ∀ m ∈ t.modifiers, isModifier m = true := by
  simp only [ofName?] at h
  split at h
  · simp at h
  · simp only [Option.ite_none_right_eq_some, Option.some.injEq, Bool.and_eq_true] at h
    obtain ⟨⟨hbase, hmodifiers⟩, rfl⟩ := h
    exact ⟨rfl, by simpa using hbase, by simpa using hmodifiers⟩

/-- The base and the modifiers are pieces of the name. -/
theorem mem_of_ofName? {raw : Text} {t : ClassToken} {c : CodePoint} (h : ofName? raw = some t)
    (hc : c ∈ t.base.toList ∨ ∃ m ∈ t.modifiers, c ∈ m.toList) : c ∈ raw.toList := by
  simp only [ofName?] at h
  split at h
  · contradiction
  · next base modifiers hsplit =>
    simp only [Option.ite_none_right_eq_some, Option.some.injEq] at h
    obtain ⟨-, rfl⟩ := h
    -- Every piece comes from the name behind its sign, which is a piece of the name.
    obtain ⟨piece, hpiece, hmem⟩ : ∃ piece ∈ base :: modifiers, c ∈ piece.toList := by
      simpa using hc
    rw [← hsplit, Text.splitOnChar, List.mem_map] at hpiece
    obtain ⟨cs, hcs, rfl⟩ := hpiece
    have hrest := Text.mem_of_mem_splitWhere hmem hcs
    cases hsign : Text.afterText? "-" raw with
    | none => simpa [hsign] using hrest
    | some rest =>
      obtain ⟨behind, hbehind, rfl⟩ := Option.map_eq_some_iff.1 hsign
      rw [Text.after?_eq_some_iff.1 hbehind]
      rw [hsign, Option.getD_some] at hrest
      exact List.mem_append_right _ hrest

/-- A modifier has no characters but letters and dashes, and possibly a line break. -/
theorem not_mem_of_isModifier {m : Text} {c : CodePoint} (h : isModifier m = true)
    (hline : c ≠ '\n') (hc : (Text.isAsciiLetter c || c == '-') = false) : c ∉ m.toList := by
  unfold isModifier at h
  split at h
  · contradiction
  · next d cs hm =>
    rw [Bool.and_eq_true] at h
    rw [hm, List.mem_cons, not_or]
    refine ⟨?_, fun hmem => ?_⟩
    · rintro rfl
      simp [h.1] at hc
    · have hall := List.all_eq_true.1 h.2 _ (Text.mem_withoutFinalNewline hmem hline)
      rw [hc] at hall
      contradiction

/-- The characters that stand for themselves in a class selector. -/
def isPlain (c : CodePoint) : Bool :=
  Text.isAsciiLetter c || Text.isAsciiDigit c || c == '_' || c == '-' || c.toNat > 0x7F

/-- One character of a class name as it is written in a selector. -/
def escapeChar (c : CodePoint) : List CodePoint := if isPlain c then [c] else ['\\', c]

/-- A class name as it is written behind the dot of a selector. -/
def escape (name : Text) : Text := Text.ofList (name.toList.flatMap escapeChar)

/-- The selector of the elements that carry the class and are in the states of its modifiers. -/
def selector (t : ClassToken) : Text :=
  "." ++ escape t.raw ++ Text.join (t.modifiers.map (":" ++ ·))

end ClassToken

end UtilityCss
