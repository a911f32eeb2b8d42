import UtilityCss.Stylesheet.Parser
import UtilityCss.Text.Words
/-!
# Class names in selectors

A class selector is a dot followed by the class name, in which characters may be escaped: a
backslash with one to six hexadecimal digits stands for the character with that code point and
swallows one blank behind it, and a backslash before another character stands for that character.
The class names of a stylesheet are those of all its ordinary rules, except inside at-rules that
hold no selectors.
-/

namespace UtilityCss.Stylesheet

/-- A hexadecimal escape is beyond the last code point. -/
inductive EscapeError where
  | outOfRange
  deriving DecidableEq, Repr

/-- The text of the error. -/
def EscapeError.message : EscapeError → Text
  | .outOfRange => "chr() arg not in range(0x110000)"

/-- The characters that stand for themselves in a class name. -/
def isNameChar (c : CodePoint) : Bool :=
  Text.isAsciiLetter c || Text.isAsciiDigit c || c == '_' || c == '-' || c.toNat > 0x7F

/-- Drops one blank character at the start. -/
def dropBlank : List CodePoint → List CodePoint
  | [] => []
  | c :: cs => if Text.isBlank c then cs else c :: cs

/-- The code point of the first character of a class name, as it is written at the start of a text,
and what follows it. -/
def nameUnit? : List CodePoint → Option (Nat × List CodePoint)
  | [] => none
  | c :: rest =>
    if c = '\\' then
      match (rest.take 6).takeWhile Text.isHexDigit with
      | [] =>
        match rest with
        | [] => none
        | e :: behind => if e = '\n' then none else some (e.toNat, behind)
      | digits => some (Text.hexNumber digits, dropBlank (rest.drop digits.length))
    else if isNameChar c then some (c.toNat, rest)
    else none

theorem length_dropBlank_le (cs : List CodePoint) : (dropBlank cs).length ≤ cs.length := by
  cases cs with
  | nil => simp [dropBlank]
  | cons c cs => by_cases h : Text.isBlank c <;> simp [dropBlank, h]

theorem length_nameUnit?_lt {cs rest : List CodePoint} {n : Nat}
    (h : nameUnit? cs = some (n, rest)) : rest.length < cs.length := by
  unfold nameUnit? at h
  split at h
  · simp at h
  · next c behind =>
    split at h
    · split at h
      · split at h
        · simp at h
        · split at h
          · simp at h
          · simp only [Option.some.injEq, Prod.mk.injEq] at h
            simp only [← h.2, List.length_cons]
            omega
      · simp only [Option.some.injEq, Prod.mk.injEq] at h
        rw [← h.2]
        refine Nat.lt_of_le_of_lt (length_dropBlank_le _) ?_
        simp only [List.length_drop, List.length_cons]
        omega
    · split at h
      · simp only [Option.some.injEq, Prod.mk.injEq] at h
        simp [← h.2]
      · simp at h

/-- The code points of the class name at the start of a text, and what follows it. -/
def readName (cs : List CodePoint) : List Nat × List CodePoint :=
  match _h : nameUnit? cs with
  | none => ([], cs)
  | some (n, rest) =>
    let (points, behind) := readName rest
    (n :: points, behind)
termination_by cs.length
decreasing_by exact length_nameUnit?_lt _h

theorem length_readName_le (cs : List CodePoint) : (readName cs).2.length ≤ cs.length := by
  fun_induction readName cs with
  | case1 => exact Nat.le_refl _
  | case2 cs n rest h points behind heq ih =>
    have := length_nameUnit?_lt h
    rw [heq] at ih
    simp only at ih ⊢
    omega

/-- The class names in a text, each as its code points. -/
def namesIn : List CodePoint → List (List Nat)
  | [] => []
  | c :: cs =>
    if c = '.' then
      match _h : readName cs with
      | ([], _) => namesIn cs
      | (points, behind) => points :: namesIn behind
    else namesIn cs
termination_by cs => cs.length
decreasing_by
  · simp
  · have := length_readName_le cs
    rw [_h] at this
    simp only [List.length_cons] at this ⊢
    omega
  · simp

/-- A class name from its code points, without blanks at its end. -/
def decodeName (points : List Nat) : Except EscapeError Text :=
  if points.any (0x110000 ≤ ·) then .error .outOfRange
  else .ok (Text.ofList (Text.trimEnd (points.map CodePoint.ofNat)))

/-- The class names in a list of selectors. -/
def preludeNames (prelude : Text) : Except EscapeError (List Text) :=
  (namesIn prelude.toList).mapM decodeName

mutual

/-- The preludes of the ordinary rules in a block that are not inside an opaque at-rule. -/
def Block.selectors (b : Block) : List Text :=
  match b with
  | ⟨prelude, children⟩ =>
    let block : Block := ⟨prelude, children⟩
    if block.isOpaque then []
    else if block.isAtRule then selectorsOf children
    else prelude :: selectorsOf children

/-- The preludes of the ordinary rules in some blocks. -/
def selectorsOf : List Block → List Text
  | [] => []
  | b :: bs => b.selectors ++ selectorsOf bs

end

/-- The class names that the selectors of a stylesheet use. -/
def classNames (blocks : List Block) : Except EscapeError (List Text) :=
  ((selectorsOf blocks).mapM preludeNames).map fun names => names.flatten.eraseDups

end UtilityCss.Stylesheet
