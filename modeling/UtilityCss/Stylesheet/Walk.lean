import UtilityCss.Stylesheet.Selector
/-!
# Walking through a stylesheet

The class names of a stylesheet are collected with a stack of the blocks that are still to be looked
at. The block on top is taken away, and the blocks inside it take its place unless it is an opaque
at-rule. An at-rule has to have a keyword: behind its at sign there is nothing at all, or not only
blanks.
-/

namespace UtilityCss.Stylesheet

/-- Why class names are not collected. -/
inductive WalkError where
  /-- Only blanks stand behind an at sign. -/
  | noKeyword
  /-- A class name cannot be decoded. -/
  | escape (e : EscapeError)
  deriving DecidableEq, Repr

/-- The text of the error. -/
def WalkError.message : WalkError → Text
  | noKeyword => "list index out of range"
  | escape e => e.message

/-- The first word behind the at sign in lower case; it is empty without an at sign and for a lone
at sign. -/
def keyword? (prelude : Text) : Option Text :=
  match Text.afterText? "@" prelude with
  | none => some ""
  | some rest =>
    if rest.isEmpty then some ""
    else (Text.words rest.toList).head?.map fun keyword => Text.lower (Text.ofList keyword)

/-- The class names in the prelude of a block, and the blocks inside it that are to be looked at. -/
def Block.look (b : Block) : Except WalkError (List Text × List Block) :=
  if b.isAtRule then
    match keyword? b.prelude with
    | none => .error .noKeyword
    | some keyword => .ok ([], if opaqueKeywords.contains keyword then [] else b.children)
  else
    match preludeNames b.prelude with
    | .error e => .error (.escape e)
    | .ok names => .ok (names, b.children)

/-- All that a look at a block can give. -/
theorem Block.look_eq_ok {b : Block} {names : List Text} {inside : List Block} :
    b.look = .ok (names, inside) ↔
      (b.isAtRule = true ∧ names = [] ∧ ∃ keyword, keyword? b.prelude = some keyword ∧
        inside = if opaqueKeywords.contains keyword then [] else b.children) ∨
      (b.isAtRule = false ∧ preludeNames b.prelude = .ok names ∧ inside = b.children) := by
  unfold look
  cases b.isAtRule with
  | true => cases keyword? b.prelude <;> simp [eq_comm]
  | false => cases preludeNames b.prelude <;> simp [eq_comm]

mutual

/-- How many blocks there are, the block itself included. -/
def Block.weight (b : Block) : Nat :=
  match b with
  | ⟨_, children⟩ => weightOf children + 1

/-- How many blocks there are at all depths. -/
def weightOf : List Block → Nat
  | [] => 0
  | b :: bs => b.weight + weightOf bs

end

theorem weightOf_append (bs bs' : List Block) :
    weightOf (bs ++ bs') = weightOf bs + weightOf bs' := by
  induction bs with
  | nil => simp [weightOf]
  | cons b bs ih => simp [weightOf, ih, Nat.add_assoc]

theorem weightOf_reverse (bs : List Block) : weightOf bs.reverse = weightOf bs := by
  induction bs with
  | nil => rfl
  | cons b bs ih => simp [weightOf, weightOf_append, ih, Nat.add_comm]

/-- What is still to be looked at becomes less. -/
theorem weightOf_look_lt {b : Block} {names : List Text} {inside : List Block}
    (h : b.look = .ok (names, inside)) (stack : List Block) :
    weightOf (inside.reverse ++ stack) < weightOf (b :: stack) := by
  have hchildren : weightOf b.children < b.weight := by
    cases b
    exact Nat.lt_succ_self _
  have hinside : weightOf inside < b.weight := by
    rcases Block.look_eq_ok.1 h with ⟨-, -, keyword, -, rfl⟩ | ⟨-, -, rfl⟩
    · split
      · exact Nat.lt_of_le_of_lt (Nat.zero_le _) hchildren
      · exact hchildren
    · exact hchildren
  rw [weightOf_append, weightOf_reverse, weightOf]
  exact Nat.add_lt_add_right hinside _

/-- Collects class names, each once, while blocks are on the stack. -/
def collectFrom (found : List Text) (stack : List Block) : Except WalkError (List Text) :=
  match stack with
  | [] => .ok found
  | b :: stack =>
    match _look : b.look with
    | .error e => .error e
    | .ok (names, inside) =>
      collectFrom (names.foldl (fun found name => found.insert name) found)
        (inside.reverse ++ stack)
termination_by weightOf stack
decreasing_by exact weightOf_look_lt _look _

/-- The walk goes on with what a look at the next block gives. -/
theorem collectFrom_cons {b : Block} (found : List Text) (stack : List Block) :
    collectFrom found (b :: stack) = match b.look with
    | .error e => .error e
    | .ok (names, inside) =>
      collectFrom (names.foldl (fun found name => found.insert name) found)
        (inside.reverse ++ stack) := by
  rw [collectFrom]
  split <;> next h => rw [h]

/-- The class names of a stylesheet. The last block is on top of the stack. -/
def collect (blocks : List Block) : Except WalkError (List Text) := collectFrom [] blocks.reverse

end UtilityCss.Stylesheet
