import UtilityCss.Limits
import UtilityCss.Text.Words
/-!
# Braces in file patterns

A pattern may list choices in braces: `*.{js,vue}` stands for the patterns `*.js` and `*.vue`. The
leftmost group that has no braces inside is expanded first, so in nested groups the inner ones come
before the outer ones. A brace without a partner is an ordinary character. A pattern with very many
groups is refused.
-/

namespace UtilityCss

/-- A group in braces with what stands before and behind it. -/
structure BraceGroup where
  head : List CodePoint
  body : List CodePoint
  tail : List CodePoint

namespace BraceGroup

/-- Whether a character is a brace. -/
def isBrace (c : CodePoint) : Bool := c == '\x7b' || c == '\x7d'

/-- The body of the group that was opened just before a text, and what follows the group. The next
brace has to close it. -/
def closed? (cs : List CodePoint) : Option (List CodePoint × List CodePoint) :=
  match cs.dropWhile (!isBrace ·) with
  | .char '\x7d' :: tail => some (cs.takeWhile (!isBrace ·), tail)
  | _ => none

/-- The leftmost group of a text without braces inside. -/
def first? : List CodePoint → Option BraceGroup
  | [] => none
  | c :: cs =>
    match if c = '\x7b' then closed? cs else none with
    | some (body, tail) => some ⟨[], body, tail⟩
    | none => (first? cs).map fun g => { g with head := c :: g.head }

/-- The choices in a group. -/
def choices (g : BraceGroup) : List (List CodePoint) := Text.splitWhere (· == ',') g.body

/-- The text with a choice in place of the group. -/
def choose (g : BraceGroup) (choice : List CodePoint) : List CodePoint := g.head ++ choice ++ g.tail

theorem of_closed? {cs body tail : List CodePoint} (h : closed? cs = some (body, tail)) :
    cs = body ++ .char '\x7d' :: tail ∧ .char '\x7b' ∉ body := by
  unfold closed? at h
  split at h
  · next hd =>
    simp only [Option.some.injEq, Prod.mk.injEq] at h
    obtain ⟨rfl, rfl⟩ := h
    constructor
    · rw [← hd, List.takeWhile_append_dropWhile]
    · intro hm
      have := List.all_takeWhile (p := (!isBrace ·)) (l := cs)
      have := List.all_eq_true.1 this _ hm
      simp [isBrace] at this
  · simp at h

theorem of_first? {cs : List CodePoint} {g : BraceGroup} (h : first? cs = some g) :
    cs = g.head ++ .char '\x7b' :: (g.body ++ .char '\x7d' :: g.tail) ∧ .char '\x7b' ∉ g.body := by
  induction cs generalizing g with
  | nil => simp [first?] at h
  | cons c cs ih =>
    rw [first?] at h
    split at h
    · next body tail hm =>
      split at hm
      · next hc =>
        obtain ⟨h₁, h₂⟩ := of_closed? hm
        simp only [Option.some.injEq] at h
        subst h
        simp [hc, h₁, h₂]
      · simp at hm
    · obtain ⟨g', hg', rfl⟩ := Option.map_eq_some_iff.1 h
      obtain ⟨h₁, h₂⟩ := ih hg'
      refine ⟨?_, h₂⟩
      simp only [List.cons_append]
      rw [← h₁]

theorem count_choose_lt {cs choice : List CodePoint} {g : BraceGroup} (h : first? cs = some g)
    (hc : choice ∈ g.choices) :
    (g.choose choice).count (.char '\x7b') < cs.count (.char '\x7b') := by
  obtain ⟨hcs, hbody⟩ := of_first? h
  have : choice.count (.char '\x7b') = 0 := List.count_eq_zero.2 fun hm =>
    hbody (Text.mem_of_mem_splitWhere hm hc)
  have htail : g.tail.count (.char '\x7b') ≤
      (g.body ++ .char '\x7d' :: g.tail).count (.char '\x7b') :=
    List.Sublist.count_le _ ((List.sublist_cons_self _ _).trans (List.sublist_append_right _ _))
  rw [choose, hcs]
  simp only [List.count_append, List.count_cons_self] at *
  omega

end BraceGroup

/-- The texts that a text with braces stands for. -/
def braceChoices (cs : List CodePoint) : List (List CodePoint) :=
  match _found : BraceGroup.first? cs with
  | none => [cs]
  | some g => g.choices.attach.flatMap fun ⟨choice, _⟩ => braceChoices (g.choose choice)
termination_by cs.count (.char '\x7b')
decreasing_by exact BraceGroup.count_choose_lt _found (by assumption)

theorem braceChoices_of_none {cs : List CodePoint} (h : BraceGroup.first? cs = none) :
    braceChoices cs = [cs] := by
  rw [braceChoices]
  split
  · rfl
  · next g hg => simp [h] at hg

theorem braceChoices_of_some {cs : List CodePoint} {g : BraceGroup}
    (h : BraceGroup.first? cs = some g) :
    braceChoices cs = g.choices.flatMap fun choice => braceChoices (g.choose choice) := by
  rw [braceChoices]
  split
  · next hg => simp [h] at hg
  · next g' hg =>
    obtain rfl : g' = g := by simpa [h] using hg.symm
    simp

/-- The texts that a text with braces stands for, if no more than `depth` groups have to be expanded
one after the other on the way to any of them. -/
def braceChoicesWithin (depth : Nat) (cs : List CodePoint) : Option (List (List CodePoint)) :=
  match BraceGroup.first? cs with
  | none => some [cs]
  | some g =>
    match depth with
    | 0 => none
    | depth + 1 =>
      (g.choices.mapM fun choice => braceChoicesWithin depth (g.choose choice)).map List.flatten

/-- The patterns without groups that a pattern stands for. -/
def expandBraces (pattern : Text) : List Text := (braceChoices pattern.toList).map Text.ofList

/-- The patterns without groups that a pattern stands for, unless it has too many groups. -/
def expandBraces? (pattern : Text) : Option (List Text) :=
  (braceChoicesWithin maxBraceDepth pattern.toList).map fun texts => texts.map Text.ofList

end UtilityCss
