import Mathlib.Algebra.BigOperators.Group.List.Basic
import Mathlib.Data.List.Forall2
import UtilityCss.Watch.Braces
/-!
# Balanced patterns

A pattern whose braces are balanced consists of characters and groups. A group holds alternatives
with commas between them, and the alternatives are patterns again, in which a comma is not an
ordinary character. A pattern denotes the texts that are left when one alternative is chosen in
every group, also inside the chosen alternatives.
-/

namespace UtilityCss

/-- An ordinary character: no brace, and no comma inside a group. -/
def isPlainInside (inside : Bool) (c : CodePoint) : Bool :=
  !BraceGroup.isBrace c && !(inside && c == ',')

mutual

/-- A pattern with balanced braces, at the top or inside a group. -/
inductive BracePattern : (inside : Bool) → Type
  | empty {inside : Bool} : BracePattern inside
  | char {inside : Bool} (c : CodePoint) (hc : isPlainInside inside c = true)
      (rest : BracePattern inside) : BracePattern inside
  | group {inside : Bool} (alternatives : BraceAlternatives) (rest : BracePattern inside) :
      BracePattern inside

/-- The alternatives of a group, of which there is at least one. -/
inductive BraceAlternatives : Type
  | last (p : BracePattern true)
  | more (p : BracePattern true) (others : BraceAlternatives)

end

variable {inside : Bool} {c : CodePoint} {cs x : List CodePoint}

/-! ## Texts of patterns -/

mutual

/-- A pattern as it is written. -/
def BracePattern.text {inside : Bool} : BracePattern inside → List CodePoint
  | .empty => []
  | .char c _ rest => c :: rest.text
  | .group alternatives rest => .char '\x7b' :: (alternatives.text ++ .char '\x7d' :: rest.text)

/-- Alternatives as they are written between braces. -/
def BraceAlternatives.text : BraceAlternatives → List CodePoint
  | .last p => p.text
  | .more p others => p.text ++ .char ',' :: others.text

end

/-- Whether every closing brace has an opening brace before it and the other way round, where
`depth` braces are open at the start. -/
def closesBraces (depth : Nat) : List CodePoint → Bool
  | [] => depth == 0
  | c :: cs =>
    if c = '\x7b' then closesBraces (depth + 1) cs
    else if c = '\x7d' then
      match depth with
      | 0 => false
      | depth + 1 => closesBraces depth cs
    else closesBraces depth cs

/-- Whether the braces of a text are balanced. -/
def isBalanced (pattern : Text) : Bool := closesBraces 0 pattern.toList

theorem isBrace_eq_false_iff : BraceGroup.isBrace c = false ↔ c ≠ '\x7b' ∧ c ≠ '\x7d' := by
  simp [BraceGroup.isBrace]

theorem isPlainInside_iff : isPlainInside inside c = true ↔
    BraceGroup.isBrace c = false ∧ (inside = true → c ≠ ',') := by
  cases inside <;> simp [isPlainInside]

/-- A character that is no brace does not change how many braces are open. -/
theorem closesBraces_cons {depth : Nat} (hc : BraceGroup.isBrace c = false) :
    closesBraces depth (c :: cs) = closesBraces depth cs := by
  obtain ⟨hopen, hclose⟩ := isBrace_eq_false_iff.1 hc
  cases depth <;> rw [closesBraces, if_neg hopen, if_neg hclose]

/-- Behind an opening brace, one more brace is open. -/
theorem closesBraces_open {depth : Nat} :
    closesBraces depth (.char '\x7b' :: cs) = closesBraces (depth + 1) cs := by
  cases depth <;> rfl

mutual

/-- Behind a pattern, as many braces are open as before it. -/
theorem BracePattern.closesBraces_append {inside : Bool} (depth : Nat) (behind : List CodePoint) :
    (p : BracePattern inside) → closesBraces depth (p.text ++ behind) = closesBraces depth behind
  | .empty => rfl
  | .char c hc rest => by
    rw [BracePattern.text, List.cons_append, closesBraces_cons (isPlainInside_iff.1 hc).1]
    exact rest.closesBraces_append depth behind
  | .group alternatives rest => by
    have hgroup : (BracePattern.group alternatives rest).text ++ behind =
        .char '\x7b' :: (alternatives.text ++ .char '\x7d' :: (rest.text ++ behind)) := by
      simp [BracePattern.text]
    rw [hgroup, closesBraces_open, alternatives.closesBraces_append]
    exact rest.closesBraces_append depth behind

/-- Behind alternatives, as many braces are open as before them. -/
theorem BraceAlternatives.closesBraces_append (depth : Nat) (behind : List CodePoint) :
    (alternatives : BraceAlternatives) →
      closesBraces depth (alternatives.text ++ behind) = closesBraces depth behind
  | .last p => p.closesBraces_append depth behind
  | .more p others => by
    rw [BraceAlternatives.text, List.append_assoc, p.closesBraces_append, List.cons_append,
      closesBraces_cons (by decide)]
    exact others.closesBraces_append depth behind

end

/-- The alternatives with something done to the first of them. -/
def BraceAlternatives.mapFirst (f : BracePattern true → BracePattern true) :
    BraceAlternatives → BraceAlternatives
  | .last p => .last (f p)
  | .more p others => .more (f p) others

/-- What is put in front of the first alternative is put in front of all. -/
theorem BraceAlternatives.text_mapFirst {f : BracePattern true → BracePattern true}
    (front : List CodePoint)
    (hf : ∀ p, (f p).text = front ++ p.text) (alternatives : BraceAlternatives) :
    (alternatives.mapFirst f).text = front ++ alternatives.text := by
  cases alternatives with
  | last p => exact hf p
  | more p others => simp [mapFirst, text, hf]

/-- A text that closes an open brace has the alternatives of a group in front of it. -/
theorem exists_alternatives {depth : Nat} (h : closesBraces (depth + 1) cs = true) :
    ∃ (alternatives : BraceAlternatives) (rest : List CodePoint),
      cs = alternatives.text ++ .char '\x7d' :: rest ∧ closesBraces depth rest = true := by
  induction hlength : cs.length using Nat.strongRecOn generalizing depth cs with
  | ind n ih =>
    cases cs with
    | nil => contradiction
    | cons c cs =>
      have hshort : cs.length < n := by simp [← hlength]
      rw [closesBraces] at h
      split at h
      · next hopen =>
        -- A group in the first alternative comes first, and the rest of that alternative follows
        -- it.
        obtain ⟨inner, rest, rfl, hrest⟩ := ih _ hshort h rfl
        have hshorter : rest.length < n := by simp at hshort; omega
        obtain ⟨alternatives, behind, rfl, hbehind⟩ := ih _ hshorter hrest rfl
        refine ⟨alternatives.mapFirst (.group inner), behind, ?_, hbehind⟩
        rw [BraceAlternatives.text_mapFirst (.char '\x7b' :: (inner.text ++ [.char '\x7d']))
          (by simp [BracePattern.text]), hopen]
        simp
      · split at h
        · next hclose =>
          refine ⟨.last .empty, cs, ?_, h⟩
          rw [hclose]
          rfl
        · next hopen hclose =>
          obtain ⟨alternatives, rest, rfl, hrest⟩ := ih _ hshort h rfl
          by_cases hcomma : c = ','
          · refine ⟨.more .empty alternatives, rest, ?_, hrest⟩
            rw [hcomma]
            rfl
          · have hplain : isPlainInside true c = true :=
              isPlainInside_iff.2 ⟨isBrace_eq_false_iff.2 ⟨hopen, hclose⟩, fun _ => hcomma⟩
            refine ⟨alternatives.mapFirst (.char c hplain), rest, ?_, hrest⟩
            rw [BraceAlternatives.text_mapFirst [c] fun p => rfl]
            rfl

/-- **The balanced texts are the texts of patterns.** -/
theorem closesBraces_iff : closesBraces 0 cs = true ↔ ∃ p : BracePattern false, p.text = cs := by
  constructor
  · intro h
    induction hlength : cs.length using Nat.strongRecOn generalizing cs with
    | ind n ih =>
      cases cs with
      | nil => exact ⟨.empty, rfl⟩
      | cons c cs =>
        have hshort : cs.length < n := by simp [← hlength]
        rw [closesBraces] at h
        split at h
        · next hopen =>
          obtain ⟨alternatives, rest, rfl, hrest⟩ := exists_alternatives h
          have hshorter : rest.length < n := by simp at hshort; omega
          obtain ⟨p, rfl⟩ := ih _ hshorter hrest rfl
          refine ⟨.group alternatives p, ?_⟩
          rw [hopen]
          rfl
        · split at h
          · contradiction
          · next hopen hclose =>
            obtain ⟨p, rfl⟩ := ih _ hshort h rfl
            have hplain : isPlainInside false c = true :=
              isPlainInside_iff.2 ⟨isBrace_eq_false_iff.2 ⟨hopen, hclose⟩, nofun⟩
            exact ⟨.char c hplain p, rfl⟩
  · rintro ⟨p, rfl⟩
    simpa [closesBraces] using p.closesBraces_append 0 []

/-! ## Choices -/

mutual

/-- A text is left when an alternative is chosen in every group. -/
inductive BracePattern.Chooses : {inside : Bool} → BracePattern inside → List CodePoint → Prop
  | empty {inside : Bool} : (BracePattern.empty : BracePattern inside).Chooses []
  | char {inside : Bool} {c : CodePoint} {hc : isPlainInside inside c = true}
      {rest : BracePattern inside}
      {x : List CodePoint} : rest.Chooses x → (BracePattern.char c hc rest).Chooses (c :: x)
  | group {inside : Bool} {alternatives : BraceAlternatives} {rest : BracePattern inside}
      {x y : List CodePoint} :
      alternatives.Chooses x → rest.Chooses y →
        (BracePattern.group alternatives rest).Chooses (x ++ y)

/-- A text is left when one of the alternatives is chosen, and one in every group of it. -/
inductive BraceAlternatives.Chooses : BraceAlternatives → List CodePoint → Prop
  | last {p : BracePattern true} {x : List CodePoint} :
    p.Chooses x → (BraceAlternatives.last p).Chooses x
  | first {p : BracePattern true} {others : BraceAlternatives} {x : List CodePoint} :
      p.Chooses x → (BraceAlternatives.more p others).Chooses x
  | other {p : BracePattern true} {others : BraceAlternatives} {x : List CodePoint} :
      others.Chooses x → (BraceAlternatives.more p others).Chooses x

end

mutual

/-- The texts that a pattern stands for, as often and in the order in which they are found if the
alternatives of a group are settled before one of them is chosen. -/
def BracePattern.expansions {inside : Bool} : BracePattern inside → List (List CodePoint)
  | .empty => [[]]
  | .char c _ rest => rest.expansions.map (c :: ·)
  | .group alternatives rest =>
    alternatives.expansions.flatMap fun xs => xs.flatMap fun x => rest.expansions.map (x ++ ·)

/-- The ways to settle all alternatives of a group. -/
def BraceAlternatives.expansions : BraceAlternatives → List (List (List CodePoint))
  | .last p => p.expansions.map ([·])
  | .more p others => p.expansions.flatMap fun x => others.expansions.map (x :: ·)

end

mutual

/-- A pattern stands for a text. -/
theorem BracePattern.exists_mem_expansions {inside : Bool} :
    (p : BracePattern inside) → ∃ x, x ∈ p.expansions
  | .empty => ⟨[], List.mem_singleton_self _⟩
  | .char c _ rest => by
    obtain ⟨x, hx⟩ := rest.exists_mem_expansions
    exact ⟨c :: x, List.mem_map_of_mem hx⟩
  | .group alternatives rest => by
    obtain ⟨xs, hxs, x, hx⟩ := alternatives.exists_mem_expansions
    obtain ⟨y, hy⟩ := rest.exists_mem_expansions
    exact ⟨x ++ y, List.mem_flatMap.2 ⟨xs, hxs, List.mem_flatMap.2 ⟨x, hx, List.mem_map_of_mem hy⟩⟩⟩

/-- Alternatives can be settled, and one of them chosen. -/
theorem BraceAlternatives.exists_mem_expansions :
    (alternatives : BraceAlternatives) → ∃ xs ∈ alternatives.expansions, ∃ x, x ∈ xs
  | .last p => by
    obtain ⟨x, hx⟩ := p.exists_mem_expansions
    exact ⟨[x], List.mem_map_of_mem hx, x, List.mem_singleton_self _⟩
  | .more p others => by
    obtain ⟨x, hx⟩ := p.exists_mem_expansions
    obtain ⟨xs, hxs, -⟩ := others.exists_mem_expansions
    exact ⟨x :: xs, List.mem_flatMap.2 ⟨x, hx, List.mem_map_of_mem hxs⟩, x, List.mem_cons_self ..⟩

end

mutual

/-- **A pattern stands for what is left of it by choosing.** -/
theorem BracePattern.mem_expansions_iff {inside : Bool} {x : List CodePoint} :
    (p : BracePattern inside) → (x ∈ p.expansions ↔ p.Chooses x)
  | .empty => by
    rw [BracePattern.expansions, List.mem_singleton]
    exact ⟨fun h => h ▸ .empty, fun h => by cases h; rfl⟩
  | .char c _ rest => by
    rw [BracePattern.expansions, List.mem_map]
    constructor
    · rintro ⟨y, hy, rfl⟩
      exact .char (rest.mem_expansions_iff.1 hy)
    · intro h
      cases h with
      | char h => exact ⟨_, rest.mem_expansions_iff.2 h, rfl⟩
  | .group alternatives rest => by
    simp only [BracePattern.expansions, List.mem_flatMap, List.mem_map]
    constructor
    · rintro ⟨xs, hxs, y, hy, z, hz, rfl⟩
      exact .group (alternatives.mem_expansions_iff.1 ⟨xs, hxs, hy⟩) (rest.mem_expansions_iff.1 hz)
    · intro h
      cases h with
      | group hy hz =>
        obtain ⟨xs, hxs, hy⟩ := alternatives.mem_expansions_iff.2 hy
        exact ⟨xs, hxs, _, hy, _, rest.mem_expansions_iff.2 hz, rfl⟩

/-- What is among alternatives that are settled is left by choosing one of them. -/
theorem BraceAlternatives.mem_expansions_iff {x : List CodePoint} :
    (alternatives : BraceAlternatives) →
      ((∃ xs ∈ alternatives.expansions, x ∈ xs) ↔ alternatives.Chooses x)
  | .last p => by
    constructor
    · rintro ⟨xs, hxs, hx⟩
      obtain ⟨y, hy, rfl⟩ := List.mem_map.1 hxs
      obtain rfl := List.mem_singleton.1 hx
      exact .last (p.mem_expansions_iff.1 hy)
    · intro h
      cases h with
      | last h =>
        exact ⟨[x], List.mem_map_of_mem (p.mem_expansions_iff.2 h), List.mem_singleton_self _⟩
  | .more p others => by
    simp only [BraceAlternatives.expansions, List.mem_flatMap, List.mem_map]
    constructor
    · rintro ⟨_, ⟨y, hy, ys, hys, rfl⟩, hx⟩
      rcases List.mem_cons.1 hx with rfl | hx
      · exact .first (p.mem_expansions_iff.1 hy)
      · exact .other (others.mem_expansions_iff.1 ⟨ys, hys, hx⟩)
    · -- The alternatives that are not chosen are settled in any way.
      intro h
      cases h with
      | first h =>
        obtain ⟨ys, hys, -⟩ := others.exists_mem_expansions
        exact ⟨x :: ys, ⟨x, p.mem_expansions_iff.2 h, ys, hys, rfl⟩, List.mem_cons_self ..⟩
      | other h =>
        obtain ⟨y, hy⟩ := p.exists_mem_expansions
        obtain ⟨ys, hys, hx⟩ := others.mem_expansions_iff.2 h
        exact ⟨y :: ys, ⟨y, hy, ys, hys, rfl⟩, List.mem_cons_of_mem _ hx⟩

end

/-! ## Patterns without nested groups -/

/-- The alternatives, each as it is written. -/
def BraceAlternatives.texts : BraceAlternatives → List (List CodePoint)
  | .last p => [p.text]
  | .more p others => p.text :: others.texts

/-- No group stands in another. -/
def BracePattern.IsFlat {inside : Bool} : BracePattern inside → Prop
  | .empty => True
  | .char _ _ rest => rest.IsFlat
  | .group alternatives rest =>
    (∀ c ∈ alternatives.text, BraceGroup.isBrace c = false) ∧ rest.IsFlat

/-- How many alternatives there are in each group, from left to right. -/
def BracePattern.counts {inside : Bool} : BracePattern inside → List Nat
  | .empty => []
  | .char _ _ rest => rest.counts
  | .group alternatives rest => alternatives.texts.length :: rest.counts

/-- The text with one alternative in place of each group, given by their numbers from left to
right. -/
def BracePattern.select {inside : Bool} : BracePattern inside → List Nat → List CodePoint
  | .empty, _ => []
  | .char c _ rest, choice => c :: rest.select choice
  | .group alternatives rest, choice =>
    alternatives.texts.getD (choice.headD 0) [] ++ rest.select choice.tail

/-- All ways to choose one of so many, and one of so many, and so on; the first choice changes
last. -/
def combinations : List Nat → List (List Nat)
  | [] => [[]]
  | n :: counts => (List.range n).flatMap fun i => (combinations counts).map (i :: ·)

variable {counts : List Nat}

theorem mem_combinations_iff {choice : List Nat} :
    choice ∈ combinations counts ↔ List.Forall₂ (· < ·) choice counts := by
  induction counts generalizing choice with
  | nil => simp [combinations]
  | cons n counts ih =>
    simp only [combinations, List.mem_flatMap, List.mem_range, List.mem_map,
      List.forall₂_cons_right_iff, ih]
    constructor
    · rintro ⟨i, hi, choice, hchoice, rfl⟩
      exact ⟨i, choice, hi, hchoice, rfl⟩
    · rintro ⟨i, choice, hi, hchoice, rfl⟩
      exact ⟨i, hi, choice, hchoice, rfl⟩

/-- The combinations come in lexicographic order. -/
theorem pairwise_combinations (counts : List Nat) : (combinations counts).Pairwise (· < ·) := by
  induction counts with
  | nil => simp [combinations]
  | cons n counts ih =>
    refine List.pairwise_flatMap.2 ⟨fun i _ => ?_, ?_⟩
    · -- With the first choice fixed, the order is that of the others.
      refine List.pairwise_map.2 (ih.imp fun h => ?_)
      exact List.cons_lt_cons_iff.2 (.inr ⟨rfl, h⟩)
    · refine List.pairwise_lt_range.imp fun hij choice hchoice choice' hchoice' => ?_
      obtain ⟨_, -, rfl⟩ := List.mem_map.1 hchoice
      obtain ⟨_, -, rfl⟩ := List.mem_map.1 hchoice'
      exact List.cons_lt_cons_iff.2 (.inl hij)

theorem length_combinations (counts : List Nat) : (combinations counts).length = counts.prod := by
  induction counts with
  | nil => rfl
  | cons n counts ih => simp [combinations, List.length_flatMap, ih]

/-- A pattern without braces stands for itself. -/
theorem BracePattern.expansions_of_no_brace (p : BracePattern inside)
    (h : ∀ c ∈ p.text, BraceGroup.isBrace c = false) : p.expansions = [p.text] := by
  match p with
  | .empty => rfl
  | .char c _ rest =>
    rw [text, List.forall_mem_cons] at h
    rw [expansions, rest.expansions_of_no_brace h.2]
    rfl
  | .group alternatives rest => exact absurd (h _ (List.mem_cons_self ..)) (by decide)

/-- Alternatives without braces are settled. -/
theorem BraceAlternatives.expansions_of_no_brace (alternatives : BraceAlternatives)
    (h : ∀ c ∈ alternatives.text, BraceGroup.isBrace c = false) :
    alternatives.expansions = [alternatives.texts] := by
  match alternatives with
  | .last p =>
    rw [expansions, p.expansions_of_no_brace h]
    rfl
  | .more p others =>
    simp only [text, List.forall_mem_append, List.forall_mem_cons] at h
    rw [expansions, p.expansions_of_no_brace h.1, others.expansions_of_no_brace h.2.2]
    rfl

/-- A list is what is found in it at all places. -/
theorem map_range_getD {α : Type} (as : List α) (a : α) :
    (List.range as.length).map (as.getD · a) = as := by
  refine List.ext_getElem (by simp) fun i hi _ => ?_
  simp at hi
  simp [hi]

/-- **Without nested groups, the choices are made in lexicographic order.** -/
theorem BracePattern.expansions_of_isFlat (p : BracePattern inside) (h : p.IsFlat) :
    p.expansions = (combinations p.counts).map p.select := by
  match p with
  | .empty => rfl
  | .char c _ rest =>
    rw [expansions, rest.expansions_of_isFlat h, counts, List.map_map]
    rfl
  | .group alternatives rest =>
    have hsettled := alternatives.expansions_of_no_brace h.1
    have hrest := rest.expansions_of_isFlat h.2
    calc (group alternatives rest).expansions
      _ = alternatives.texts.flatMap fun x => rest.expansions.map (x ++ ·) := by
        rw [expansions, hsettled, List.flatMap_singleton]
      _ = (List.range alternatives.texts.length).flatMap fun i =>
            rest.expansions.map (alternatives.texts.getD i [] ++ ·) := by
        conv_lhs => rw [← map_range_getD alternatives.texts []]
        rw [List.flatMap_map]
      _ = (combinations (group alternatives rest).counts).map (group alternatives rest).select := by
        rw [counts, combinations, List.map_flatMap, hrest]
        simp only [List.map_map]
        rfl

end UtilityCss
