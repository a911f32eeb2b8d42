import UtilityCss.Stylesheet.Parser
/-!
# The grammar of stylesheets

A stylesheet is a sequence of items. An item is a block, which is a prelude with items inside braces
and possibly a last prelude before the closing brace, or it is a statement, which is a semicolon
with or without a prelude in front. The derivations of this grammar are trees of items. A text is
derived by such a tree if it splits into the tokens at the leaves of the tree.

Both steps are unambiguous: a text splits in at most one way, and a sequence of tokens has at most
one derivation, because it can be seen at every token whether an item starts there.
-/

namespace UtilityCss.Stylesheet

/-! ## Splitting into tokens -/

/-- A text that a prelude cannot go on with: it is at its end, or a punctuation mark comes first. -/
def EndsPrelude (cs : List CodePoint) : Prop :=
  ∀ c ∈ cs.head?, continuesPrelude c = false

theorem endsPrelude_cons {c : CodePoint} {cs : List CodePoint} (h : continuesPrelude c = false) :
    EndsPrelude (c :: cs) := by
  intro d hd
  obtain rfl := Option.some.inj hd
  exact h

/-- A text splits into tokens. Spaces, tabs, form feeds and line breaks are ignored between tokens,
and a prelude is as long as it can be. -/
inductive Splits : List CodePoint → List Token → Prop where
  | nil : Splits [] []
  | ignored {c : CodePoint} {cs : List CodePoint} {ts : List Token} (hc : isSkipped c = true)
      (h : Splits cs ts) : Splits (c :: cs) ts
  | mark {c : CodePoint} {cs : List CodePoint} {t : Token} {ts : List Token}
      (hc : punctuation? c = some t) (h : Splits cs ts) : Splits (c :: cs) (t :: ts)
  | prelude {c : CodePoint} {run rest : List CodePoint} {ts : List Token}
      (hfirst : Text.isBlank c = false) (hrun : ∀ d ∈ c :: run, continuesPrelude d = true)
      (hend : EndsPrelude rest) (h : Splits rest ts) :
      Splits (c :: run ++ rest) (.prelude (.ofList (c :: run)) :: ts)

/-! ## Derivations -/

/-- A derivation of one item. -/
inductive Item where
  /-- A prelude, an opening brace, items, possibly a last prelude, and a closing brace. -/
  | block (prelude : Text) (items : List Item) (last : Option Text)
  /-- A semicolon, possibly with a prelude in front. -/
  | statement (prelude : Option Text)

/-- The token of a prelude that may be missing. -/
def preludeTokens (p : Option Text) : List Token := p.toList.map .prelude

mutual

/-- The tokens at the leaves of a derivation. -/
def Item.yield : Item → List Token
  | .block p items last =>
    .prelude p :: .openBrace :: (yieldOf items ++ (preludeTokens last ++ [.closeBrace]))
  | .statement p => preludeTokens p ++ [.semicolon]

/-- The tokens at the leaves of some derivations. -/
def yieldOf : List Item → List Token
  | [] => []
  | i :: is => i.yield ++ yieldOf is

end

mutual

/-- The block that a derivation stands for; statements and last preludes are dropped. -/
def Item.block? : Item → Option Block
  | .block p items _ => some ⟨Text.collapse p, blocksOf items⟩
  | .statement _ => none

/-- The blocks that some derivations stand for, in their order. -/
def blocksOf : List Item → List Block
  | [] => []
  | i :: is => i.block?.toList ++ blocksOf is

end

/-- A text is derived as a sequence of items. -/
def Derives (cs : List CodePoint) (items : List Item) : Prop := Splits cs (yieldOf items)

@[simp] theorem yieldOf_append (is js : List Item) :
    yieldOf (is ++ js) = yieldOf is ++ yieldOf js := by
  induction is with
  | nil => rfl
  | cons i is ih => simp [yieldOf, ih]

@[simp] theorem blocksOf_append (is js : List Item) :
    blocksOf (is ++ js) = blocksOf is ++ blocksOf js := by
  induction is with
  | nil => rfl
  | cons i is ih => simp [blocksOf, ih]

/-! ## A sequence of tokens has one derivation -/

/-- Tokens that no item starts with: there are none, or a block ends. -/
def EndsItems (ts : List Token) : Prop :=
  ts = [] ∨ ∃ last rest, ts = preludeTokens last ++ .closeBrace :: rest

theorem not_endsItems_yield (i : Item) (ts : List Token) : ¬EndsItems (i.yield ++ ts) := by
  rintro (h | ⟨last, rest, h⟩)
  · cases i <;> simp [Item.yield] at h
  · cases i with
    | block p items last' => cases last <;> simp [Item.yield, preludeTokens] at h
    | statement p => cases last <;> cases p <;> simp [Item.yield, preludeTokens] at h

theorem endsItems_block (last : Option Text) (ts : List Token) :
    EndsItems (preludeTokens last ++ .closeBrace :: ts) := .inr ⟨last, ts, rfl⟩

theorem preludeTokens_append_inj {p q : Option Text} {t : Token} {ts us : List Token}
    (ht : ∀ text, t ≠ .prelude text) (h : preludeTokens p ++ t :: ts = preludeTokens q ++ t :: us) :
    p = q ∧ ts = us := by
  cases p <;> cases q <;> simp_all [preludeTokens]
  exact absurd h.1.symm (ht _)

mutual

/-- An item shows by itself where it ends. -/
theorem Item.yield_append_inj : ∀ (i j : Item) {ts us : List Token},
    i.yield ++ ts = j.yield ++ us → i = j ∧ ts = us
  | .block p items last, .block q items' last', ts, us, h => by
    simp only [Item.yield, List.cons_append, List.cons.injEq, List.append_assoc, List.nil_append,
      Token.prelude.injEq, true_and] at h
    obtain ⟨rfl, hinside⟩ := h
    obtain ⟨rfl, hbehind⟩ :=
      yieldOf_append_inj items items' (endsItems_block last ts) (endsItems_block last' us) hinside
    obtain ⟨rfl, rfl⟩ := preludeTokens_append_inj (by simp) hbehind
    exact ⟨rfl, rfl⟩
  | .statement p, .statement q, ts, us, h => by
    simp only [Item.yield, List.append_assoc, List.singleton_append] at h
    obtain ⟨rfl, rfl⟩ := preludeTokens_append_inj (by simp) h
    exact ⟨rfl, rfl⟩
  | .block p items last, .statement q, ts, us, h => by
    cases q <;> simp [Item.yield, preludeTokens] at h
  | .statement p, .block q items last, ts, us, h => by
    cases p <;> simp [Item.yield, preludeTokens] at h

theorem yieldOf_append_inj :
    ∀ (is js : List Item) {ts us : List Token}, EndsItems ts → EndsItems us →
    yieldOf is ++ ts = yieldOf js ++ us → is = js ∧ ts = us
  | [], [], ts, us, _, _, h => ⟨rfl, h⟩
  | [], j :: js, ts, us, hts, _, h => by
    simp only [yieldOf, List.nil_append, List.append_assoc] at h
    exact absurd (h ▸ hts) (not_endsItems_yield j _)
  | i :: is, [], ts, us, _, hus, h => by
    simp only [yieldOf, List.nil_append, List.append_assoc] at h
    exact absurd (h ▸ hus) (not_endsItems_yield i _)
  | i :: is, j :: js, ts, us, hts, hus, h => by
    simp only [yieldOf, List.append_assoc] at h
    obtain ⟨rfl, hbehind⟩ := Item.yield_append_inj i j h
    obtain ⟨rfl, rfl⟩ := yieldOf_append_inj is js hts hus hbehind
    exact ⟨rfl, rfl⟩

end

/-- Different derivations have different tokens. -/
theorem yieldOf_injective {is js : List Item} (h : yieldOf is = yieldOf js) : is = js :=
  (yieldOf_append_inj is js (.inl rfl) (.inl rfl) (congrArg (· ++ []) h)).1

end UtilityCss.Stylesheet
