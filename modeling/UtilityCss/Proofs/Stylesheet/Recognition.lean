import UtilityCss.Proofs.Stylesheet.Grammar
import UtilityCss.Stylesheet.Parser
/-!
# The parser and the grammar

The parser accepts exactly the texts that the grammar derives, and answers with the blocks of the
one derivation. In one direction, what the parser holds after each token stands for the tokens read
so far as a derivation that is open at the innermost block. In the other direction, the tokens of an
item lead the parser from any state to the state with the block of the item added.

Reading a stylesheet adds a bound on the nesting of blocks, and this is the only difference: a text
that is derived with blocks nested more deeply is refused, and not as malformed.
-/

namespace UtilityCss.Stylesheet

variable {cs : List CodePoint} {ts us : List Token}

/-! ## Tokens -/

theorem punctuation?_of_isSkipped {c : CodePoint} (h : isSkipped c = true) :
    punctuation? c = none := by
  simp only [isSkipped, Bool.or_eq_true, beq_iff_eq] at h
  rcases h with (((rfl | rfl) | rfl) | rfl) | rfl <;> rfl

theorem isBlank_of_isSkipped {c : CodePoint} (h : isSkipped c = true) : Text.isBlank c = true := by
  simp only [isSkipped, Bool.or_eq_true, beq_iff_eq] at h
  rcases h with (((rfl | rfl) | rfl) | rfl) | rfl <;> rfl

theorem continuesPrelude_eq_true {c : CodePoint} :
    continuesPrelude c = true ↔ punctuation? c = none := by
  simp [continuesPrelude]

theorem endsPrelude_dropWhile (cs : List CodePoint) :
    EndsPrelude (cs.dropWhile continuesPrelude) := by
  intro c hc
  have h := List.head?_dropWhile_not continuesPrelude cs
  rw [Option.mem_def.1 hc] at h
  exact h

/-- A text without stray characters splits into its tokens. -/
theorem splits_tokensFrom (p : Place) (cs : List CodePoint)
    (h : ∀ c, .stray c ∉ (tokensFrom p cs).map Located.token) :
    Splits cs ((tokensFrom p cs).map Located.token) := by
  fun_induction tokensFrom p cs with
  | case1 => exact .nil
  | case2 p c cs t ht ih => exact .mark ht (ih fun d hd => h d (List.mem_cons_of_mem _ hd))
  | case3 p c cs _ hskip ih => exact .ignored hskip (ih h)
  | case4 p c => exact absurd List.mem_cons_self (h c)
  | case5 p c cs hmark _ hblank run ih =>
    have hrun : ∀ d ∈ c :: cs.takeWhile continuesPrelude, continuesPrelude d = true := by
      intro d hd
      rcases List.mem_cons.1 hd with rfl | hd
      · exact continuesPrelude_eq_true.2 hmark
      · exact List.all_eq_true.1 List.all_takeWhile d hd
    have hsplit := Splits.prelude (by simpa using hblank) hrun (endsPrelude_dropWhile cs)
      (ih fun d hd => h d (List.mem_cons_of_mem _ hd))
    rwa [List.cons_append, List.takeWhile_append_dropWhile] at hsplit

theorem takeWhile_run {run rest : List CodePoint} (hrun : ∀ d ∈ run, continuesPrelude d = true)
    (hend : EndsPrelude rest) : (run ++ rest).takeWhile continuesPrelude = run ∧
      (run ++ rest).dropWhile continuesPrelude = rest := by
  rw [List.takeWhile_append_of_pos hrun, List.dropWhile_append_of_pos hrun]
  cases rest with
  | nil => simp
  | cons d rest =>
    have hd : ¬continuesPrelude d = true := by simp [hend d rfl]
    rw [List.takeWhile_cons_of_neg hd, List.dropWhile_cons_of_neg hd, List.append_nil]
    exact ⟨rfl, rfl⟩

/-- A text splits into no tokens but its own. -/
theorem Splits.eq_tokens (h : Splits cs ts) (p : Place) :
    (tokensFrom p cs).map Located.token = ts := by
  induction h generalizing p with
  | nil => simp [tokensFrom]
  | ignored hc _ ih => rw [tokensFrom, punctuation?_of_isSkipped hc]; simpa [hc] using ih _
  | mark hc _ ih => rw [tokensFrom, hc]; simp [ih]
  | @prelude c run rest ts hfirst hrun hend _ ih =>
    rw [List.forall_mem_cons] at hrun
    obtain ⟨htake, hdrop⟩ := takeWhile_run hrun.2 hend
    have hskip : isSkipped c = false := by
      rw [← Bool.not_eq_true]
      exact fun hskip => by simp [isBlank_of_isSkipped hskip] at hfirst
    rw [List.cons_append, tokensFrom, continuesPrelude_eq_true.1 hrun.1]
    simp [hskip, hfirst, htake, hdrop, ih]

/-- A text splits in at most one way. -/
theorem Splits.unique (hts : Splits cs ts) (hus : Splits cs us) : ts = us :=
  (hts.eq_tokens ⟨1, 1⟩).symm.trans (hus.eq_tokens ⟨1, 1⟩)

/-! ## What is accepted is derived -/

/-- All that a step of the parser can do. -/
theorem ParserState.step_eq_ok {s s' : ParserState} {t : Located} (h : s.step t = .ok s') :
    (∃ text, t.token = .prelude text ∧ s.pending = none ∧
      s' = { s with pending := some text, last := t.place }) ∨
    (t.token = .semicolon ∧ s' = { s with pending := none, last := t.place }) ∨
    (∃ text, t.token = .openBrace ∧ s.pending = some text ∧
      s' = ⟨⟨Text.collapse text, s.blocks⟩ :: s.stack, [], none, t.place⟩) ∨
    (∃ b below, t.token = .closeBrace ∧ s.stack = b :: below ∧
      s' = ⟨below, ⟨b.prelude, s.blocks.reverse⟩ :: b.before, none, t.place⟩) := by
  unfold ParserState.step at h
  split at h
  · contradiction
  · next text htoken hpending => exact .inl ⟨text, htoken, hpending, (Except.ok.inj h).symm⟩
  · next htoken => exact .inr (.inl ⟨htoken, (Except.ok.inj h).symm⟩)
  · next text htoken hpending =>
    exact .inr (.inr (.inl ⟨text, htoken, hpending, (Except.ok.inj h).symm⟩))
  · next b below htoken hstack =>
    exact .inr (.inr (.inr ⟨b, below, htoken, hstack, (Except.ok.inj h).symm⟩))
  · contradiction

/-- What the parser holds stands for the tokens that it has read: at every depth for complete items,
and for the preludes of the blocks around them. -/
inductive Stands : List Token → List OpenBlock → List Block → Option Text → Prop where
  | top (items : List Item) : Stands (yieldOf items) [] (blocksOf items).reverse none
  | inside {ts : List Token} {stack : List OpenBlock} {blocks : List Block}
      (h : Stands ts stack blocks none) (p : Text) (items : List Item) :
      Stands (ts ++ .prelude p :: .openBrace :: yieldOf items)
        (⟨Text.collapse p, blocks⟩ :: stack) (blocksOf items).reverse none
  | pending {ts : List Token} {stack : List OpenBlock} {blocks : List Block}
      (h : Stands ts stack blocks none) (p : Text) :
      Stands (ts ++ [.prelude p]) stack blocks (some p)

/-- One more item at the same depth. -/
theorem Stands.item {stack : List OpenBlock} {blocks : List Block} (h : Stands ts stack blocks none)
    (i : Item) : Stands (ts ++ i.yield) stack (i.block?.toList ++ blocks) none := by
  have hreverse (items : List Item) : i.block?.toList ++ (blocksOf items).reverse =
      (blocksOf (items ++ [i])).reverse := by
    cases hi : i.block? <;> simp [blocksOf, hi]
  cases h with
  | top items =>
    rw [hreverse]
    simpa [yieldOf] using Stands.top (items ++ [i])
  | inside h p items =>
    rw [hreverse]
    simpa [yieldOf] using Stands.inside h p (items ++ [i])

/-- A prelude that may be missing is read behind complete items. -/
theorem Stands.behind {stack : List OpenBlock} {blocks : List Block} {p : Option Text}
    (h : Stands ts stack blocks p) :
    ∃ before, ts = before ++ preludeTokens p ∧ Stands before stack blocks none := by
  cases h with
  | top items => exact ⟨_, (List.append_nil _).symm, .top items⟩
  | inside h p items => exact ⟨_, (List.append_nil _).symm, .inside h p items⟩
  | pending h p => exact ⟨_, rfl, h⟩

theorem Stands.step {s s' : ParserState} {t : Located} (h : Stands ts s.stack s.blocks s.pending)
    (hstep : s.step t = .ok s') : Stands (ts ++ [t.token]) s'.stack s'.blocks s'.pending := by
  obtain ⟨before, rfl, hbefore⟩ := h.behind
  rcases ParserState.step_eq_ok hstep with ⟨text, htoken, hpending, rfl⟩ | ⟨htoken, rfl⟩ |
    ⟨text, htoken, hpending, rfl⟩ | ⟨b, below, htoken, hstack, rfl⟩
  · rw [hpending, htoken]
    simpa [preludeTokens] using hbefore.pending text
  · -- A semicolon makes a statement of the pending prelude.
    rw [htoken, List.append_assoc]
    exact hbefore.item (.statement s.pending)
  · rw [hpending, htoken, List.append_assoc]
    exact hbefore.inside text []
  · -- A closing brace makes a block of the items inside, which is one more item outside.
    rw [hstack] at hbefore
    generalize hblocks : s.blocks = blocks at hbefore
    cases hbefore with
    | inside houter p items =>
      have hblock := houter.item (.block p items s.pending)
      simpa [htoken, hblocks, Item.yield, Item.block?] using hblock

theorem Stands.eq_top {bs : List Block} (h : Stands ts [] bs none) :
    ∃ items, ts = yieldOf items ∧ bs = (blocksOf items).reverse := by
  cases h with
  | top items => exact ⟨items, rfl, rfl⟩

/-- A parser that accepts has read complete items. -/
theorem Stands.of_parseTokens {s : ParserState} {ls : List Located} {blocks : List Block}
    (h : Stands ts s.stack s.blocks s.pending) (hparse : parseTokens s ls = .ok blocks) :
    Stands (ts ++ ls.map Located.token) [] blocks.reverse none := by
  induction ls generalizing s ts with
  | nil =>
    rw [parseTokens, ParserState.finish] at hparse
    split at hparse
    · next hend =>
      simp only [Bool.and_eq_true, List.isEmpty_iff, Option.isNone_iff_eq_none] at hend
      rw [hend.1, hend.2] at h
      rw [← Except.ok.inj hparse]
      simpa using h
    · contradiction
  | cons t ls ih =>
    rw [parseTokens] at hparse
    split at hparse
    · next s' hstep =>
      simpa using ih (h.step hstep) hparse
    · contradiction

mutual

theorem Item.stray_not_mem : ∀ (i : Item) (c : CodePoint), .stray c ∉ i.yield
  | .block p items last, c => by
    have ih := stray_not_mem_yieldOf items c
    simp [Item.yield, preludeTokens, ih]
  | .statement p, c => by simp [Item.yield, preludeTokens]

theorem stray_not_mem_yieldOf : ∀ (is : List Item) (c : CodePoint), .stray c ∉ yieldOf is
  | [], c => by simp [yieldOf]
  | i :: is, c => by simp [yieldOf, i.stray_not_mem c, stray_not_mem_yieldOf is c]

end

/-- What is accepted is derived, with the blocks of the answer. -/
theorem derives_of_parse {source : Text} {blocks : List Block} (h : parse source = .ok blocks) :
    ∃ items, Derives (significant source) items ∧ blocksOf items = blocks := by
  have hstart : Stands [] ParserState.start.stack ParserState.start.blocks
      ParserState.start.pending := .top []
  obtain ⟨items, hts, hblocks⟩ := (hstart.of_parseTokens h).eq_top
  rw [List.nil_append] at hts
  refine ⟨items, ?_, List.reverse_inj.1 hblocks.symm⟩
  rw [Derives, ← hts]
  exact splits_tokensFrom _ _ fun c => hts ▸ stray_not_mem_yieldOf items c

/-! ## What is derived is accepted -/

/-- Tokens lead the parser from one state to another, wherever they stand. -/
def Leads (s : ParserState) (ts : List Token) (s' : ParserState) : Prop :=
  ∀ (last : Place) (ls : List Located), ls.map Located.token = ts → ∃ last' : Place, ∀ rest,
    parseTokens { s with last } (ls ++ rest) = parseTokens { s' with last := last' } rest

theorem Leads.nil (s : ParserState) : Leads s [] s := by
  intro last ls hls
  obtain rfl := List.map_eq_nil_iff.1 hls
  exact ⟨last, fun _ => rfl⟩

theorem Leads.append {s s' s'' : ParserState} (h : Leads s ts s') (h' : Leads s' us s'') :
    Leads s (ts ++ us) s'' := by
  intro last ls hls
  obtain ⟨front, back, rfl, hfront, hback⟩ := List.map_eq_append_iff.1 hls
  obtain ⟨middle, hmiddle⟩ := h last front hfront
  obtain ⟨last', hlast'⟩ := h' middle back hback
  refine ⟨last', fun rest => ?_⟩
  rw [List.append_assoc, hmiddle, hlast']

theorem Leads.token {s s' : ParserState} {t : Token} (h : ∀ last place : Place,
    ParserState.step { s with last } ⟨t, place⟩ = .ok { s' with last := place }) :
      Leads s [t] s' := by
  intro last ls hls
  obtain ⟨l, rfl, rfl⟩ : ∃ l : Located, ls = [l] ∧ l.token = t := by
    simpa [List.map_eq_singleton_iff] using hls
  refine ⟨l.place, fun rest => ?_⟩
  rw [List.singleton_append, parseTokens, h last l.place]

theorem leads_prelude {s : ParserState} (hs : s.pending = none) (p : Option Text) :
    Leads s (preludeTokens p) { s with pending := p } := by
  cases p with
  | none =>
    have hsame : { s with pending := none } = s := by rw [← hs]
    rw [hsame]
    exact .nil s
  | some p => exact .token fun last place => by simp [ParserState.step, hs]

mutual

/-- An item adds its block to those that are complete. -/
theorem Item.leads : ∀ (i : Item) (s : ParserState), s.pending = none →
    Leads s i.yield { s with blocks := i.block?.toList ++ s.blocks }
  | .statement p, s, hs =>
    (leads_prelude hs p).append
      (.token fun last place => by simp [ParserState.step, hs, Item.block?])
  | .block p items last, s, hs => by
    have hopen : Leads s [.prelude p, .openBrace]
        { s with stack := ⟨Text.collapse p, s.blocks⟩ :: s.stack, blocks := [] } :=
      (leads_prelude hs (some p)).append (.token fun last place => by simp [ParserState.step, hs])
    have hinside := leads_yieldOf items
      { s with stack := ⟨Text.collapse p, s.blocks⟩ :: s.stack, blocks := [] } hs
    have hlast := leads_prelude (s := { s with
      stack := ⟨Text.collapse p, s.blocks⟩ :: s.stack
      blocks := (blocksOf items).reverse ++ [] }) hs last
    refine hopen.append (hinside.append (hlast.append (.token fun last place => ?_)))
    simp [ParserState.step, hs, Item.block?]

theorem leads_yieldOf : ∀ (is : List Item) (s : ParserState), s.pending = none →
    Leads s (yieldOf is) { s with blocks := (blocksOf is).reverse ++ s.blocks }
  | [], s, _ => .nil s
  | i :: is, s, hs => by
    have hrest := leads_yieldOf is { s with blocks := i.block?.toList ++ s.blocks } hs
    have hblocks : (blocksOf (i :: is)).reverse ++ s.blocks =
        (blocksOf is).reverse ++ (i.block?.toList ++ s.blocks) := by
      cases hi : i.block? <;> simp [blocksOf, hi]
    rw [hblocks]
    exact (i.leads s hs).append hrest

end

/-- What is derived is accepted, with the blocks of the derivation. -/
theorem parse_of_derives {source : Text} {items : List Item}
    (h : Derives (significant source) items) : parse source = .ok (blocksOf items) := by
  obtain ⟨last, hlast⟩ := leads_yieldOf items .start rfl ⟨1, 1⟩ (tokens (significant source))
    (h.eq_tokens ⟨1, 1⟩)
  have hend := hlast []
  rw [List.append_nil] at hend
  rw [parse]
  refine hend.trans ?_
  simp [parseTokens, ParserState.finish, ParserState.start]

theorem parse_eq_ok_iff {source : Text} {blocks : List Block} : parse source = .ok blocks ↔
    ∃ items, Derives (significant source) items ∧ blocksOf items = blocks :=
  ⟨derives_of_parse, fun ⟨_, h, hblocks⟩ => hblocks ▸ parse_of_derives h⟩

theorem Derives.unique {items items' : List Item} (h : Derives cs items) (h' : Derives cs items') :
    items = items' :=
  yieldOf_injective (Splits.unique h h')

/-! ## Reading -/

theorem read_of_derives {source : Text} {items : List Item}
    (h : Derives (significant source) items) : read source =
      if depthOf (blocksOf items) ≤ maxDepth then .ok (blocksOf items)
        else .error .nestedTooDeep := by
  rw [read, parse_of_derives h]

theorem read_of_not_derives {source : Text} (h : ¬∃ items, Derives (significant source) items) :
    ∃ e, read source = .error (.malformed e) := by
  unfold read
  split
  · next e _ => exact ⟨e, rfl⟩
  · next blocks hparse =>
    obtain ⟨items, hitems, -⟩ := parse_eq_ok_iff.1 hparse
    exact absurd ⟨items, hitems⟩ h

/-- **Stylesheets are read by their grammar**: a text is parsed exactly if the grammar derives it,
there is only one derivation then, and the answer is its tree of blocks. Reading refuses a text as
malformed exactly if the grammar does not derive it, and as nested too deeply exactly if it is
derived with more blocks inside one another than are allowed; otherwise it answers as the parser
does. -/
theorem reads_grammar (source : Text) :
    (∀ blocks, parse source = .ok blocks ↔
      ∃ items, Derives (significant source) items ∧ blocksOf items = blocks) ∧
    (∀ items items', Derives (significant source) items → Derives (significant source) items' →
      items = items') ∧
    (∀ blocks, read source = .ok blocks ↔
      (∃ items, Derives (significant source) items ∧ blocksOf items = blocks) ∧
        depthOf blocks ≤ maxDepth) ∧
    (read source = .error .nestedTooDeep ↔
      ∃ items, Derives (significant source) items ∧ maxDepth < depthOf (blocksOf items)) ∧
    ((∃ e, read source = .error (.malformed e)) ↔
      ¬∃ items, Derives (significant source) items) := by
  refine ⟨fun _ => parse_eq_ok_iff, fun _ _ => Derives.unique, ?_⟩
  by_cases hderived : ∃ items, Derives (significant source) items
  · obtain ⟨items, h⟩ := hderived
    have honly : ∀ items', Derives (significant source) items' ↔ items' = items :=
      fun items' => ⟨fun h' => h'.unique h, fun h' => h' ▸ h⟩
    rw [read_of_derives h]
    simp only [honly, exists_eq_left, exists_eq, not_true_eq_false, iff_false]
    by_cases hdepth : depthOf (blocksOf items) ≤ maxDepth
    · simp only [hdepth, if_true]
      grind
    · simp only [hdepth, if_false]
      grind
  · obtain ⟨e, he⟩ := read_of_not_derives hderived
    have hnone : ∀ items, ¬Derives (significant source) items := not_exists.1 hderived
    simp [he, hnone]

/-- Blocks inside one another, each with the prelude `a`. -/
def nestedItems : Nat → List Item
  | 0 => []
  | n + 1 => [.block "a" (nestedItems n) none]

/-- The text of blocks inside one another. -/
def nestedSource : Nat → List CodePoint
  | 0 => []
  | n + 1 => 'a' :: '\x7b' :: (nestedSource n ++ [.char '\x7d'])

theorem splits_nestedSource {n : Nat} {rest : List CodePoint} (h : Splits rest ts) :
    Splits (nestedSource n ++ rest) (yieldOf (nestedItems n) ++ ts) := by
  induction n generalizing rest ts with
  | zero => exact h
  | succ n ih =>
    have hclose : Splits (.char '\x7d' :: rest) (.closeBrace :: ts) := .mark rfl h
    have hopen : Splits (.char '\x7b' :: (nestedSource n ++ .char '\x7d' :: rest))
        (.openBrace :: (yieldOf (nestedItems n) ++ .closeBrace :: ts)) := .mark rfl (ih hclose)
    have hprelude : Splits
        ([CodePoint.char 'a'] ++ .char '\x7b' :: (nestedSource n ++ .char '\x7d' :: rest))
        (.prelude "a" :: .openBrace :: (yieldOf (nestedItems n) ++ .closeBrace :: ts)) :=
      .prelude rfl (by decide) (endsPrelude_cons rfl) hopen
    simpa [nestedSource, nestedItems, yieldOf, Item.yield, preludeTokens] using hprelude

theorem not_mem_nestedSource {c : CodePoint}
    (h : c ∉ [.char 'a', .char '\x7b', .char '\x7d']) (n : Nat) : c ∉ nestedSource n := by
  induction n with
  | zero => simp [nestedSource]
  | succ n ih => simp_all [nestedSource]

theorem derives_nestedSource (n : Nat) :
    Derives (significant (.ofList (nestedSource n))) (nestedItems n) := by
  have hsplits := splits_nestedSource (n := n) .nil
  rw [List.append_nil, List.append_nil] at hsplits
  rwa [Derives, significant, stripComments_of_not_mem (not_mem_nestedSource (by decide) n),
    emptyStrings_of_not_mem (not_mem_nestedSource (by decide) n)
      (not_mem_nestedSource (by decide) n)]

theorem depthOf_nestedItems (n : Nat) : depthOf (blocksOf (nestedItems n)) = n := by
  induction n with
  | zero => rfl
  | succ n ih => simp [nestedItems, blocksOf, Item.block?, depthOf, Block.depth, ih]

/-- Three thousand blocks inside one another are derived by the grammar and not read. -/
theorem nestedSource_not_read : ¬∀ source items, Derives (significant source) items →
    read source = .ok (blocksOf items) := by
  intro hclaim
  have hread := hclaim _ _ (derives_nestedSource 3000)
  rw [read_of_derives (derives_nestedSource 3000), depthOf_nestedItems, if_neg (by decide)] at hread
  contradiction

end UtilityCss.Stylesheet
