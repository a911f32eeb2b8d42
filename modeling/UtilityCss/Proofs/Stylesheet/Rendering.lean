import UtilityCss.Output
import UtilityCss.Proofs.Stylesheet.Layout
/-!
# Reading a generated stylesheet back

A stylesheet that is made of tidy rules is read as one block for each of them, unless a comment that
is opened in one rule is closed in a later one. Such a comment swallows the opening brace of a rule,
so there are fewer blocks then. Both directions are seen at the opening braces, which are the same
in number as the blocks.
-/

namespace UtilityCss

namespace Stylesheet

variable {cs behind : List CodePoint} {ts : List Token} {rules : List CssRule} {minify : Bool}

/-! ## Counting opening braces -/

theorem punctuation?_eq_openBrace {c : CodePoint} :
    punctuation? c = some .openBrace ↔ c = '\x7b' := by
  unfold punctuation?
  repeat' split
  all_goals simp_all

theorem Splits.count_openBrace (h : Splits cs ts) :
    ts.count .openBrace = cs.count (.char '\x7b') := by
  induction h with
  | nil => rfl
  | @ignored c cs ts hc _ ih =>
    have hne : c ≠ '\x7b' := by
      rintro rfl
      contradiction
    rw [List.count_cons_of_ne hne, ih]
  | @mark c cs t ts hc _ ih =>
    by_cases hopen : c = '\x7b'
    · subst hopen
      obtain rfl := Option.some.inj hc
      rw [List.count_cons_self, List.count_cons_self, ih]
    · have ht : t ≠ .openBrace := fun ht => hopen (punctuation?_eq_openBrace.1 (ht ▸ hc))
      rw [List.count_cons_of_ne ht, List.count_cons_of_ne hopen, ih]
  | @prelude c run rest ts _ hrun _ _ ih =>
    have hnone : (c :: run).count (.char '\x7b') = 0 :=
      List.count_eq_zero.2 fun hmem => absurd (hrun _ hmem) (by decide)
    rw [List.count_cons_of_ne (by simp), List.count_append, hnone, ih, Nat.zero_add]

mutual

theorem Item.count_yield : ∀ i : Item, (∀ b ∈ i.block?, b.children = []) →
    i.yield.count .openBrace = i.block?.toList.length
  | .statement p, _ => by cases p <;> simp [Item.yield, preludeTokens, Item.block?]
  | .block p items last, h => by
    have hblocks : blocksOf items = [] := h _ rfl
    have hitems := count_yieldOf items (by simp [hblocks])
    rw [hblocks] at hitems
    cases last <;> simp [Item.yield, preludeTokens, Item.block?, List.count_append, hitems]

/-- Items without blocks inside blocks have one opening brace for each block. -/
theorem count_yieldOf : ∀ is : List Item, (∀ b ∈ blocksOf is, b.children = []) →
    (yieldOf is).count .openBrace = (blocksOf is).length
  | [], _ => rfl
  | i :: is, h => by
    simp only [blocksOf, List.forall_mem_append, Option.mem_toList] at h
    rw [yieldOf, List.count_append, i.count_yield h.1, count_yieldOf is h.2, blocksOf,
      List.length_append]

end

end Stylesheet

namespace CssRule

open Stylesheet

variable {r : CssRule} {minify : Bool} {behind : List CodePoint}

/-- A rule has one opening brace. -/
theorem Tidy.count_written (hr : r.Tidy) : (r.written minify).count (.char '\x7b') = 1 := by
  have hselector : r.selector.toList.count (.char '\x7b') = 0 :=
    List.count_eq_zero.2 fun hmem => absurd (hr.selector _ hmem).1 (by decide)
  have hgap : (gap minify).count (.char '\x7b') = 0 := by cases minify <;> decide
  have hbody : (r.body minify).count (.char '\x7b') = 0 :=
    List.count_eq_zero.2 fun hmem => absurd (hr.body _ hmem).1 (by decide)
  simp only [written_eq, List.count_append, List.count_cons, hselector, hgap, hbody, List.count_nil]
  decide

/-- A comment is closed in a rule behind its opening brace. -/
theorem Tidy.count_behind (hr : r.Tidy) (h : afterComment? (r.written minify) = some behind) :
    behind.count (.char '\x7b') = 0 := by
  -- Nothing up to the opening brace closes a comment, so what is behind the comment lies in the
  -- body.
  have hfront : afterComment? (r.selector.toList ++ (gap minify ++ [.char '\x7b'])) = none := by
    have hrest : afterComment? (gap minify ++ [CodePoint.char '\x7b']) = none := by
      cases minify <;> rfl
    rw [afterComment?_append_of_none (unjoined_of_head? (by cases minify <;> decide)), hrest]
    simpa [closesComment] using hr.selector_closes
  have hwritten : r.written minify =
      (r.selector.toList ++ (gap minify ++ [.char '\x7b'])) ++
        (r.body minify ++ [.char '\x7d']) := by
    simp [written_eq]
  have hlast : (r.selector.toList ++ (gap minify ++ [CodePoint.char '\x7b'])).getLast? =
      some (CodePoint.char '\x7b') := by
    simp
  rw [hwritten, afterComment?_append_of_none (unjoined_of_getLast? (by rw [hlast]; decide)) hfront]
    at h
  obtain ⟨inside, hinside⟩ := exists_of_afterComment? h
  rw [List.count_eq_zero]
  intro hmem
  have hbody : CodePoint.char '\x7b' ∈ r.body minify ++ [.char '\x7d'] := by
    rw [hinside]
    simp [hmem]
  rcases List.mem_append.1 hbody with hbody | hbody
  · exact absurd (hr.body _ hbody).1 (by decide)
  · exact absurd hbody (by decide)

end CssRule

namespace Stylesheet

open CssRule
open ClassAttribute (isQuote)

variable {cs behind : List CodePoint} {rules : List CssRule} {minify : Bool}

theorem count_separator (cs : List CodePoint) :
    (separator minify ++ cs).count (.char '\x7b') = cs.count (.char '\x7b') := by
  cases minify with
  | true => rfl
  | false => rw [separator, if_neg (by decide), List.count_append]; simp

theorem count_trail (hrules : ∀ r ∈ rules, r.Tidy) :
    (trail minify rules).count (.char '\x7b') = rules.length := by
  induction rules with
  | nil => rfl
  | cons r rules ih =>
    rw [List.forall_mem_cons] at hrules
    rw [trail, List.flatMap_cons, List.append_assoc, count_separator, List.count_append, ← trail,
      hrules.1.count_written, ih hrules.2, List.length_cons, Nat.add_comm]

/-- A closed comment takes away at least one opening brace. -/
theorem count_behind_trail (hrules : ∀ r ∈ rules, r.Tidy)
    (h : afterComment? (trail minify rules) = some behind) :
    behind.count (.char '\x7b') < rules.length := by
  induction rules with
  | nil => contradiction
  | cons r rules ih =>
    rw [List.forall_mem_cons] at hrules
    have hseparator : afterComment? (separator minify) = none := by cases minify <;> rfl
    have hunjoined (cs : List CodePoint) : Unjoined (separator minify) cs :=
      unjoined_of_getLast? (by cases minify <;> decide)
    rw [trail, List.flatMap_cons, List.append_assoc,
      afterComment?_append_of_none (hunjoined _) hseparator, ← trail] at h
    cases hfirst : afterComment? (r.written minify) with
    | some inner =>
      rw [afterComment?_append hfirst, Option.some.injEq] at h
      rw [← h, List.count_append, hrules.1.count_behind hfirst, count_trail hrules.2,
        List.length_cons]
      omega
    | none =>
      rw [afterComment?_append_of_none (Tidy.unjoined _) hfirst] at h
      exact Nat.lt_succ_of_lt (ih hrules.2 h)

/-- If a comment reaches from one rule into a later one, there are fewer opening braces than
rules. -/
theorem count_stripComments_lt (hrules : ∀ r ∈ rules, r.Tidy) (h : ¬CommentsApart minify rules) :
    (stripComments (trail minify rules)).count (.char '\x7b') < rules.length := by
  induction rules with
  | nil => exact absurd List.Pairwise.nil h
  | cons r rules ih =>
    rw [List.forall_mem_cons] at hrules
    have hone : (r.written minify).count (.char '\x7b') = 1 := hrules.1.count_written
    rw [trail, List.flatMap_cons, List.append_assoc, stripComments_separator, count_separator,
      ← trail]
    -- Either the first rule leaves a comment open that is closed later, or the comment is among the
    -- others.
    by_cases hcross : leavesCommentOpen (r.written minify) = true ∧
        closesComment (trail minify rules) = true
    · obtain ⟨behind, hbehind⟩ := Option.isSome_iff_exists.1 hcross.2
      obtain ⟨kept, hkept, hstrip⟩ := stripComments_crossing (Tidy.unjoined _) hcross.1 hbehind
      have hfront := hkept.count_le (.char '\x7b')
      have hback := (stripComments_sublist behind).count_le (.char '\x7b')
      have hfewer := count_behind_trail hrules.2 hbehind
      rw [hstrip, List.count_append, List.length_cons]
      omega
    · have hopen : leavesCommentOpen (r.written minify) = true →
          closesComment (trail minify rules) = false := by simpa using hcross
      have hrest : ¬CommentsApart minify rules := by
        refine fun hrest => h (List.pairwise_cons.2 ⟨fun r' hr' hcomment => ?_, hrest⟩)
        have hclosed := hopen hcomment.1
        rw [closesComment_trail, List.any_eq_false] at hclosed
        exact hclosed r' hr' hcomment.2
      have hfront := (stripComments_sublist (r.written minify)).count_le (.char '\x7b')
      have hback := ih hrules.2 hrest
      rw [stripComments_append (Tidy.unjoined _) hopen, List.count_append, List.length_cons]
      omega

/-! ## The text of a stylesheet -/

/-- Without banner and footer, a stylesheet is its rules with separators between them. -/
theorem trail_cons {s : OutputSettings} (hbanner : s.banner = "") (hfooter : s.footer = "")
    (r : CssRule) (rules : List CssRule) :
    trail s.minify (r :: rules) = separator s.minify ++ (s.renderText (r :: rules)).toList := by
  have hparts (sep text : Text) :
      (Text.intercalate sep ([s.banner, text, s.footer].filter (!·.isEmpty))).toList =
        text.toList := by
    rw [hbanner, hfooter]
    cases htext : text.toList with
    | nil => simp [Text.isEmpty, htext, Text.intercalate, List.intercalate]
    | cons c cs => simp [Text.isEmpty, htext, Text.intercalate, List.intercalate]
  have hseparator : separator s.minify = (if s.minify then "" else "\n\n" : Text).toList := by
    cases s.minify <;> rfl
  rw [OutputSettings.renderText, hparts, List.map_cons, Text.toList_intercalate_cons, trail,
    List.flatMap_cons, List.flatMap_map, hseparator, List.append_assoc]
  rfl

theorem renderText_nil {s : OutputSettings} (hbanner : s.banner = "") (hfooter : s.footer = "") :
    (s.renderText []).toList = [] := by
  rw [OutputSettings.renderText, hbanner, hfooter]
  rfl

theorem significant_renderText {s : OutputSettings} (hbanner : s.banner = "")
    (hfooter : s.footer = "") (hrules : ∀ r ∈ rules, r.Tidy) :
    significant (s.renderText rules) = stripComments (s.renderText rules).toList := by
  have hquotes : ∀ c ∈ (s.renderText rules).toList, isQuote c = false := by
    cases rules with
    | nil => simp [renderText_nil hbanner hfooter]
    | cons r rules =>
      intro c hc
      have htrail : c ∈ trail s.minify (r :: rules) := by
        rw [trail_cons hbanner hfooter]
        exact List.mem_append_right _ hc
      obtain ⟨r', hr', hmem⟩ := List.mem_flatMap.1 htrail
      rcases List.mem_append.1 hmem with hmem | hmem
      · have hseparator : ∀ c ∈ separator s.minify, isQuote c = false := by
          cases s.minify <;> decide
        exact hseparator c hmem
      · exact (hrules r' hr').not_quote c hmem
  have hnone (c : CodePoint) (hc : isQuote c = true) : c ∉ stripComments
      (s.renderText rules).toList :=
    fun hmem => by simp [hquotes c ((stripComments_sublist _).subset hmem)] at hc
  exact emptyStrings_of_not_mem (hnone '"' rfl) (hnone '\'' rfl)

theorem derives_renderText_iff {s : OutputSettings} (hbanner : s.banner = "")
    (hfooter : s.footer = "") (hrules : ∀ r ∈ rules, r.Tidy) (items : List Item) :
    Derives (significant (s.renderText rules)) items ↔
      Splits (stripComments (trail s.minify rules)) (yieldOf items) := by
  rw [Derives, significant_renderText hbanner hfooter hrules]
  cases rules with
  | nil => rw [renderText_nil hbanner hfooter]; rfl
  | cons r rules => rw [trail_cons hbanner hfooter, stripComments_separator, splits_separator_iff]

/-- Blocks without blocks inside are not nested too deeply. -/
theorem depthOf_le_one (preludes : List Text) :
    depthOf (preludes.map fun p => ⟨p, []⟩) ≤ 1 := by
  induction preludes with
  | nil => simp [depthOf]
  | cons p ps ih => exact Nat.max_le.2 ⟨Nat.le_refl 1, ih⟩

theorem depthOf_rules_le (rules : List CssRule) :
    depthOf (rules.map fun r => ⟨Text.collapse r.selector, []⟩) ≤ maxDepth := by
  have hflat := depthOf_le_one (rules.map fun r => Text.collapse r.selector)
  rw [List.map_map] at hflat
  exact Nat.le_trans hflat (by decide)

/-- **A stylesheet of tidy rules is read back as its rules if and only if no comment reaches from
one rule into a later one.** -/
theorem read_renderText_iff {s : OutputSettings} (hbanner : s.banner = "") (hfooter : s.footer = "")
    (hrules : ∀ r ∈ rules, r.Tidy) :
    read (s.renderText rules) = .ok (rules.map fun r => ⟨Text.collapse r.selector, []⟩) ↔
      CommentsApart s.minify rules := by
  have hderives := derives_renderText_iff hbanner hfooter hrules
  constructor
  · intro h
    obtain ⟨items, hitems⟩ : ∃ items, Derives (significant (s.renderText rules)) items := by
      refine Classical.byContradiction fun hnone => ?_
      obtain ⟨e, he⟩ := read_of_not_derives hnone
      rw [he] at h
      contradiction
    rw [read_of_derives hitems] at h
    split at h
    · have hblocks := Except.ok.inj h
      have hcount := ((hderives items).1 hitems).count_openBrace
      rw [count_yieldOf items (by simp [hblocks]), hblocks, List.length_map] at hcount
      -- The derivation has an opening brace for each rule, and a crossing comment would have taken
      -- one away.
      refine Classical.byContradiction fun hnot => ?_
      have hfewer := count_stripComments_lt hrules hnot
      omega
    · contradiction
  · intro h
    obtain ⟨items, hblocks, hitems⟩ := splits_trail hrules h
    rw [read_of_derives ((hderives items).2 hitems), hblocks, if_pos (depthOf_rules_le rules)]

end Stylesheet

end UtilityCss
