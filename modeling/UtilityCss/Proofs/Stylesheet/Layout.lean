import UtilityCss.Compiler
import UtilityCss.Proofs.Stylesheet.Comment
import UtilityCss.Proofs.Stylesheet.Recognition
import UtilityCss.Sources
/-!
# The layout of generated rules

A generated rule is written as a head, an opening brace, a body and a closing brace. If there are no
braces in head and body, no semicolons in the head and no odd blanks in the body, then the rule is
read as one block without blocks inside, whatever statements its body splits into.
-/

namespace UtilityCss

namespace Stylesheet

variable {cs rest : List CodePoint} {ts us : List Token}

/-! ## Bodies -/

/-- What may stand in the body of a rule: no braces, and no blanks but those that are ignored
between tokens. -/
def inBody (c : CodePoint) : Bool :=
  c != '\x7b' && c != '\x7d' && (!Text.isBlank c || isSkipped c)

theorem stray_mem {p : Place} {c : CodePoint} (h : .stray c ∈ (tokensFrom p cs).map Located.token) :
    c ∈ cs ∧ Text.isBlank c = true ∧ isSkipped c = false := by
  fun_induction tokensFrom p cs with
  | case1 => simp at h
  | case2 p d cs t ht ih =>
    rcases List.mem_cons.1 h with rfl | h
    · simp only [punctuation?] at ht
      repeat' split at ht
      all_goals simp at ht
    · exact ⟨List.mem_cons_of_mem _ (ih h).1, (ih h).2⟩
  | case3 p d cs _ _ ih => exact ⟨List.mem_cons_of_mem _ (ih h).1, (ih h).2⟩
  | case4 p d cs _ hskip hblank =>
    simp only [List.map_cons, List.map_nil, List.mem_singleton, Token.stray.injEq] at h
    subst h
    exact ⟨List.mem_cons_self, hblank, by simpa using hskip⟩
  | case5 p d cs _ _ _ run ih =>
    rcases List.mem_cons.1 h with h | h
    · contradiction
    · exact ⟨List.mem_cons_of_mem _ ((List.dropWhile_sublist _).subset (ih h).1), (ih h).2⟩

/-- A text without odd blanks splits into tokens. -/
theorem exists_splits (h : ∀ c ∈ cs, Text.isBlank c = true → isSkipped c = true) :
    ∃ ts, Splits cs ts := by
  refine ⟨_, splits_tokensFrom ⟨1, 1⟩ cs fun c hc => ?_⟩
  obtain ⟨hmem, hblank, hskip⟩ := stray_mem hc
  rw [h c hmem hblank] at hskip
  contradiction

/-- Two pieces split one after the other if no prelude goes on from the first to the second. -/
theorem Splits.append (h : Splits cs ts) (hrest : Splits rest us) (hend : EndsPrelude rest) :
    Splits (cs ++ rest) (ts ++ us) := by
  induction h with
  | nil => exact hrest
  | ignored hc _ ih => exact .ignored hc ih
  | mark hc _ ih => exact .mark hc ih
  | @prelude c run rest' ts hfirst hrun hend' _ ih =>
    -- A last prelude goes up to the end of the first piece, and `hend` keeps it from going on.
    rw [List.append_assoc]
    refine .prelude hfirst hrun ?_ ih
    cases rest' with
    | nil => exact hend
    | cons d rest' => exact endsPrelude_cons (hend' d rfl)

theorem Splits.semicolon_of_endsPrelude (h : Splits cs ts) (hend : EndsPrelude cs)
    (hcs : ∀ c ∈ cs, inBody c = true) :
    ts = [] ∨ ∃ us, ts = .semicolon :: us := by
  cases h with
  | nil => exact .inl rfl
  | @ignored c _ _ hc _ =>
    have hmark := continuesPrelude_eq_true.2 (punctuation?_of_isSkipped hc)
    rw [hend c rfl] at hmark
    contradiction
  | @mark c _ t us hc _ =>
    have hbody := hcs c List.mem_cons_self
    simp only [inBody, Bool.and_eq_true, bne_iff_ne] at hbody
    simp only [punctuation?, hbody.1.1, hbody.1.2, if_false] at hc
    split at hc
    · exact .inr ⟨us, by rw [Option.some.inj hc]⟩
    · contradiction
  | @prelude c _ _ _ _ hrun _ _ =>
    have hgoes := hrun c List.mem_cons_self
    rw [hend c rfl] at hgoes
    contradiction

/-- The body of a rule is a sequence of statements, and possibly a last prelude. -/
theorem Splits.statements (h : Splits cs ts) (hcs : ∀ c ∈ cs, inBody c = true) :
    ∃ items last, ts = yieldOf items ++ preludeTokens last ∧ blocksOf items = [] := by
  induction h with
  | nil => exact ⟨[], none, rfl, rfl⟩
  | ignored _ _ ih => exact ih fun c hc => hcs c (List.mem_cons_of_mem _ hc)
  | mark hc h ih =>
    obtain ⟨items, last, rfl, hblocks⟩ := ih fun c hc => hcs c (List.mem_cons_of_mem _ hc)
    rcases (Splits.mark hc h).semicolon_of_endsPrelude
      (endsPrelude_cons (by simp [continuesPrelude, hc])) hcs with h | ⟨us, h⟩
    · contradiction
    · obtain ⟨rfl, -⟩ := List.cons.inj h
      exact ⟨.statement none :: items, last, rfl, hblocks⟩
  | @prelude c run rest ts hfirst hrun hend h ih =>
    -- What follows a prelude is nothing or a semicolon, which the first statement behind it has.
    have hrest : ∀ c ∈ rest, inBody c = true := fun c hc => hcs c (List.mem_append_right _ hc)
    obtain ⟨items, last, rfl, hblocks⟩ := ih hrest
    generalize hp : Text.ofList (c :: run) = p
    rcases h.semicolon_of_endsPrelude hend hrest with hnone | ⟨us, hsome⟩
    · exact ⟨[], some p, by rw [hnone]; rfl, rfl⟩
    · cases items with
      | nil => cases last <;> simp [yieldOf, preludeTokens] at hsome
      | cons i items =>
        cases i with
        | block => simp [yieldOf, Item.yield] at hsome
        | statement q =>
          cases q with
          | some q => simp [yieldOf, Item.yield, preludeTokens] at hsome
          | none => exact ⟨.statement (some p) :: items, last, rfl, hblocks⟩

/-- A head and a body in braces are one block without blocks inside. -/
theorem splits_block {c : CodePoint} {head body : List CodePoint} (hfirst : Text.isBlank c = false)
    (hhead : ∀ d ∈ c :: head, continuesPrelude d = true) (hbody : ∀ d ∈ body, inBody d = true)
    (h : Splits rest ts) : ∃ items last, blocksOf items = [] ∧
      Splits (c :: head ++ .char '\x7b' :: (body ++ .char '\x7d' :: rest))
        ((Item.block (.ofList (c :: head)) items last).yield ++ ts) := by
  have hblanks : ∀ d ∈ body, Text.isBlank d = true → isSkipped d = true := by
    intro d hd hblank
    have hd := hbody d hd
    simp_all [inBody]
  obtain ⟨us, hus⟩ := exists_splits hblanks
  obtain ⟨items, last, rfl, hblocks⟩ := hus.statements hbody
  -- From the back to the front: the closing brace, the body before it, and the head with its brace.
  have hclose : Splits (.char '\x7d' :: rest) (.closeBrace :: ts) := .mark rfl h
  have hinside := hus.append hclose (endsPrelude_cons rfl)
  refine ⟨items, last, hblocks, ?_⟩
  have hopen := Splits.prelude hfirst hhead (endsPrelude_cons rfl) (.mark (c := '\x7b') rfl hinside)
  simpa [Item.yield] using hopen

end Stylesheet

/-! ## Rules -/

namespace CssRule

open Stylesheet
open ClassAttribute (isQuote)

variable {r : CssRule} {minify : Bool} {rest : List CodePoint}

/-- A declaration as it is written. -/
def declared (minify : Bool) (d : Declaration) : Text :=
  if minify then d.property ++ ":" ++ d.value ++ ";"
    else "  " ++ d.property ++ ": " ++ d.value ++ ";"

/-- What stands between a selector and its opening brace. -/
def gap (minify : Bool) : List CodePoint := if minify then [] else [.char ' ']

/-- What stands in front of the opening brace does not change the prelude. -/
theorem collapse_selector :
    Text.collapse (.ofList (r.selector.toList ++ gap minify)) = Text.collapse r.selector := by
  cases minify with
  | true => simp [gap]
  | false => simp only [Text.collapse, gap, Bool.false_eq_true, if_false,
      Text.words_append_blank (c := ' ') rfl]

/-- What stands between the braces. -/
def body (r : CssRule) (minify : Bool) : List CodePoint :=
  if minify then (Text.join (r.declarations.map (declared true))).toList
  else .char '\n' :: (Text.intercalate "\n" (r.declarations.map (declared false))).toList ++
    [.char '\n']

/-- The characters of a rule. -/
def written (r : CssRule) (minify : Bool) : List CodePoint := (r.render minify).toList

theorem written_eq : r.written minify =
    r.selector.toList ++ (gap minify ++ .char '\x7b' :: (r.body minify ++ [.char '\x7d'])) := by
  cases minify with
  | true =>
    simp only [written, render, compact, if_true, gap, body, Text.toList_append, List.append_assoc]
    rfl
  | false =>
    simp only [written, render, pretty, Bool.false_eq_true, if_false, gap, body, Text.toList_append,
      List.append_assoc]
    rfl

/-- What holds of the characters of all declarations and of the marks between them holds in the
body. -/
theorem forall_mem_body {p : CodePoint → Prop}
    (hdeclared : ∀ d ∈ r.declarations, ∀ c ∈ d.property.toList ++ d.value.toList, p c)
    (hmarks : ∀ c ∈ [CodePoint.char ' ', .char '\n', .char ':', .char ';'], p c) :
    ∀ c ∈ r.body minify, p c := by
  -- Minified, the declarations follow each other; else there are line breaks around and between.
  have hone (m : Bool) : ∀ d ∈ r.declarations, ∀ c ∈ (declared m d).toList, p c := by
    intro d hd c hc
    have hparts := hdeclared d hd
    cases m <;> simp [declared] at hc <;> grind
  cases minify with
  | true =>
    simp only [body, if_true, Text.join, List.flatMap_map, List.mem_flatMap]
    rintro c ⟨d, hd, hc⟩
    exact hone true d hd c hc
  | false =>
    have hjoined : ∀ c ∈
        (Text.intercalate "\n" (r.declarations.map (declared false))).toList, p c := by
      cases hds : r.declarations with
      | nil => simp [Text.intercalate]
      | cons d ds =>
        rw [hds] at hone
        rw [List.map_cons, Text.toList_intercalate_cons]
        intro c hc
        simp only [List.mem_append, List.mem_flatMap, List.mem_map] at hc
        rcases hc with hc | ⟨_, ⟨e, he, rfl⟩, hc | hc⟩
        · exact hone false d List.mem_cons_self c hc
        · exact hmarks c (by simp_all)
        · exact hone false e (List.mem_cons_of_mem _ he) c hc
    intro c hc
    simp only [body, Bool.false_eq_true, if_false, List.mem_append, List.mem_cons, List.not_mem_nil,
      or_false] at hc
    rcases hc with (rfl | hc) | rfl
    · exact hmarks _ (by simp)
    · exact hjoined c hc
    · exact hmarks _ (by simp)

/-- A rule that can be read back. Its selector is a prelude, there are no braces and no odd blanks
in its declarations, and no quotes anywhere. Comments may be opened and closed, but not in the
selector. -/
structure Tidy (r : CssRule) : Prop where
  selector_first : ∃ c cs, r.selector.toList = c :: cs ∧ Text.isBlank c = false
  selector : ∀ c ∈ r.selector.toList, continuesPrelude c = true ∧ isQuote c = false
  selector_opens : NoComment r.selector.toList
  selector_closes : closesComment r.selector.toList = false
  declarations : ∀ d ∈ r.declarations, ∀ c ∈ d.property.toList ++ d.value.toList,
    inBody c = true ∧ isQuote c = false

namespace Tidy

theorem body (hr : r.Tidy) : ∀ c ∈ r.body minify, inBody c = true ∧ isQuote c = false :=
  forall_mem_body hr.declarations (by decide)

theorem not_quote (hr : r.Tidy) : ∀ c ∈ r.written minify, isQuote c = false := by
  have hgap : ∀ c ∈ gap minify, isQuote c = false := by cases minify <;> decide
  intro c hc
  simp only [written_eq, List.mem_append, List.mem_cons, List.not_mem_nil, or_false] at hc
  rcases hc with hc | hc | rfl | hc | rfl
  · exact (hr.selector c hc).2
  · exact hgap c hc
  · rfl
  · exact (hr.body c hc).2
  · rfl

/-- Removing comments from a rule removes them from its body. -/
theorem stripComments_written (hr : r.Tidy) : stripComments (r.written minify) =
    r.selector.toList ++ gap minify ++
      .char '\x7b' :: (stripComments (r.body minify) ++ [.char '\x7d']) := by
  have hclose : stripComments [.char '\x7d'] = [.char '\x7d'] := by
    rw [stripComments_cons (by decide), stripComments]
  have hbody : stripComments (r.body minify ++ [.char '\x7d']) =
      stripComments (r.body minify) ++ [.char '\x7d'] := by
    rw [stripComments_append (unjoined_of_head? (by decide)) fun _ => by decide, hclose]
  have hgap (cs : List CodePoint) : stripComments (gap minify ++ .char '\x7b' :: cs) =
      gap minify ++ .char '\x7b' :: stripComments cs := by
    cases minify with
    | true => exact stripComments_cons (by simp)
    | false =>
      exact (stripComments_cons (by simp)).trans (congrArg _ (stripComments_cons (by simp)))
  have hjoin : Unjoined r.selector.toList
      (gap minify ++ .char '\x7b' :: (r.body minify ++ [.char '\x7d'])) :=
    unjoined_of_head? (by cases minify <;> simp [gap])
  rw [written_eq, stripComments_append hjoin (by simp [hr.selector_opens.leavesCommentOpen]),
    hr.selector_opens.stripComments, hgap, hbody, List.append_assoc]

theorem unjoined (rest : List CodePoint) : Unjoined (r.written minify) rest := by
  have hlast : r.written minify =
      (r.selector.toList ++ (gap minify ++ .char '\x7b' :: r.body minify)) ++ [.char '\x7d'] := by
    simp [written_eq]
  refine unjoined_of_getLast? fun c hc => ?_
  rw [hlast, List.getLast?_concat, Option.mem_some_iff] at hc
  subst hc
  decide

/-- A rule is read as one block without blocks inside, if no comment of it is closed behind it. -/
theorem splits (hr : r.Tidy) (hopen : leavesCommentOpen (r.written minify) = true →
    closesComment rest = false) {ts : List Token} (h : Splits (stripComments rest) ts) :
    ∃ i : Item, i.block? = some ⟨Text.collapse r.selector, []⟩ ∧
      Splits (stripComments (r.written minify ++ rest)) (i.yield ++ ts) := by
  obtain ⟨c, cs, hselector, hfirst⟩ := hr.selector_first
  have hhead : ∀ d ∈ c :: (cs ++ gap minify), continuesPrelude d = true := by
    intro d hd
    rw [← List.cons_append, ← hselector, List.mem_append] at hd
    rcases hd with hd | hd
    · exact (hr.selector d hd).1
    · cases minify with
      | true => simp [gap] at hd
      | false => simp_all [gap]; rfl
  -- The body is read without its comments, and nothing is left of it but what stood there.
  have hbody : ∀ d ∈ stripComments (r.body minify), inBody d = true :=
    fun d hd => (hr.body d ((stripComments_sublist _).subset hd)).1
  obtain ⟨items, last, hitems, hsplits⟩ := splits_block hfirst hhead hbody h
  refine ⟨.block (.ofList (c :: (cs ++ gap minify))) items last, ?_, ?_⟩
  · rw [Item.block?, hitems, ← List.cons_append, ← hselector, collapse_selector]
  · rw [stripComments_append (unjoined rest) hopen, hr.stripComments_written, hselector]
    simpa using hsplits

end Tidy

end CssRule

/-! ## Stylesheets -/

namespace Stylesheet

open CssRule

variable {rules : List CssRule} {minify : Bool}

/-- What stands between two rules. -/
def separator (minify : Bool) : List CodePoint := if minify then [] else [.char '\n', .char '\n']

/-- Rules, each of them behind a separator. -/
def trail (minify : Bool) (rules : List CssRule) : List CodePoint :=
  rules.flatMap fun r => separator minify ++ r.written minify

/-- No comment reaches from one rule into a later one. -/
def CommentsApart (minify : Bool) (rules : List CssRule) : Prop :=
  rules.Pairwise fun r r' =>
    ¬(leavesCommentOpen (r.written minify) = true ∧ closesComment (r'.written minify) = true)

theorem stripComments_separator (cs : List CodePoint) :
    stripComments (separator minify ++ cs) = separator minify ++ stripComments cs := by
  cases minify with
  | true => rfl
  | false => exact (stripComments_cons (by simp)).trans (congrArg _ (stripComments_cons (by simp)))

theorem closesComment_separator (cs : List CodePoint) :
    closesComment (separator minify ++ cs) = closesComment cs := by
  rw [closesComment_append (unjoined_of_getLast? (by cases minify <;> decide))]
  cases minify <;> simp [separator, closesComment, afterComment?]

/-- A separator splits into no tokens. -/
theorem splits_separator_iff {cs : List CodePoint} {ts : List Token} :
    Splits (separator minify ++ cs) ts ↔ Splits cs ts := by
  have hbreak {cs : List CodePoint} : Splits (.char '\n' :: cs) ts ↔ Splits cs ts := by
    refine ⟨fun h => ?_, .ignored rfl⟩
    cases h with
    | ignored _ h => exact h
    | mark hc => contradiction
    | prelude hfirst => contradiction
  cases minify with
  | true => rfl
  | false => exact hbreak.trans hbreak

/-- Rules close a comment only if one of them does. -/
theorem closesComment_trail : closesComment (trail minify rules) =
    rules.any fun r => closesComment (r.written minify) := by
  induction rules with
  | nil => rfl
  | cons r rules ih =>
    rw [trail, List.flatMap_cons, List.append_assoc, closesComment_separator,
      closesComment_append (Tidy.unjoined _), ← trail, ih, List.any_cons]

theorem CommentsApart.closes_trail {r : CssRule} (h : CommentsApart minify (r :: rules))
    (hopen : leavesCommentOpen (r.written minify) = true) :
    closesComment (trail minify rules) = false := by
  rw [closesComment_trail, List.any_eq_false]
  exact fun r' hr' hclose => (List.pairwise_cons.1 h).1 r' hr' ⟨hopen, hclose⟩

/-- Rules are read as one block each, if no comment reaches from one into a later one. -/
theorem splits_trail (hrules : ∀ r ∈ rules, r.Tidy) (h : CommentsApart minify rules) :
    ∃ items, blocksOf items = rules.map (fun r => ⟨Text.collapse r.selector, []⟩) ∧
      Splits (stripComments (trail minify rules)) (yieldOf items) := by
  induction rules with
  | nil => exact ⟨[], rfl, by rw [trail, List.flatMap_nil, stripComments]; exact .nil⟩
  | cons r rules ih =>
    rw [List.forall_mem_cons] at hrules
    obtain ⟨items, hblocks, hitems⟩ := ih hrules.2 (List.pairwise_cons.1 h).2
    obtain ⟨i, hblock, hsplits⟩ := hrules.1.splits h.closes_trail hitems
    refine ⟨i :: items, by simp [blocksOf, hblock, hblocks], ?_⟩
    rwa [trail, List.flatMap_cons, List.append_assoc, stripComments_separator, ← trail,
      splits_separator_iff]

end Stylesheet

end UtilityCss
