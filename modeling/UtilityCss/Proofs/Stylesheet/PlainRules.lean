import Mathlib.Data.List.Infix
import UtilityCss.Proofs.Stylesheet.Rendering
/-!
# Stylesheets of plain rules

A stylesheet is written piece by piece: remarks, selectors, braces, declarations and line breaks.
Each piece is read as the same tokens whatever follows it, so a stylesheet is read as the tokens of
its pieces one after the other. The readable and the compact form differ in pieces that are read as
no tokens, and in blanks at the end of preludes, which do not count.
-/

namespace UtilityCss

namespace Stylesheet

open ClassAttribute (isQuote)

variable {cs ds : List CodePoint} {ts us : List Token} {t : Text}

/-! ## Pieces of a source -/

/-- A piece of a source is read as some tokens, whatever follows it. -/
def ReadsAs (cs : List CodePoint) (ts : List Token) : Prop :=
  ∀ rest us, Splits (significant (.ofList rest)) us →
    Splits (significant (.ofList (cs ++ rest))) (ts ++ us)

theorem ReadsAs.nil : ReadsAs [] [] := fun _ _ h => h

theorem ReadsAs.append (h : ReadsAs cs ts) (h' : ReadsAs ds us) :
    ReadsAs (cs ++ ds) (ts ++ us) := by
  intro rest vs hrest
  rw [List.append_assoc, List.append_assoc]
  exact h _ _ (h' rest vs hrest)

theorem ReadsAs.splits (h : ReadsAs cs ts) : Splits (significant (.ofList cs)) ts := by
  have hnothing : Splits (significant (.ofList [])) [] := by
    rw [significant, stripComments, emptyStrings]
    exact .nil
  have hsplits := h [] [] hnothing
  rwa [List.append_nil, List.append_nil] at hsplits

/-- An empty piece is read as no tokens. -/
theorem ReadsAs.eq_nil (h : ReadsAs [] ts) : ts = [] := by
  simpa using Splits.unique h.splits ReadsAs.nil.splits

/-- Pieces with separators between them, where separators are read as no tokens. -/
theorem readsAs_intercalate {α : Type} {sep : Text} (hsep : ReadsAs sep.toList []) (text : α → Text)
    (tokens : α → List Token) {xs : List α} (h : ∀ x ∈ xs, ReadsAs (text x).toList (tokens x)) :
    ReadsAs (Text.intercalate sep (xs.map text)).toList (xs.flatMap tokens) := by
  cases xs with
  | nil => exact .nil
  | cons x xs =>
    rw [List.forall_mem_cons] at h
    rw [List.map_cons, Text.toList_intercalate_cons, List.flatMap_map, List.flatMap_cons]
    refine h.1.append ?_
    have hrest := h.2
    clear h
    induction xs with
    | nil => exact .nil
    | cons y ys ih =>
      rw [List.forall_mem_cons] at hrest
      exact (hsep.append hrest.1).append (ih hrest.2)

/-! ## Pieces without comments and strings -/

/-- Neither a comment nor a string begins in a piece of a source, whatever follows it. -/
def Verbatim (cs : List CodePoint) : Prop :=
  ∀ rest, significant (.ofList (cs ++ rest)) = cs ++ significant (.ofList rest)

theorem Verbatim.append (h : Verbatim cs) (h' : Verbatim ds) : Verbatim (cs ++ ds) := by
  intro rest
  rw [List.append_assoc, h, h', List.append_assoc]

theorem Verbatim.readsAs (h : Verbatim cs)
    (hsplits : ∀ rest us, Splits rest us → Splits (cs ++ rest) (ts ++ us)) : ReadsAs cs ts := by
  intro rest us hrest
  rw [h]
  exact hsplits _ us hrest

/-- A character that may stand anywhere between pieces. -/
def isMark (c : CodePoint) : Bool := c != '/' && c != '*' && !isQuote c

/-- A text that can be a selector, a property or a value. -/
structure IsPhrase (t : Text) : Prop where
  first : ∃ c cs, t.toList = c :: cs ∧ Text.isBlank c = false
  chars : ∀ c ∈ t.toList, continuesPrelude c = true ∧ isQuote c = false
  opens : NoComment t.toList

theorem isPhrase_iff : IsPhrase t ↔ t.toList.head?.any (!Text.isBlank ·) = true ∧
    (t.toList.all fun c => continuesPrelude c && !isQuote c) = true ∧
    ¬[.char '/', .char '*'] <:+: t.toList := by
  have hfirst : (∃ c cs, t.toList = c :: cs ∧ Text.isBlank c = false) ↔
      t.toList.head?.any (!Text.isBlank ·) = true := by
    cases t.toList <;> simp
  rw [← hfirst, List.all_eq_true]
  simp only [Bool.and_eq_true, Bool.not_eq_true']
  exact ⟨fun h => ⟨h.first, h.chars, h.opens⟩, fun h => ⟨h.1, h.2.1, h.2.2⟩⟩

instance (t : Text) : Decidable (IsPhrase t) := decidable_of_iff _ isPhrase_iff.symm

/-- No comment is opened by the last character of a piece if a mark follows. -/
theorem verbatim_concat {c : CodePoint} (hquotes : ∀ d ∈ cs, isQuote d = false)
    (hopens : NoComment cs) (hc : isMark c = true) : Verbatim (cs ++ [c]) := by
  simp only [isMark, Bool.and_eq_true, bne_iff_ne, Bool.not_eq_true'] at hc
  obtain ⟨⟨hslash, hstar⟩, hquote⟩ := hc
  have hall : ∀ d ∈ cs ++ [c], isQuote d = false := by
    intro d hd
    rcases List.mem_append.1 hd with hd | hd
    · exact hquotes d hd
    · rwa [List.mem_singleton.1 hd]
  have hnot (d : CodePoint) (hd : isQuote d = true) : d ∉ cs ++ [c] := by
    intro hmem
    simp [hall d hmem] at hd
  intro rest
  have hstrip : stripComments (cs ++ [c] ++ rest) = cs ++ [c] ++ stripComments rest := by
    have hjoin : Unjoined cs (c :: rest) := unjoined_of_head? (by simp [hslash, hstar])
    rw [List.append_assoc, List.singleton_append,
      stripComments_append hjoin (by simp [hopens.leavesCommentOpen]), hopens.stripComments,
      stripComments_cons (by simp [hslash]), List.append_assoc, List.singleton_append]
  rw [significant, hstrip, emptyStrings_append (hnot '"' rfl) (hnot '\'' rfl), significant]

theorem verbatim_marks (h : ∀ c ∈ cs, isMark c = true) : Verbatim cs := by
  induction cs with
  | nil => exact fun _ => rfl
  | cons c cs ih =>
    rw [List.forall_mem_cons] at h
    have hopens : NoComment [] := by simp [NoComment]
    have hc : Verbatim ([] ++ [c]) := verbatim_concat (by simp) hopens h.1
    exact hc.append (ih h.2)

theorem IsPhrase.verbatim (h : IsPhrase t) {c : CodePoint} (hc : isMark c = true) :
    Verbatim (t.toList ++ [c]) :=
  verbatim_concat (fun d hd => (h.chars d hd).2) h.opens hc

/-! ## Tokens of pieces -/

theorem isMark_of_isSkipped {c : CodePoint} (h : isSkipped c = true) : isMark c = true := by
  simp only [isSkipped, Bool.or_eq_true, beq_iff_eq] at h
  rcases h with (((rfl | rfl) | rfl) | rfl) | rfl <;> decide

/-- Spaces and line breaks are read as no tokens. -/
theorem readsAs_skipped (h : ∀ c ∈ cs, isSkipped c = true) : ReadsAs cs [] := by
  refine (verbatim_marks fun c hc => isMark_of_isSkipped (h c hc)).readsAs fun rest us hrest => ?_
  induction cs with
  | nil => exact hrest
  | cons c cs ih =>
    rw [List.forall_mem_cons] at h
    exact .ignored h.1 (ih h.2)

/-- A run of characters is read as a prelude if a punctuation mark ends it. -/
theorem readsAs_prelude {c : CodePoint} {tok : Token} (hverbatim : Verbatim (cs ++ [c]))
    (hfirst : ∃ d run, cs = d :: run ∧ Text.isBlank d = false)
    (hrun : ∀ d ∈ cs, continuesPrelude d = true) (hc : punctuation? c = some tok) :
    ReadsAs (cs ++ [c]) [.prelude (.ofList cs), tok] := by
  obtain ⟨d, run, rfl, hd⟩ := hfirst
  refine hverbatim.readsAs fun rest us hrest => ?_
  have hend : EndsPrelude (c :: rest) := endsPrelude_cons (by simp [continuesPrelude, hc])
  have hsplits := Splits.prelude hd hrun hend (.mark hc hrest)
  rwa [List.append_assoc]

theorem readsAs_closeBrace : ReadsAs [.char '\x7d'] [.closeBrace] :=
  (verbatim_marks (by decide)).readsAs fun _ _ hrest => .mark rfl hrest

/-! ## Remarks -/

/-- A single comment, or nothing. -/
def IsRemark (t : Text) : Prop :=
  t = "" ∨ ∃ inside, t.toList = .char '/' :: .char '*' :: (inside ++ [.char '*', .char '/']) ∧
    ¬[.char '*', .char '/'] <:+: inside

/-- A comment goes up to the first place where it can end. -/
theorem afterComment?_closed (h : ¬[.char '*', .char '/'] <:+: cs) (rest : List CodePoint) :
    afterComment? (cs ++ .char '*' :: .char '/' :: rest) = some rest := by
  induction cs with
  | nil => simp [afterComment?]
  | cons c cs ih =>
    have htail : ¬[.char '*', .char '/'] <:+: cs :=
      fun hin => h (hin.trans (List.suffix_cons c cs).isInfix)
    rw [List.cons_append, afterComment?_cons, ih htail]
    rintro ⟨rfl, hhead⟩
    cases cs with
    | nil => simp at hhead
    | cons d cs =>
      obtain rfl : d = '/' := by simpa using hhead
      exact h ⟨[], cs, rfl⟩

theorem IsRemark.readsAs (h : IsRemark t) : ReadsAs t.toList [] := by
  rcases h with rfl | ⟨inside, htext, hinside⟩
  · exact .nil
  · intro rest us hrest
    have hbehind : afterComment? (inside ++ [.char '*', .char '/'] ++ rest) = some rest := by
      rw [List.append_assoc]
      exact afterComment?_closed hinside rest
    rw [significant] at hrest ⊢
    rw [htext, List.cons_append, List.cons_append, stripComments_closed hbehind]
    exact hrest

end Stylesheet

/-! ## Rules -/

namespace CssRule

open Stylesheet

variable {r : CssRule} {d : Declaration} {minify : Bool}

/-- A rule whose selector, properties and values can be read back. -/
structure IsPlain (r : CssRule) : Prop where
  selector : IsPhrase r.selector
  declarations : ∀ d ∈ r.declarations, IsPhrase d.property ∧ IsPhrase d.value

instance (r : CssRule) : Decidable r.IsPlain :=
  decidable_of_iff
    (IsPhrase r.selector ∧ ∀ d ∈ r.declarations, IsPhrase d.property ∧ IsPhrase d.value)
    ⟨fun h => ⟨h.1, h.2⟩, fun h => ⟨h.selector, h.declarations⟩⟩

/-- What is in front of a declaration. -/
def indent (minify : Bool) : List CodePoint :=
  if minify then [] else [.char '\n', .char ' ', .char ' ']

/-- A declaration without its semicolon. -/
def stated (minify : Bool) (d : Declaration) : List CodePoint :=
  d.property.toList ++ (.char ':' :: gap minify) ++ d.value.toList

/-- What is behind the declarations of a rule. -/
def ending (minify : Bool) (ds : List Declaration) : List CodePoint :=
  if minify then [] else if ds.isEmpty then [.char '\n', .char '\n'] else [.char '\n']

/-- In both forms the body is made of its declarations, with blanks around them. -/
theorem body_eq : r.body minify =
    r.declarations.flatMap (fun d => indent minify ++ (stated minify d ++ [.char ';'])) ++
      ending minify r.declarations := by
  have hcompact (d : Declaration) : (declared true d).toList =
      indent true ++ (stated true d ++ [.char ';']) := by
    simp [declared, indent, stated, gap]
  have hpretty (d : Declaration) : .char '\n' :: (declared false d).toList =
      indent false ++ (stated false d ++ [.char ';']) := by
    simp [declared, indent, stated, gap]
  cases minify with
  | true =>
    simp only [body, ending, if_true, List.append_nil, Text.join, List.flatMap_map, hcompact]
  | false =>
    cases hds : r.declarations with
    | nil => simp [body, hds, ending, Text.intercalate]
    | cons d ds =>
      -- Each declaration takes the line break in front of it.
      have hline : (fun d => (Text.ofString "\n").toList ++ (declared false d).toList) =
          fun d => indent false ++ (stated false d ++ [.char ';']) := funext hpretty
      simp only [body, hds, ending, Bool.false_eq_true, if_false, List.map_cons,
        Text.toList_intercalate_cons, List.flatMap_map, List.flatMap_cons, List.isEmpty_cons]
      rw [hline, ← List.cons_append, hpretty]

/-- A declaration is read as a statement. -/
theorem readsAs_declaration (hproperty : IsPhrase d.property) (hvalue : IsPhrase d.value) :
    ReadsAs (indent minify ++ (stated minify d ++ [.char ';']))
      (Item.statement (some (.ofList (stated minify d)))).yield := by
  have hindent : ReadsAs (indent minify) [] := readsAs_skipped (by cases minify <;> decide)
  have hverbatim : Verbatim (stated minify d ++ [.char ';']) := by
    have hmarks : Verbatim (gap minify) := verbatim_marks (by cases minify <;> decide)
    have happend := ((hproperty.verbatim (c := ':') rfl).append hmarks).append
      (hvalue.verbatim (c := ';') rfl)
    simpa [stated] using happend
  have hfirst : ∃ c run, stated minify d = c :: run ∧ Text.isBlank c = false := by
    obtain ⟨c, cs, hcs, hc⟩ := hproperty.first
    exact ⟨c, cs ++ (.char ':' :: gap minify) ++ d.value.toList, by rw [stated, hcs]; simp, hc⟩
  have hrun : ∀ c ∈ stated minify d, continuesPrelude c = true := by
    have hgap : ∀ c ∈ CodePoint.char ':' :: gap minify, continuesPrelude c = true := by
      cases minify <;> decide
    intro c hc
    rw [stated, List.mem_append, List.mem_append] at hc
    rcases hc with (hc | hc) | hc
    · exact (hproperty.chars c hc).1
    · exact hgap c hc
    · exact (hvalue.chars c hc).1
  exact hindent.append (readsAs_prelude hverbatim hfirst hrun rfl)

/-- The declarations of a rule, as they are derived. -/
def statements (r : CssRule) (minify : Bool) : List Item :=
  r.declarations.map fun d => .statement (some (.ofList (stated minify d)))

theorem IsPlain.readsAs_body (h : r.IsPlain) :
    ReadsAs (r.body minify) (yieldOf (r.statements minify)) := by
  have hending : ReadsAs (ending minify r.declarations) [] := by
    refine readsAs_skipped ?_
    unfold ending
    repeat' split
    all_goals decide
  rw [body_eq, ← List.append_nil (yieldOf _)]
  refine ReadsAs.append ?_ hending
  rw [statements]
  have hdeclarations := h.declarations
  generalize r.declarations = declarations at hdeclarations ⊢
  induction declarations with
  | nil => exact .nil
  | cons d ds ih =>
    rw [List.forall_mem_cons] at hdeclarations
    exact (readsAs_declaration hdeclarations.1.1 hdeclarations.1.2).append (ih hdeclarations.2)

/-- A rule, as it is derived. -/
def item (r : CssRule) (minify : Bool) : Item :=
  .block (.ofList (r.selector.toList ++ gap minify)) (r.statements minify) none

/-- A plain rule is read as a block, whatever follows it. -/
theorem IsPlain.readsAs (h : r.IsPlain) : ReadsAs (r.written minify) (r.item minify).yield := by
  have hverbatim : Verbatim (r.selector.toList ++ gap minify ++ [.char '\x7b']) := by
    cases minify with
    | true => simpa [gap] using h.selector.verbatim (c := '\x7b') rfl
    | false =>
      have hspace := h.selector.verbatim (c := ' ') rfl
      exact hspace.append (verbatim_marks (by decide))
  have hfirst : ∃ c run, r.selector.toList ++ gap minify = c :: run ∧ Text.isBlank c = false := by
    obtain ⟨c, cs, hcs, hc⟩ := h.selector.first
    exact ⟨c, cs ++ gap minify, by rw [hcs, List.cons_append], hc⟩
  have hrun : ∀ c ∈ r.selector.toList ++ gap minify, continuesPrelude c = true := by
    have hgap : ∀ c ∈ gap minify, continuesPrelude c = true := by cases minify <;> decide
    intro c hc
    rcases List.mem_append.1 hc with hc | hc
    · exact (h.selector.chars c hc).1
    · exact hgap c hc
  have hopen := readsAs_prelude hverbatim hfirst hrun rfl
  have hbody : ReadsAs (r.body minify) _ := h.readsAs_body
  have hwhole := hopen.append (hbody.append readsAs_closeBrace)
  rw [written_eq]
  simpa [item, Item.yield, preludeTokens] using hwhole

/-- No declaration of a rule is kept as a block. -/
theorem blocksOf_statements : blocksOf (r.statements minify) = [] := by
  rw [statements]
  induction r.declarations with
  | nil => rfl
  | cons d ds ih => exact ih

theorem block?_item : (r.item minify).block? = some ⟨Text.collapse r.selector, []⟩ := by
  rw [item, Item.block?, blocksOf_statements, collapse_selector]

end CssRule

/-! ## Stylesheets -/

namespace Stylesheet

open CssRule

variable {rules : List CssRule} {s : OutputSettings}

/-- The rules of a stylesheet, as they are derived. -/
def itemsOf (rules : List CssRule) (minify : Bool) : List Item := rules.map (·.item minify)

theorem blocksOf_itemsOf (minify : Bool) :
    blocksOf (itemsOf rules minify) = rules.map fun r => ⟨Text.collapse r.selector, []⟩ := by
  rw [itemsOf]
  induction rules with
  | nil => rfl
  | cons r rules ih => rw [List.map_cons, blocksOf, block?_item, ih]; rfl

theorem yieldOf_itemsOf (minify : Bool) :
    yieldOf (itemsOf rules minify) = rules.flatMap fun r => (r.item minify).yield := by
  rw [itemsOf]
  induction rules with
  | nil => rfl
  | cons r rules ih => rw [List.map_cons, yieldOf, ih, List.flatMap_cons]

/-- Parts that are empty are left out, which changes no tokens. -/
theorem readsAs_parts {sep : Text} (hsep : ReadsAs sep.toList []) {parts : List (Text × List Token)}
    (h : ∀ p ∈ parts, ReadsAs p.1.toList p.2) :
    ReadsAs (Text.intercalate sep ((parts.map Prod.fst).filter fun part => !part.isEmpty)).toList
      (parts.flatMap Prod.snd) := by
  have htokens : (parts.filter fun p => !p.1.isEmpty).flatMap Prod.snd =
      parts.flatMap Prod.snd := by
    induction parts with
    | nil => rfl
    | cons p parts ih =>
      rw [List.forall_mem_cons] at h
      rw [List.filter_cons]
      split
      · rw [List.flatMap_cons, List.flatMap_cons, ih h.2]
      · next hempty =>
        have hnil : p.1.toList = [] := by simpa [Text.isEmpty] using hempty
        have hnone : ReadsAs [] p.2 := hnil ▸ h.1
        rw [List.flatMap_cons, ih h.2, hnone.eq_nil, List.nil_append]
  rw [List.filter_map, ← htokens]
  exact readsAs_intercalate hsep Prod.fst Prod.snd fun p hp => h p (List.mem_filter.1 hp).1

/-- A stylesheet of plain rules between two remarks is read as its rules. -/
theorem readsAs_renderText (hrules : ∀ r ∈ rules, r.IsPlain) (hbanner : IsRemark s.banner)
    (hfooter : IsRemark s.footer) :
    ReadsAs (s.renderText rules).toList (yieldOf (itemsOf rules s.minify)) := by
  have hsep : ReadsAs (if s.minify then "" else "\n\n" : Text).toList [] :=
    readsAs_skipped (by cases s.minify <;> decide)
  have hbody := readsAs_intercalate hsep (·.render s.minify) (fun r => (r.item s.minify).yield)
    fun r hr => (hrules r hr).readsAs
  rw [← yieldOf_itemsOf] at hbody
  have hgap : ReadsAs (if s.minify then "\n" else "\n\n" : Text).toList [] :=
    readsAs_skipped (by cases s.minify <;> decide)
  rw [OutputSettings.renderText]
  generalize Text.intercalate _ (rules.map (·.render s.minify)) = body at hbody ⊢
  generalize yieldOf (itemsOf rules s.minify) = tokens at hbody ⊢
  have hparts : ∀ p ∈ [(s.banner, []), (body, tokens), (s.footer, [])], ReadsAs p.1.toList p.2 := by
    simp only [List.forall_mem_cons]
    exact ⟨hbanner.readsAs, hbody, hfooter.readsAs, by simp⟩
  simpa using readsAs_parts hgap hparts

/-- **Both forms of a stylesheet are read as its rules**: one block for each of them in their order,
without blocks inside, and with the selector as its prelude, up to the blanks between words. So both
forms are read alike. -/
theorem read_renderText_plain (hrules : ∀ r ∈ rules, r.IsPlain) (hbanner : IsRemark s.banner)
    (hfooter : IsRemark s.footer) :
    (∀ minify, read ({ s with minify := minify }.renderText rules) =
      .ok (rules.map fun r => ⟨Text.collapse r.selector, []⟩)) ∧
    read ({ s with minify := false }.renderText rules) =
      read ({ s with minify := true }.renderText rules) := by
  have hread : ∀ minify, read ({ s with minify := minify }.renderText rules) =
      .ok (rules.map fun r => ⟨Text.collapse r.selector, []⟩) := by
    intro minify
    have hderives : Derives (significant ({ s with minify := minify }.renderText rules))
        (itemsOf rules minify) :=
      (readsAs_renderText (s := { s with minify := minify }) hrules hbanner hfooter).splits
    rw [read_of_derives hderives, blocksOf_itemsOf, if_pos (depthOf_rules_le rules)]
  exact ⟨hread, by rw [hread, hread]⟩

/-- A rule with marks of comments and an odd blank, and a rule without declarations. -/
def oddRules : List CssRule :=
  [⟨"m-1", ".m-1  >\t*/", [⟨"margin", "1px\u00a0*/ y /"⟩, ⟨"*zoom", "* /"⟩]⟩, ⟨"p", "@page \\", []⟩]

/-- Odd rules, between remarks with quotes and braces in them. -/
def oddOutput : OutputSettings where
  dir := ⟨.none, []⟩
  fileName := "odd.css"
  minify := false
  banner := "/*/ \" \x7b ; */"
  footer := "/***/"
  namespaces := .empty

/-- The odd rules are read from both forms, and the blanks in their selectors are collapsed. -/
theorem oddRules_read :
    read ({ oddOutput with minify := false }.renderText oddRules) =
      .ok [⟨".m-1 > */", []⟩, ⟨"@page \\", []⟩] ∧
    read ({ oddOutput with minify := true }.renderText oddRules) =
      .ok [⟨".m-1 > */", []⟩, ⟨"@page \\", []⟩] := by
  have hrules : ∀ r ∈ oddRules, r.IsPlain := by decide +kernel
  have hbanner : IsRemark oddOutput.banner :=
    .inr ⟨Text.toList "/ \" \x7b ; ", by decide, by decide +kernel⟩
  have hfooter : IsRemark oddOutput.footer := .inr ⟨Text.toList "*", by decide, by decide +kernel⟩
  have hblocks : oddRules.map (fun r => (⟨Text.collapse r.selector, []⟩ : Block)) =
      [⟨".m-1 > */", []⟩, ⟨"@page \\", []⟩] := by
    have hpreludes : oddRules.map (fun r => Text.collapse r.selector) =
        [Text.ofString ".m-1 > */", Text.ofString "@page \\"] := by decide +kernel
    exact congrArg (List.map fun p => (⟨p, []⟩ : Block)) hpreludes
  have hread := read_renderText_plain hrules hbanner hfooter
  rw [hblocks] at hread
  exact ⟨hread.1 false, hread.1 true⟩

end Stylesheet

end UtilityCss
