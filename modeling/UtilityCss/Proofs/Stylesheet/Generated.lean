import Mathlib.Data.List.Chain
import UtilityCss.Config.Settings
import UtilityCss.Proofs.Compiler.Declarations
import UtilityCss.Proofs.Compiler.Memory
import UtilityCss.Proofs.Stylesheet.Rendering
import UtilityCss.Proofs.Stylesheet.Spelling
/-!
# Generated stylesheets as existing ones

A generated stylesheet can be given back as an existing one, whose class names are then left out.
With the built-in vocabulary this leaves out exactly what was generated, under two conditions. A
keyword is taken over from the class name as it is, so a name with a brace or a semicolon can break
the structure of the stylesheet, and a comment that one value opens can be closed in the value of a
later rule. Without such names, the second condition is also necessary.
-/

namespace UtilityCss

/-- The texts of a vocabulary have no braces, no quotes and no odd blanks. -/
def Vocabulary.IsTidy (v : Vocabulary) : Prop :=
  ∀ text ∈ v.texts, ∀ c ∈ text.toList, Stylesheet.inBody c = true ∧ ClassAttribute.isQuote c = false

namespace Stylesheet

open CssRule
open ClassAttribute (isQuote)

variable {cs tail : List CodePoint} {name : Text} {r : CssRule} {rules : List CssRule}

/-! ## Selectors open and close no comments -/

/-- A slash or a star has a backslash in front. -/
def Masked (a b : CodePoint) : Prop := b = '/' ∨ b = '*' → a = '\\'

theorem noComment_of_isChain (h : cs.IsChain Masked) : NoComment cs := by
  intro hopens
  have hpair := h.infix hopens
  simp [Masked] at hpair

theorem closesComment_of_isChain (h : cs.IsChain Masked) : closesComment cs = false := by
  cases hafter : afterComment? cs with
  | none => rw [closesComment, hafter, Option.isSome_none]
  | some behind =>
    obtain ⟨inside, hinside⟩ := exists_of_afterComment? hafter
    have hmarks : [CodePoint.char '*', .char '/'] <:+: cs := ⟨inside, behind, by simp [hinside]⟩
    have hpair := h.infix hmarks
    simp [Masked] at hpair

theorem isChain_of_not_mem {a : CodePoint} (h : ∀ c ∈ cs, c ≠ '/' ∧ c ≠ '*') :
    (a :: cs).IsChain Masked := by
  induction cs generalizing a with
  | nil => simp
  | cons c cs ih =>
    rw [List.forall_mem_cons] at h
    exact .cons_cons (fun hc => absurd hc (by simp [h.1])) (ih h.2)

theorem isChain_escape {a : CodePoint} (cs : List CodePoint)
    (htail : ∀ c ∈ tail, c ≠ '/' ∧ c ≠ '*') :
    (a :: (cs.flatMap ClassToken.escapeChar ++ tail)).IsChain Masked := by
  induction cs generalizing a with
  | nil => exact isChain_of_not_mem htail
  | cons c cs ih =>
    rw [List.flatMap_cons, List.append_assoc, ClassToken.escapeChar]
    split
    · next hplain =>
      refine .cons_cons (fun hc => ?_) ih
      rcases hc with rfl | rfl <;> exact absurd hplain (by decide)
    · exact .cons_cons (fun hc => by simp at hc) (.cons_cons (fun _ => rfl) ih)

theorem isChain_selector {raw : Text} {t : ClassToken} (ht : ClassToken.ofName? raw = some t) :
    t.selector.toList.IsChain Masked := by
  obtain ⟨-, -, hmodifiers⟩ := ClassToken.ofName?_eq_some ht
  have hnot {c : CodePoint} (hcolon : c ≠ ':') (hline : c ≠ '\n')
      (hc : (Text.isAsciiLetter c || c == '-') = false) : c ∉ pseudoClasses t.modifiers :=
    not_mem_pseudoClasses hcolon fun m hm =>
      ClassToken.not_mem_of_isModifier (hmodifiers m hm) hline hc
  rw [selector_toList]
  refine isChain_escape t.raw.toList fun c hc => ⟨?_, ?_⟩
  · rintro rfl
    exact hnot (by decide) (by decide) (by decide) hc
  · rintro rfl
    exact hnot (by decide) (by decide) (by decide) hc

/-! ## Generated rules are tidy -/

/-- The characters of a selector are those of the name and three marks. -/
theorem mem_selector {raw : Text} {t : ClassToken} {c : CodePoint}
    (ht : ClassToken.ofName? raw = some t) (hc : c ∈ t.selector.toList) :
    c ∈ [CodePoint.char '.', .char '\\', .char ':'] ∨ c ∈ raw.toList := by
  obtain ⟨rfl, -, -⟩ := ClassToken.ofName?_eq_some ht
  rw [selector_toList, List.cons_append, List.mem_cons, List.mem_append] at hc
  rcases hc with rfl | hc | hc
  · exact .inl (by simp)
  · obtain ⟨d, hd, hc⟩ := List.mem_flatMap.1 hc
    unfold ClassToken.escapeChar at hc
    split at hc
    · obtain rfl := List.mem_singleton.1 hc
      exact .inr hd
    · rcases List.mem_cons.1 hc with rfl | hc
      · exact .inl (by simp)
      · obtain rfl := List.mem_singleton.1 hc
        exact .inr hd
  · by_cases hcolon : c = ':'
    · exact .inl (by simp [hcolon])
    · refine .inr (Classical.byContradiction fun hnot => ?_)
      exact not_mem_pseudoClasses hcolon (fun m hm hmem =>
        hnot (ClassToken.mem_of_ofName? ht (.inr ⟨m, hm, hmem⟩))) hc

/-- A rule is tidy if the vocabulary is, and the class name is a word without quotes and
punctuation. -/
theorem tidy_of_compile {v : Vocabulary} (hv : v.IsTidy) (h : v.compile name = some r)
    (hname : ∀ c ∈ name.toList, Text.isBlank c = false ∧ isQuote c = false)
    (hmarks : ∀ c ∈ name.toList, punctuation? c = none) :
    r.Tidy ∧ Text.collapse r.selector = r.selector := by
  obtain ⟨-, ⟨t, ht, hselector⟩, hdeclarations⟩ := Vocabulary.of_compile_eq_some h
  have hchain := isChain_selector ht
  rw [← hselector] at hchain
  -- The selector adds dots, colons and backslashes to the name, and none of them is a mark.
  have hchars : ∀ c ∈ r.selector.toList,
      Text.isBlank c = false ∧ continuesPrelude c = true ∧ isQuote c = false := by
    intro c hc
    rw [hselector] at hc
    rcases mem_selector ht hc with hc | hc
    · have hthree : ∀ c ∈ [CodePoint.char '.', .char '\\', .char ':'],
          Text.isBlank c = false ∧ continuesPrelude c = true ∧ isQuote c = false := by decide
      exact hthree c hc
    · exact ⟨(hname c hc).1, continuesPrelude_eq_true.2 (hmarks c hc), (hname c hc).2⟩
  have hfirst : r.selector.toList = .char '.' ::
      ((ClassToken.escape t.raw).toList ++ pseudoClasses t.modifiers) := by
    rw [hselector, selector_toList, List.cons_append]
  refine ⟨?_, Text.collapse_of_not_blank (by simp [hfirst]) fun c hc => (hchars c hc).1⟩
  exact {
    selector_first := ⟨_, _, hfirst, rfl⟩
    selector := fun c hc => (hchars c hc).2
    selector_opens := noComment_of_isChain hchain
    selector_closes := closesComment_of_isChain hchain
    declarations := fun d hd c hc => by
      rcases hdeclarations d hd c hc with rfl | hc | ⟨text, htext, hc⟩
      · decide
      · have hmark := hmarks c hc
        refine ⟨?_, (hname c hc).2⟩
        have hbraces : c ≠ '\x7b' ∧ c ≠ '\x7d' :=
          ⟨by rintro rfl; contradiction, by rintro rfl; contradiction⟩
        simp [inBody, hbraces, (hname c hc).1]
      · exact hv text htext c hc }

/-! ## The class names of a generated stylesheet -/

theorem selectorsOf_flat (preludes : List Text)
    (h : ∀ p ∈ preludes, Text.startsWith p "@" = false) :
    selectorsOf (preludes.map fun p => ⟨p, []⟩) = preludes := by
  induction preludes with
  | nil => simp [selectorsOf]
  | cons p ps ih =>
    rw [List.forall_mem_cons] at h
    simp [selectorsOf, Block.selectors, Block.isOpaque, Block.isAtRule, h.1, ih h.2]

/-- Rules whose selectors are read as their class names define exactly these. -/
theorem classNames_rules (h : ∀ r ∈ rules, Text.startsWith r.selector "@" = false ∧
    preludeNames r.selector = .ok [r.className]) :
    classNames (rules.map fun r => ⟨r.selector, []⟩) = .ok (rules.map (·.className)).eraseDups := by
  have hselectors : selectorsOf (rules.map fun r => ⟨r.selector, []⟩) = rules.map (·.selector) := by
    have hflat := selectorsOf_flat (rules.map (·.selector))
      (by simpa using fun r hr => (h r hr).1)
    rwa [List.map_map] at hflat
  have hnames : (rules.map (·.selector)).mapM preludeNames =
      .ok (rules.map fun r => [r.className]) := by
    clear hselectors
    induction rules with
    | nil => rfl
    | cons r rules ih =>
      rw [List.forall_mem_cons] at h
      rw [List.map_cons, List.mapM_cons, h.1.2, ih h.2]
      rfl
  have hflatten : (rules.map fun r => [r.className]).flatten = rules.map (·.className) :=
    List.map_eq_flatMap.symm
  rw [classNames, hselectors, hnames, ← hflatten]
  rfl

/-! ## The built-in vocabulary -/

/-- The vocabulary that applies without a configuration. -/
def builtIn : Vocabulary := ⟨Config.defaultRules, Config.defaultValueMap, Config.defaultUnit⟩

theorem isTidy_builtIn : builtIn.IsTidy := by
  unfold Vocabulary.IsTidy
  decide +kernel

/-- The rules for the class names of a source text. -/
def generatedRules (source : Text) : List CssRule :=
  ((Compiler.new builtIn).compileMany (ClassAttribute.classNames source)).1

theorem of_mem_generatedRules {source : Text} (hr : r ∈ generatedRules source) :
    builtIn.compile r.className = some r ∧ r.className.toList ≠ [] ∧
      ∀ c ∈ r.className.toList, Text.isBlank c = false ∧ isQuote c = false := by
  have hcompiled :=
    ((Compiler.faithful_new builtIn).compileMany (ClassAttribute.classNames source)).1
  rw [generatedRules, hcompiled] at hr
  obtain ⟨name, hname, hrule⟩ := List.mem_filterMap.1 hr
  obtain rfl := (Vocabulary.of_compile_eq_some hrule).1
  obtain ⟨hne, hchars⟩ := ClassAttribute.of_mem_classNames hname
  exact ⟨hrule, hne, hchars⟩

/-! ## Rules with comment marks and braces in their values -/

/-- The rules for a source text that is one attribute. -/
theorem generatedRules_attribute {value : Text} {names : List Text} (hne : value.toList ≠ [])
    (hquotes : ∀ c ∈ value.toList, isQuote c = false)
    (hnames : ((Text.words value.toList).map Text.ofList).eraseDups = names) :
    generatedRules ("class=\"" ++ value ++ "\"") = names.filterMap builtIn.compile := by
  rw [generatedRules, ((Compiler.faithful_new builtIn).compileMany _).1,
    ClassAttribute.classNames_attribute hne hquotes, hnames]
  rfl

/-- A rule whose value opens a comment. -/
def openingRule : CssRule := ⟨"d-/*", ".d-\\/\\*", [⟨"display", "/*"⟩]⟩

/-- A rule whose value closes a comment. -/
def closingRule : CssRule := ⟨"m-*/", ".m-\\*\\/", [⟨"margin", "*/"⟩]⟩

/-- A rule whose value has a brace. -/
def braceRule : CssRule := ⟨"p-\x7d", ".p-\\\x7d", [⟨"padding", "\x7d"⟩]⟩

/-- What a class name without modifiers compiles to, if it belongs to a scalar rule of its own. -/
theorem compile_scalar {name p property value : Text}
    (hname : ClassToken.ofName? name = some ⟨name, false, name, []⟩)
    (hlookup : builtIn.rules.rules.entries.filterMap (fun (p, r) =>
      (RuleTable.valueAfter? p name).map fun value => (r, value)) =
        [(Config.scalarRule p [property], value)])
    (hvalue : Config.defaultValueMap.get? value = none) (hnumber : Rule.isNumeric value = false) :
    builtIn.compile name =
      some ⟨name, ClassToken.selector ⟨name, false, name, []⟩, [⟨property, value⟩]⟩ := by
  have hresolve : (Config.scalarRule p [property]).resolve Config.defaultValueMap
      Config.defaultUnit value = some value := by
    have hown : (Config.scalarRule p [property]).valueMap.get? value = none := rfl
    simp only [Rule.resolve, Config.scalarRule] at hown ⊢
    rw [hown, Option.none_or, hvalue, hnumber]
    rfl
  rw [Vocabulary.compile, hname]
  dsimp only
  rw [RuleTable.lookup?_of_only hlookup]
  dsimp only [builtIn]
  rw [hresolve]
  rfl

theorem compile_openingRule : builtIn.compile "d-/*" = some openingRule :=
  compile_scalar (p := "d") (by decide) (by decide +kernel) (by decide) (by decide)

theorem compile_closingRule : builtIn.compile "m-*/" = some closingRule :=
  compile_scalar (p := "m") (by decide) (by decide +kernel) (by decide) (by decide)

theorem compile_braceRule : builtIn.compile "p-\x7d" = some braceRule :=
  compile_scalar (p := "p") (by decide) (by decide +kernel) (by decide) (by decide)

/-- The comment that one value opens is closed in the value of a later rule. -/
theorem generatedRules_joined :
    generatedRules "class=\"d-/* m-*/\"" = [openingRule, closingRule] := by
  have hwords : ((Text.words (Text.ofString "d-/* m-*/").toList).map Text.ofList).eraseDups =
      [Text.ofString "d-/*", Text.ofString "m-*/"] := by decide
  refine (generatedRules_attribute (by decide) (by decide) hwords).trans ?_
  simp only [List.filterMap, compile_openingRule, compile_closingRule]

/-- The comment is closed in front of the value that opens one. -/
theorem generatedRules_apart :
    generatedRules "class=\"m-*/ d-/*\"" = [closingRule, openingRule] := by
  have hwords : ((Text.words (Text.ofString "m-*/ d-/*").toList).map Text.ofList).eraseDups =
      [Text.ofString "m-*/", Text.ofString "d-/*"] := by decide
  refine (generatedRules_attribute (by decide) (by decide) hwords).trans ?_
  simp only [List.filterMap, compile_openingRule, compile_closingRule]

theorem generatedRules_brace : generatedRules "class=\"p-\x7d\"" = [braceRule] := by
  have hwords : ((Text.words (Text.ofString "p-\x7d").toList).map Text.ofList).eraseDups =
      [Text.ofString "p-\x7d"] := by decide
  refine (generatedRules_attribute (by decide) (by decide) hwords).trans ?_
  simp only [List.filterMap, compile_braceRule]

/-- All rules in one stylesheet, without banner and footer. -/
def plainOutput (minify : Bool) : OutputSettings where
  dir := ⟨.none, []⟩
  fileName := "generated.css"
  minify := minify
  banner := ""
  footer := ""
  namespaces := .empty

/-! ## Reading a generated stylesheet back -/

/-- **A generated stylesheet without punctuation in its class names is read back as its rules if and
only if no comment that is opened in one rule is closed in a later one**, and the class names of its
blocks are then exactly those of its rules. -/
theorem generated_read_iff (source : Text) {s : OutputSettings} (hbanner : s.banner = "")
    (hfooter : s.footer = "")
    (hmarks : ∀ r ∈ generatedRules source, ∀ c ∈ r.className.toList, punctuation? c = none) :
    (read (s.renderText (generatedRules source)) =
        .ok ((generatedRules source).map fun r => ⟨r.selector, []⟩) ↔
      CommentsApart s.minify (generatedRules source)) ∧
    ∃ names, classNames ((generatedRules source).map fun r => ⟨r.selector, []⟩) = .ok names ∧
      ∀ name, name ∈ names ↔ ∃ r ∈ generatedRules source, r.className = name := by
  have htidy : ∀ r ∈ generatedRules source, r.Tidy ∧ Text.collapse r.selector = r.selector :=
    fun r hr => tidy_of_compile isTidy_builtIn (of_mem_generatedRules hr).1
      (of_mem_generatedRules hr).2.2 (hmarks r hr)
  constructor
  · rw [← read_renderText_iff hbanner hfooter fun r hr => (htidy r hr).1]
    have hselectors : (generatedRules source).map (fun r => (⟨r.selector, []⟩ : Block)) =
        (generatedRules source).map fun r => ⟨Text.collapse r.selector, []⟩ :=
      List.map_congr_left fun r hr => by rw [(htidy r hr).2]
    rw [hselectors]
  · refine ⟨_, classNames_rules fun r hr => ?_, fun name => ?_⟩
    · obtain ⟨hrule, hne, hchars⟩ := of_mem_generatedRules hr
      obtain ⟨-, ⟨t, ht, hselector⟩, -⟩ := Vocabulary.of_compile_eq_some hrule
      rw [hselector]
      exact ⟨rfl, preludeNames_selector ⟨hne, fun c hc => (hchars c hc).1⟩ ht⟩
    · rw [List.mem_eraseDups, List.mem_map]

/-- The comment marks of two rules in an order in which they make no comment. -/
theorem generatedRules_apart_read :
    (∀ r ∈ generatedRules "class=\"m-*/ d-/*\"", ∀ c ∈ r.className.toList, punctuation? c = none) ∧
    read ((plainOutput false).renderText (generatedRules "class=\"m-*/ d-/*\"")) =
      .ok ((generatedRules "class=\"m-*/ d-/*\"").map fun r => ⟨r.selector, []⟩) := by
  have hmarks : ∀ r ∈ generatedRules "class=\"m-*/ d-/*\"", ∀ c ∈ r.className.toList,
      punctuation? c = none := by
    rw [generatedRules_apart]
    decide
  have hapart : CommentsApart false (generatedRules "class=\"m-*/ d-/*\"") := by
    rw [generatedRules_apart]
    unfold CommentsApart
    decide +kernel
  exact ⟨hmarks, (generated_read_iff _ (s := plainOutput false) rfl rfl hmarks).1.2 hapart⟩

/-- **A generated stylesheet is not always read back**, and neither condition can be left out. A
comment from one rule into the next leaves one block of two, although there is no punctuation in the
class names; and a brace in a class name makes the stylesheet unreadable, although no comment is
opened or closed. -/
theorem generated_not_always_read :
    ((∀ r ∈ generatedRules "class=\"d-/* m-*/\"", ∀ c ∈ r.className.toList, punctuation? c = none) ∧
      read ((plainOutput false).renderText (generatedRules "class=\"d-/* m-*/\"")) ≠
        .ok ((generatedRules "class=\"d-/* m-*/\"").map fun r => ⟨r.selector, []⟩)) ∧
    (CommentsApart false (generatedRules "class=\"p-\x7d\"") ∧
      read ((plainOutput false).renderText (generatedRules "class=\"p-\x7d\"")) ≠
        .ok ((generatedRules "class=\"p-\x7d\"").map fun r => ⟨r.selector, []⟩)) := by
  rw [generatedRules_joined, generatedRules_brace]
  refine ⟨⟨by decide, fun hread => ?_⟩, ⟨List.pairwise_singleton _ _, fun hread => ?_⟩⟩
  · have hone : ((read ((plainOutput false).renderText [openingRule, closingRule])).toOption.map
        List.length) = some 1 := by decide +kernel
    rw [hread] at hone
    contradiction
  · have hnone : (read ((plainOutput false).renderText [braceRule])).toBool = false := by
      decide +kernel
    rw [hread] at hnone
    contradiction

end Stylesheet

end UtilityCss
