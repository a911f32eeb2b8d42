import UtilityCss.Config.Validation
import UtilityCss.Proofs.Answers
import UtilityCss.Proofs.Compiler.Declarations
import UtilityCss.Proofs.Compiler.LongestPrefix
/-!
# Rules that can be reached

The checks describe the prefixes that can stand in a class name, and the compiler takes class names
apart in its own way. Here is that the two fit: a configuration without errors has no dead rule. A
prefix that passes the checks has no colon, at which modifiers would be cut off, and does not begin
with a dash, which would be a sign. A value without a dash cannot be shared with a longer prefix. So
a prefix with such a value behind it is always read under the rule of that prefix, and the rule has
properties to set.
-/

namespace UtilityCss

/-! ## What passes the checks -/

namespace Text

variable {α : Type} {p : α → Bool} {a : α} {as : List α}

/-- What the first piece begins with begins the whole. -/
theorem head?_of_splitWhere (h : (splitWhere p as).head?.bind List.head? = some a) :
    as.head? = some a := by
  cases as with
  | nil => cases h
  | cons b bs =>
    rw [splitWhere] at h
    split at h
    · cases h
    · cases hsplit : splitWhere p bs with
      | nil => exact absurd hsplit (splitWhere_ne_nil p bs)
      | cons piece pieces => simpa [hsplit] using h

/-- What a line begins with begins the text. -/
theorem head?_of_withoutFinalNewline {c : CodePoint} {cs : List CodePoint}
    (h : (withoutFinalNewline cs).head? = some c) : cs.head? = some c := by
  unfold withoutFinalNewline at h
  split at h
  · cases cs with
    | nil => exact h
    | cons d ds => cases ds <;> simp_all
  · exact h

end Text

namespace Config

variable {c : Config} {p : Text} {r : Rule}

/-- A usable prefix begins with a letter. -/
theorem exists_head?_of_isPrefix (h : isPrefix p = true) :
    ∃ first, p.toList.head? = some first ∧ Text.isAsciiLetter first = true := by
  obtain ⟨first, hfirst, hletter⟩ := (Option.any_eq_true _ _).1 (Bool.and_eq_true_iff.1 h).1
  exact ⟨first, Text.head?_of_withoutFinalNewline (Text.head?_of_splitWhere hfirst), hletter⟩

/-- A usable prefix has letters, digits and dashes, and possibly a line break at its end. -/
theorem not_mem_of_isPrefix {c : CodePoint} (h : isPrefix p = true) (hline : c ≠ '\n')
    (hdash : c ≠ '-')
    (hc : (Text.isAsciiLetter c || Text.isAsciiDigit c) = false) : c ∉ p.toList := by
  intro hmem
  obtain ⟨word, hword, hmem⟩ := Text.exists_mem_splitWhere (p := (· == CodePoint.char '-'))
    (Text.mem_withoutFinalNewline hmem hline) (beq_eq_false_iff_ne.2 hdash)
  have hplain := List.all_eq_true.1 (Bool.and_eq_true_iff.1 h).2 word hword
  have hall := List.all_eq_true.1 (Bool.and_eq_true_iff.1 hplain).2 c hmem
  rw [hc] at hall
  contradiction

/-- A usable prefix does not begin with a sign. -/
theorem head?_ne_of_isPrefix (h : isPrefix p = true) : p.toList.head? ≠ some (.char '-') := by
  obtain ⟨first, hfirst, hletter⟩ := exists_head?_of_isPrefix h
  rw [hfirst]
  rintro ⟨rfl⟩
  revert hletter
  decide

/-- If no finding about the prefixes is an error, all prefixes are usable. -/
theorem isPrefix_of_checkRulePrefixes (h : ∀ f ∈ checkRulePrefixes c, f.isError = false)
    (hp : p ∈ c.rules.prefixes) : isPrefix p = true := by
  cases hunusable : isPrefix p with
  | true => rfl
  | false =>
    have hfound : p ∈ c.rules.prefixes.filter (!isPrefix ·) := by simpa [hp] using hunusable
    have herror := h _ (List.mem_map_of_mem hfound)
    contradiction

/-- If no finding about the properties is an error, every rule has properties. -/
theorem properties_ne_nil_of_checkRuleProperties
    (h : ∀ f ∈ checkRuleProperties c, f.isError = false)
    (hr : c.rules.get? p = some r) : r.properties ≠ [] := by
  intro hnone
  unfold checkRuleProperties at h
  rw [List.forall_mem_flatMap] at h
  have hfound := h (p, r) (OrderedMap.get?_eq_some_iff.1 hr)
  simp only [hnone, List.isEmpty_nil, if_true, List.forall_mem_singleton] at hfound
  contradiction

/-- What passes the two checks of the rules. -/
theorem of_validate {d : Disk} {findings : List Diagnostic}
    (hfindings : validate d c = .ok findings) (hvalid : ∀ f ∈ findings, f.isError = false) :
    (∀ p ∈ c.rules.prefixes, isPrefix p = true) ∧ ∀ p r, c.rules.get? p = some r →
      r.properties ≠ [] := by
  -- The checks of the settings come before the one that needs the disk.
  obtain ⟨missing, -, rfl⟩ := map_eq_ok.1 hfindings
  simp only [checkSettings, List.forall_mem_append] at hvalid
  obtain ⟨⟨⟨⟨⟨⟨⟨⟨hproperties, husable⟩, -⟩, -⟩, -⟩, -⟩, -⟩, -⟩, -⟩ := hvalid
  exact ⟨fun p => isPrefix_of_checkRulePrefixes husable,
    fun p r => properties_ne_nil_of_checkRuleProperties hproperties⟩

end Config

/-! ## Class names of usable prefixes -/

section ClassNames

variable {p v : Text} {negative : Bool}

/-- The last dash of a text is where a value without a dash begins. -/
theorem length_le_of_append_dash {before before' value value' : List CodePoint}
    (hvalue : .char '-' ∉ value)
    (h : before ++ .char '-' :: value = before' ++ .char '-' :: value') :
    before'.length ≤ before.length := by
  rcases List.append_eq_append_iff.1 h with ⟨between, rfl, hbetween⟩ | ⟨between, rfl, -⟩
  · cases between with
    | nil => simp
    | cons c between =>
      obtain ⟨-, rfl⟩ := List.cons.inj hbetween
      exact absurd (List.mem_append_right _ (List.mem_cons_self ..)) hvalue
  · rw [List.length_append]
    exact Nat.le_add_right ..

/-- A value without a dash is not shared with a longer prefix. -/
theorem RuleTable.isLongestPrefix_of_not_mem {t : RuleTable} (hp : p ∈ t.prefixes) (hv : v ≠ "")
    (hdash : .char '-' ∉ v.toList) : t.IsLongestPrefix (p ++ "-" ++ v) p v := by
  refine ⟨hp, ⟨rfl, hv⟩, fun p' _ v' hsplits => ?_⟩
  have hsame : p.toList ++ .char '-' :: v.toList = p'.toList ++ .char '-' :: v'.toList := by
    simpa using congrArg Text.toList hsplits.1
  exact length_le_of_append_dash hdash hsame

/-- A usable prefix with a value behind it is taken apart as it was put together. -/
theorem ClassToken.ofName?_of_isPrefix (hp : Config.isPrefix p = true)
    (hcolon : .char ':' ∉ v.toList) : ofName? ((if negative then "-" ++ p else p) ++ "-" ++ v) =
      some ⟨(if negative then "-" ++ p else p) ++ "-" ++ v, negative, p ++ "-" ++ v, []⟩ := by
  have hname : (if negative then "-" ++ p else p) ++ "-" ++ v =
      variant (p ++ "-" ++ v) negative [] := by
    refine congrArg Text.ofList ?_
    cases negative <;> simp [Text.join]
  have hbase : .char ':' ∉ (p ++ "-" ++ v).toList := by
    have hplain :=
      Config.not_mem_of_isPrefix hp (c := .char ':') (by decide) (by decide) (by decide)
    simp [hplain, hcolon]
  have hhead : (p ++ "-" ++ v).toList.head? ≠ some (.char '-') := by
    obtain ⟨first, hfirst, -⟩ := Config.exists_head?_of_isPrefix hp
    have hne := Config.head?_ne_of_isPrefix hp
    rw [hfirst] at hne
    simpa [List.head?_append, hfirst] using hne
  rw [hname, ofName?_variant hbase hhead (by simp)]
  simp

/-- Without modifiers, the selector is the name of the class. -/
theorem ClassToken.selector_of_no_modifiers {t : ClassToken} (h : t.modifiers = []) :
    t.selector = "." ++ escape t.raw := by
  rw [selector, h]
  exact congrArg Text.ofList (List.append_nil _)

/-- A usable prefix with a value behind it means the properties of its own rule. -/
theorem Vocabulary.compile_of_isPrefix {vocabulary : Vocabulary} {r : Rule}
    (hr : vocabulary.rules.get? p = some r)
    (hproperties : r.properties ≠ []) (hp : Config.isPrefix p = true) (hv : v ≠ "")
    (hdash : .char '-' ∉ v.toList) (hcolon : .char ':' ∉ v.toList) :
    vocabulary.compile ((if negative then "-" ++ p else p) ++ "-" ++ v) =
      (r.resolve vocabulary.valueMap vocabulary.defaultUnit v).map fun value => {
        className := (if negative then "-" ++ p else p) ++ "-" ++ v
        selector := "." ++ ClassToken.escape ((if negative then "-" ++ p else p) ++ "-" ++ v)
        declarations :=
          r.properties.map fun q => ⟨q, if negative then "-" ++ value else value⟩ } := by
  have hmem : p ∈ vocabulary.rules.prefixes := OrderedMap.mem_keys_iff.2 ⟨r, hr⟩
  have hlookup : vocabulary.rules.lookup? (p ++ "-" ++ v) = some (r, v) :=
    RuleTable.lookup?_eq_some_iff.2 ⟨p, RuleTable.isLongestPrefix_of_not_mem hmem hv hdash, hr⟩
  have hmeaning : vocabulary.meaning? (p ++ "-" ++ v) =
      (r.resolve vocabulary.valueMap vocabulary.defaultUnit v).map (r.properties, ·) := by
    rw [meaning?, hlookup, Option.bind_some]
    exact if_neg (by simpa using hproperties)
  rw [compile_eq, ClassToken.ofName?_of_isPrefix hp hcolon, Option.bind_some, hmeaning,
    Option.map_map]
  cases r.resolve vocabulary.valueMap vocabulary.defaultUnit v with
  | none => rfl
  | some value => simp [ClassToken.selector_of_no_modifiers]

end ClassNames

namespace Config

/-- **A configuration without errors has no dead rule.** Behind every prefix of the table, with or
without a sign, stands a value, and the class name is read under the rule of that prefix, whatever
other prefixes there are: it is not recognised exactly if the rule has no CSS value for it, and
otherwise it sets the properties of the rule, of which there is at least one. -/
theorem rules_live {d : Disk} {c : Config} {findings : List Diagnostic}
    (hfindings : c.validate d = .ok findings)
    (hvalid : ∀ f ∈ findings, f.isError = false) {p : Text} (hp : p ∈ c.rules.prefixes) :
    ∃ r, c.rules.get? p = some r ∧ r.properties ≠ [] ∧
      ∀ v : Text, v ≠ "" → .char '-' ∉ v.toList → .char ':' ∉ v.toList →
      ∀ compiler : Compiler, compiler.Faithful → compiler.vocabulary = c.vocabulary →
        ∀ negative : Bool,
      let name := (if negative then "-" ++ p else p) ++ "-" ++ v
      ((compiler.compile name).1 = none ↔ r.resolve c.valueMap c.unit v = none) ∧
      ∀ value, r.resolve c.valueMap c.unit v = some value → (compiler.compile name).1 = some {
        className := name
        selector := "." ++ ClassToken.escape name
        declarations :=
          r.properties.map fun q => ⟨q, if negative then "-" ++ value else value⟩ } := by
  obtain ⟨husable, hproperties⟩ := of_validate hfindings hvalid
  obtain ⟨r, hr⟩ := OrderedMap.mem_keys_iff.1 hp
  refine ⟨r, hr, hproperties p r hr,
    fun v hv hdash hcolon compiler hfaithful hvocabulary negative => ?_⟩
  have hrule : c.vocabulary.rules.get? p = some r := hr
  have hcompile := (hfaithful.compile ((if negative then "-" ++ p else p) ++ "-" ++ v)).1
  rw [hvocabulary, Vocabulary.compile_of_isPrefix hrule (hproperties p r hr) (husable p hp) hv hdash
    hcolon] at hcompile
  refine ⟨?_, fun value hvalue => ?_⟩
  · rw [hcompile, Option.map_eq_none_iff]
    rfl
  · rw [hcompile, Option.map_eq_some_iff]
    exact ⟨value, hvalue, rfl⟩

/-- Two rules, the prefix of one of which begins with that of the other. -/
def borderConfig : Config where
  root := Path.ofText "/site"
  rules :=
    .ofRules [scalarRule "border" ["border-width"], scalarRule "border-t" ["border-top-width"]]

/-- What follows the shorter prefix may be what the longer one ends with, and what follows the
longer one may stand behind a sign. -/
theorem border_live :
    validate (.new []) borderConfig = .ok (checkSettings borderConfig) ∧
    (∀ f ∈ checkSettings borderConfig, f.isError = false) ∧
    Text.ofString "border" ∈ borderConfig.rules.prefixes ∧
    Text.ofString "border-t" ∈ borderConfig.rules.prefixes ∧
    ((Compiler.new borderConfig.vocabulary).compile "border-t").1 =
      some ⟨"border-t", ".border-t", [⟨"border-width", "t"⟩]⟩ ∧
    ((Compiler.new borderConfig.vocabulary).compile "-border-t-2").1 =
      some ⟨"-border-t-2", ".-border-t-2", [⟨"border-top-width", "-2px"⟩]⟩ := by
  have hfindings : validate (.new []) borderConfig = .ok (checkSettings borderConfig) := by
    simp [validate, borderConfig, existingCssPaths, checkExistingCssFiles, Except.map]
  have hvalid : ∀ f ∈ checkSettings borderConfig, f.isError = false := by
    -- A factor is compared with one, and either way no error is found.
    have hretry : ∀ f ∈ checkRetrySettings borderConfig, f.isError = false := by
      unfold checkRetrySettings
      split <;> decide
    simp only [checkSettings, List.forall_mem_append]
    exact ⟨⟨⟨⟨⟨⟨⟨by decide, by decide⟩, by decide⟩, by decide⟩, by decide⟩, hretry⟩, by decide⟩,
      by decide⟩
  have hshort : Text.ofString "border" ∈ borderConfig.rules.prefixes := by decide
  have hlong : Text.ofString "border-t" ∈ borderConfig.rules.prefixes := by decide
  refine ⟨hfindings, hvalid, hshort, hlong, ?_, ?_⟩
  · obtain ⟨r, hr, -, hlive⟩ := rules_live hfindings hvalid hshort
    obtain rfl : r = scalarRule "border" ["border-width"] :=
      Option.some.inj (hr.symm.trans (by decide))
    exact (hlive "t" (by decide) (by decide) (by decide) _ (Compiler.faithful_new _) rfl false).2
      "t" (by decide)
  · obtain ⟨r, hr, -, hlive⟩ := rules_live hfindings hvalid hlong
    obtain rfl : r = scalarRule "border-t" ["border-top-width"] :=
      Option.some.inj (hr.symm.trans (by decide))
    exact (hlive "2" (by decide) (by decide) (by decide) _ (Compiler.faithful_new _) rfl true).2
      "2px" (by decide)

end Config

end UtilityCss
