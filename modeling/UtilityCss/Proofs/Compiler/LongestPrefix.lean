import UtilityCss.Config.Settings
import UtilityCss.Proofs.LongestKey
/-!
# The longest prefix

A base is read under the longest prefix of the rule table that leaves a value, and it is not read at
all only if no prefix leaves one. A prefix may have dashes, may begin another one, and may be empty.
So what a base means depends on the rules of the prefixes and not on their order, and a table that
overrides another is read like any table that has, for each prefix, the overriding rule or else the
old one.
-/

namespace UtilityCss

/-- A search for the first answer is a search for the first question that has one. -/
theorem findSome?_eq_find?_bind {α β : Type} (f : α → Option β) (as : List α) :
    as.findSome? f = (as.find? fun a => (f a).isSome).bind f := by
  induction as with
  | nil => rfl
  | cons a as ih =>
    rw [List.findSome?_cons, List.find?_cons]
    cases h : f a with
    | none => exact ih
    | some b => exact h.symm

namespace RuleTable

variable {t t' : RuleTable} {base p value : Text} {r : Rule}

/-! ## Prefixes and values -/

/-- A base is a prefix, a dash, and a value that is not empty. -/
def Splits (base p value : Text) : Prop := base = p ++ "-" ++ value ∧ value ≠ ""

instance : Decidable (Splits base p value) := inferInstanceAs (Decidable (_ ∧ _))

/-- A prefix of a table leaves a value, and no longer prefix of the table does. -/
structure IsLongestPrefix (t : RuleTable) (base p value : Text) : Prop where
  mem : p ∈ t.prefixes
  splits : Splits base p value
  longest : ∀ p' ∈ t.prefixes, ∀ value', Splits base p' value' → p'.length ≤ p.length

/-- A table gives each prefix its rule in `overrides`, or else its rule in `t`. -/
def Overlays (t' t overrides : RuleTable) : Prop :=
  ∀ p, t'.get? p = (overrides.get? p).or (t.get? p)

theorem valueAfter?_eq_some_iff : valueAfter? p base = some value ↔ Splits base p value := by
  have hempty (s : Text) : s.isEmpty = true ↔ s = "" := by
    rw [Text.isEmpty, List.isEmpty_iff]
    exact ⟨congrArg Text.ofList, congrArg Text.toList⟩
  rw [Splits, ← Text.afterText?_eq_some_iff, valueAfter?]
  cases Text.afterText? (p ++ "-") base with
  | none => simp
  | some rest =>
    rw [Option.ite_none_left_eq_some, hempty]
    exact ⟨fun ⟨hne, h⟩ => ⟨h, Option.some.inj h ▸ hne⟩,
      fun ⟨h, hne⟩ => ⟨Option.some.inj h ▸ hne, h⟩⟩

theorem valueAfter?_isSome_iff :
    (valueAfter? p base).isSome = true ↔ ∃ value, Splits base p value := by
  simp only [Option.isSome_iff_exists, valueAfter?_eq_some_iff]

theorem valueAfter?_eq_none_iff : valueAfter? p base = none ↔ ∀ value, ¬Splits base p value := by
  simp only [← valueAfter?_eq_some_iff, Option.eq_none_iff_forall_ne_some, ne_eq]

/-- Two prefixes of one length cannot both be followed by a dash and a value. -/
theorem fitApart (base : Text) : OrderedMap.FitApart fun p => (valueAfter? p base).isSome := by
  intro p p' hp hp' hlength
  obtain ⟨value, hvalue, -⟩ := valueAfter?_isSome_iff.1 hp
  obtain ⟨value', hvalue', -⟩ := valueAfter?_isSome_iff.1 hp'
  have hdashed : p ++ ("-" ++ value) = p' ++ ("-" ++ value') := by
    refine congrArg Text.ofList ?_
    simpa using congrArg Text.toList (hvalue.symm.trans hvalue')
  exact Text.eq_of_append_eq hdashed hlength

/-! ## Looking up -/

theorem lookup?_eq (t : RuleTable) (base : Text) :
    t.lookup? base = (t.rules.longest? fun p => (valueAfter? p base).isSome).bind fun e =>
      (valueAfter? e.1 base).map fun value => (e.2, value) := by
  rw [lookup?, findSome?_eq_find?_bind]
  simp only [Option.isSome_map]
  rfl

theorem isLongestPrefix_iff : t.IsLongestPrefix base p value ↔
    t.rules.IsLongest (fun p => (valueAfter? p base).isSome) p ∧ Splits base p value := by
  constructor
  · rintro ⟨hmem, hsplits, hlongest⟩
    refine ⟨⟨hmem, valueAfter?_isSome_iff.2 ⟨value, hsplits⟩, fun p' hp' hfits => ?_⟩, hsplits⟩
    obtain ⟨value', hvalue'⟩ := valueAfter?_isSome_iff.1 hfits
    exact hlongest p' hp' value' hvalue'
  · rintro ⟨⟨hmem, -, hlongest⟩, hsplits⟩
    exact ⟨hmem, hsplits, fun p' hp' value' hvalue' =>
      hlongest p' hp' (valueAfter?_isSome_iff.2 ⟨value', hvalue'⟩)⟩

/-- A base is read under the longest prefix that leaves a value. -/
theorem lookup?_eq_some_iff : t.lookup? base = some (r, value) ↔
    ∃ p, t.IsLongestPrefix base p value ∧ t.get? p = some r := by
  rw [lookup?_eq, Option.bind_eq_some_iff]
  constructor
  · rintro ⟨⟨p, r'⟩, hfound, hvalue⟩
    obtain ⟨hlongest, hrule⟩ := (OrderedMap.longest?_eq_some_iff (fitApart base)).1 hfound
    obtain ⟨value', hvalue', hpair⟩ := Option.map_eq_some_iff.1 hvalue
    obtain ⟨rfl, rfl⟩ := Prod.mk.inj hpair
    exact ⟨p, isLongestPrefix_iff.2 ⟨hlongest, valueAfter?_eq_some_iff.1 hvalue'⟩, hrule⟩
  · rintro ⟨p, hprefix, hrule⟩
    obtain ⟨hlongest, hsplits⟩ := isLongestPrefix_iff.1 hprefix
    refine ⟨(p, r), (OrderedMap.longest?_eq_some_iff (fitApart base)).2 ⟨hlongest, hrule⟩, ?_⟩
    rw [valueAfter?_eq_some_iff.2 hsplits]
    rfl

/-- A base is not read if no prefix leaves a value. -/
theorem lookup?_eq_none_iff :
    t.lookup? base = none ↔ ∀ p ∈ t.prefixes, ∀ value, ¬Splits base p value := by
  rw [lookup?, List.findSome?_eq_none_iff, prefixes, OrderedMap.keys, List.forall_mem_map]
  simp only [longestFirst, List.mem_mergeSort, Option.map_eq_none_iff, valueAfter?_eq_none_iff]

/-- Tables that give every prefix the same rule read every base alike. -/
theorem lookup?_congr (h : ∀ p, t.get? p = t'.get? p) (base : Text) :
    t.lookup? base = t'.lookup? base := by
  rw [lookup?_eq, lookup?_eq, OrderedMap.longest?_congr (fitApart base) h]

theorem overlays_merge (t overrides : RuleTable) : (t.merge overrides).Overlays t overrides :=
  fun _ => OrderedMap.get?_merge

/-- **A base is read under the longest prefix that leaves a value**, and not at all if there is
none. The order of the rules does not matter, and a merged table reads a base like every table that
has the overriding rules and the other old ones. -/
theorem lookup?_by_longestPrefix (t : RuleTable) (base : Text) :
    (∀ r value, t.lookup? base = some (r, value) ↔
      ∃ p, t.IsLongestPrefix base p value ∧ t.get? p = some r) ∧
    (t.lookup? base = none ↔ ∀ p ∈ t.prefixes, ∀ value, ¬Splits base p value) ∧
    (∀ t' : RuleTable, t'.rules.entries.Perm t.rules.entries → t'.lookup? base = t.lookup? base) ∧
    ∀ overrides : RuleTable, (t.merge overrides).Overlays t overrides ∧
      ∀ t' : RuleTable, t'.Overlays t overrides →
        (t.merge overrides).lookup? base = t'.lookup? base := by
  refine ⟨fun r value => lookup?_eq_some_iff, lookup?_eq_none_iff, fun t' hperm => ?_,
    fun overrides => ?_⟩
  · exact lookup?_congr (fun p => OrderedMap.get?_eq_of_perm hperm p) base
  · have hmerged := overlays_merge t overrides
    exact ⟨hmerged, fun t' h => lookup?_congr (fun p => (hmerged p).trans (h p).symm) base⟩

/-- A prefix, a longer one that begins with it and a dash, and an empty one. -/
def borderTable : RuleTable :=
  .ofRules [Config.scalarRule "" ["zoom"], Config.scalarRule "border" ["border-width"],
    Config.scalarRule "border-t" ["border-top-width"]]

/-- The same rules in another order. -/
def borderTableReversed : RuleTable :=
  .ofRules
    [Config.scalarRule "border-t" ["border-top-width"], Config.scalarRule "border" ["border-width"],
    Config.scalarRule "" ["zoom"]]

/-- A rule for a known prefix and one for a new prefix. -/
def borderOverrides : RuleTable :=
  .ofRules [Config.fixedRule "border" "border" "none", Config.scalarRule "m" ["margin"]]

/-- The overridden rules, the new one first. -/
def borderTableOverridden : RuleTable :=
  .ofRules [Config.scalarRule "m" ["margin"], Config.scalarRule "" ["zoom"],
    Config.fixedRule "border" "border" "none", Config.scalarRule "border-t" ["border-top-width"]]

/-- A base whose longest prefix leaves no value is read under the next one, in every order of the
rules and with the rule that overrides. -/
theorem border_read :
    borderTableReversed.rules.entries.Perm borderTable.rules.entries ∧
    borderTableOverridden.Overlays borderTable borderOverrides ∧
    borderTable.lookup? "border-t-2" =
      some (Config.scalarRule "border-t" ["border-top-width"], Text.ofString "2") ∧
    borderTableReversed.lookup? "border-t" =
      some (Config.scalarRule "border" ["border-width"], Text.ofString "t") ∧
    (borderTable.merge borderOverrides).lookup? "border-t" =
      some (Config.fixedRule "border" "border" "none", Text.ofString "t") ∧
    borderTable.lookup? "border-" = none := by
  have hperm : borderTableReversed.rules.entries.Perm borderTable.rules.entries := by decide
  have hoverridden : borderTableOverridden.rules.entries.Perm
      (borderTable.merge borderOverrides).rules.entries := by
    decide
  have hoverlays : borderTableOverridden.Overlays borderTable borderOverrides :=
    fun p => (OrderedMap.get?_eq_of_perm hoverridden p).trans
      (overlays_merge borderTable borderOverrides p)
  refine ⟨hperm, hoverlays, ?_, ?_, ?_, ?_⟩
  · exact ((lookup?_by_longestPrefix borderTable "border-t-2").1 _ _).2
      ⟨"border-t", isLongestPrefix_iff.2 ⟨⟨by decide, by decide, by decide⟩, by decide⟩, by decide⟩
  · rw [(lookup?_by_longestPrefix borderTable "border-t").2.2.1 _ hperm]
    exact ((lookup?_by_longestPrefix borderTable "border-t").1 _ _).2
      ⟨"border", isLongestPrefix_iff.2 ⟨⟨by decide, by decide, by decide⟩, by decide⟩, by decide⟩
  · rw [((lookup?_by_longestPrefix borderTable "border-t").2.2.2 borderOverrides).2 _ hoverlays]
    exact ((lookup?_by_longestPrefix borderTableOverridden "border-t").1 _ _).2
      ⟨"border", isLongestPrefix_iff.2 ⟨⟨by decide, by decide, by decide⟩, by decide⟩, by decide⟩
  · refine (lookup?_by_longestPrefix borderTable "border-").2.1.2 ?_
    simp only [← valueAfter?_eq_none_iff]
    decide

end RuleTable

end UtilityCss
