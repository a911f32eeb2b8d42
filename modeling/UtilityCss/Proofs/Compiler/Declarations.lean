import UtilityCss.Compiler
import UtilityCss.Config.Settings
import UtilityCss.Proofs.Compiler.Memory
/-!
# What class names are compiled to

What generated declarations are made of, and what a sign and modifiers change in them.
-/

namespace UtilityCss

/-! ## What generated declarations are made of

The characters of a generated declaration come from the class name, from the texts of the
vocabulary, or are the dash of a sign. A keyword is taken over from the class name as it is, so
nothing more can be said about the characters of a value unless something is known about the
name. -/

/-- The texts of a rule that can become a part of a declaration. -/
def Rule.texts (r : Rule) : List Text :=
  r.properties ++ (r.fixedValue.toList ++ (r.unit.toList ++ r.valueMap.values))

/-- The texts of a vocabulary that can become a part of a declaration. -/
def Vocabulary.texts (v : Vocabulary) : List Text :=
  v.defaultUnit :: (v.valueMap.values ++ v.rules.rules.values.flatMap Rule.texts)

/-- A value is a text of the rule or of the value map, or the value part as it is, or with a
unit. -/
theorem Rule.of_resolve_eq_some {r : Rule} {globalMap : ValueMap} {defaultUnit raw value : Text}
    (h : r.resolve globalMap defaultUnit raw = some value) :
    value ∈ r.texts ∨ value ∈ globalMap.values ∨ value = raw ∨
      ∃ unit, (unit = defaultUnit ∨ unit ∈ r.texts) ∧ value = raw ++ unit := by
  have hnamed (h : (r.valueMap.get? raw).or (globalMap.get? raw) = some value) :
      value ∈ r.texts ∨ value ∈ globalMap.values := by
    rcases Option.or_eq_some_iff.1 h with h | ⟨-, h⟩
    · exact .inl (by simp [texts, OrderedMap.mem_values_of_get? h])
    · exact .inr (OrderedMap.mem_values_of_get? h)
  unfold resolve at h
  split at h
  · split at h
    · exact .inr (.inr (.inl (Option.some.inj h).symm))
    · exact (hnamed h).elim .inl fun h => .inr (.inl h)
  · exact .inl (by simp [texts, h])
  · split at h
    · next hmap => exact (hnamed (hmap.trans h)).elim .inl fun h => .inr (.inl h)
    · obtain rfl := Option.some.inj h
      split
      · refine .inr (.inr (.inr ⟨_, ?_, rfl⟩))
        cases hunit : r.unit with
        | none => exact .inl rfl
        | some unit => exact .inr (by simp [texts, hunit])
      · exact .inr (.inr (.inl rfl))

/-- Every character of a value comes from the class name or from a text of the vocabulary. -/
theorem Vocabulary.mem_value {v : Vocabulary} {rule : Rule} {raw value : Text}
    (hrule : rule ∈ v.rules.rules.values)
    (h : rule.resolve v.valueMap v.defaultUnit raw = some value) :
    ∀ c ∈ value.toList, c ∈ raw.toList ∨ ∃ text ∈ v.texts, c ∈ text.toList := by
  have htexts : ∀ text ∈ rule.texts, text ∈ v.texts := fun text htext => by
    simp [texts, List.mem_flatMap_of_mem hrule htext]
  intro c hc
  rcases Rule.of_resolve_eq_some h with hvalue | hvalue | rfl | ⟨unit, hunit, rfl⟩
  · exact .inr ⟨value, htexts _ hvalue, hc⟩
  · exact .inr ⟨value, by simp [texts, hvalue], hc⟩
  · exact .inl hc
  · rcases List.mem_append.1 hc with hc | hc
    · exact .inl hc
    · rcases hunit with rfl | hunit
      · exact .inr ⟨v.defaultUnit, by simp [texts], hc⟩
      · exact .inr ⟨unit, htexts _ hunit, hc⟩

/-- What a generated rule has from the class name, and what its declarations are made of. -/
theorem Vocabulary.of_compile_eq_some {v : Vocabulary} {name : Text} {r : CssRule}
    (h : v.compile name = some r) : r.className = name ∧
      (∃ t, ClassToken.ofName? name = some t ∧ r.selector = t.selector) ∧
      ∀ d ∈ r.declarations, ∀ c ∈ d.property.toList ++ d.value.toList,
        c = '-' ∨ c ∈ name.toList ∨ ∃ text ∈ v.texts, c ∈ text.toList := by
  unfold compile at h
  split at h
  · contradiction
  next t ht =>
  split at h
  · contradiction
  next rule raw hlookup =>
  split at h
  · contradiction
  split at h
  · contradiction
  next value hvalue =>
  -- The token, its rule and the value are there: only now is there something to say of the answer.
  obtain rfl := Option.some.inj h
  obtain ⟨hrule, hraw⟩ := RuleTable.of_lookup?_eq_some hlookup
  have hchars : ∀ c ∈ value.toList, c ∈ name.toList ∨ ∃ text ∈ v.texts, c ∈ text.toList :=
    fun c hc => (mem_value hrule hvalue c hc).imp_left fun hc =>
      ClassToken.mem_of_ofName? ht (.inl (hraw c hc))
  refine ⟨rfl, ⟨t, ht, rfl⟩, fun d hd c hc => ?_⟩
  obtain ⟨p, hp, rfl⟩ := List.mem_map.1 hd
  rcases List.mem_append.1 hc with hc | hc
  · have hproperty : p ∈ rule.texts := by simp [Rule.texts, hp]
    exact .inr (.inr ⟨p, by simp [texts, List.mem_flatMap_of_mem hrule hproperty], hc⟩)
  · dsimp only at hc
    split at hc
    · rcases List.mem_append.1 hc with hc | hc
      · exact .inl (by simpa using hc)
      · exact .inr (hchars c hc)
    · exact .inr (hchars c hc)

/-! ## Signs and modifiers

What a class name means is in its base. A sign in front of the base and modifiers behind it change
nothing in whether the name is recognised, nor in the properties that it sets: the sign stands in
front of the value again, and the modifiers stand behind the selector. -/

namespace ClassToken

variable {b m : Text} {modifiers : List Text} {negative : Bool}

/-- An ASCII letter followed by ASCII letters and dashes. -/
def IsPlainModifier (m : Text) : Prop :=
  ∃ c cs, m.toList = c :: cs ∧ Text.isAsciiLetter c = true ∧
    ∀ d ∈ cs, Text.isAsciiLetter d = true ∨ d = '-'

theorem IsPlainModifier.isModifier (h : IsPlainModifier m) : isModifier m = true := by
  obtain ⟨c, cs, hm, hc, hcs⟩ := h
  rw [ClassToken.isModifier, hm]
  simpa [hc] using fun d hd => hcs d (Text.mem_of_mem_withoutFinalNewline hd)

/-- A base with a sign in front of it, or without one, and with modifiers behind it. -/
def variant (b : Text) (negative : Bool) (modifiers : List Text) : Text :=
  (if negative then "-" ++ b else b) ++ Text.join (modifiers.map (":" ++ ·))

/-- A base with modifiers behind it is taken apart at the colons. -/
theorem splitOnChar_variant (hb : .char ':' ∉ b.toList) (hm : ∀ m ∈ modifiers, IsPlainModifier m) :
    Text.splitOnChar (.char ':') (variant b false modifiers) = b :: modifiers := by
  have hjoined : variant b false modifiers = Text.intercalate ⟨[.char ':']⟩ (b :: modifiers) := by
    refine congrArg Text.ofList (Eq.trans ?_ (Text.toList_intercalate_cons _ b modifiers).symm)
    simp [Text.join, List.flatMap_map]
  rw [hjoined]
  refine Text.splitOnChar_intercalate fun part hpart => ?_
  rcases List.mem_cons.1 hpart with rfl | hpart
  · exact hb
  · exact not_mem_of_isModifier (hm part hpart).isModifier (by decide) (by decide)

/-- Without a sign in front of it, a base with modifiers does not begin with a dash. -/
theorem head?_variant_ne (hb : b.toList.head? ≠ some (.char '-')) (modifiers : List Text) :
    (variant b false modifiers).toList.head? ≠ some (.char '-') := by
  cases hchars : b.toList with
  | cons c cs => simpa [variant, hchars] using hb
  | nil => cases modifiers <;> simp [variant, Text.join, hchars]

/-- What stands behind the sign of a variant, if there is a sign. -/
theorem afterText?_variant (hb : b.toList.head? ≠ some (.char '-')) :
    Text.afterText? "-" (variant b negative modifiers) =
      if negative then some (variant b false modifiers) else none := by
  cases negative with
  | true => exact Text.afterText?_eq_some_iff.2 rfl
  | false =>
    refine Option.eq_none_iff_forall_ne_some.2 fun rest hrest => head?_variant_ne hb modifiers ?_
    rw [Text.afterText?_eq_some_iff.1 hrest]
    rfl

/-- A variant is taken apart into the parts that it was put together from, if its base has a
dash. -/
theorem ofName?_variant (hcolon : .char ':' ∉ b.toList) (hdash : b.toList.head? ≠ some (.char '-'))
    (hm : ∀ m ∈ modifiers, IsPlainModifier m) : ofName? (variant b negative modifiers) =
      if b.toList.contains (.char '-') then
        some ⟨variant b negative modifiers, negative, b, modifiers⟩
      else none := by
  have hmodifiers : modifiers.all isModifier = true :=
    List.all_eq_true.2 fun m hmem => (hm m hmem).isModifier
  have hunsigned : (Text.afterText? "-" (variant b negative modifiers)).getD
      (variant b negative modifiers) = variant b false modifiers := by
    rw [afterText?_variant hdash]
    cases negative <;> rfl
  have hsigned : (Text.afterText? "-" (variant b negative modifiers)).isSome = negative := by
    rw [afterText?_variant hdash]
    cases negative <;> rfl
  -- Behind the sign, both variants have the same text, and the colons cut it.
  unfold ofName?
  dsimp only
  rw [hunsigned, hsigned, splitOnChar_variant hcolon hm]
  simp [hmodifiers]

end ClassToken

/-! ## Rules of variants -/

namespace Vocabulary

/-- What a base stands for: the properties that it sets and their value. -/
def meaning? (v : Vocabulary) (base : Text) : Option (List Text × Text) :=
  (v.rules.lookup? base).bind fun (rule, raw) =>
    if rule.properties.isEmpty then none
    else (rule.resolve v.valueMap v.defaultUnit raw).map (rule.properties, ·)

/-- **A rule is put together** from the token of the class name and the meaning of its base. -/
theorem compile_eq (v : Vocabulary) (name : Text) : v.compile name =
    (ClassToken.ofName? name).bind fun t => (v.meaning? t.base).map fun (properties, value) =>
      ⟨name, t.selector,
        properties.map fun p => ⟨p, if t.negative then "-" ++ value else value⟩⟩ := by
  unfold compile meaning?
  cases ClassToken.ofName? name with
  | none => rfl
  | some t =>
    rw [Option.bind_some]
    dsimp only
    cases v.rules.lookup? t.base with
    | none => rfl
    | some found =>
      obtain ⟨rule, raw⟩ := found
      rw [Option.bind_some]
      dsimp only
      split
      · rfl
      · cases rule.resolve v.valueMap v.defaultUnit raw <;> rfl

end Vocabulary

/-- **Sign and modifiers are independent of the value.** A base means some properties with one
value, or nothing, for all its variants alike: a variant has the same properties in the same order
and the same value, behind a dash if the variant has a sign; and its selector is the name of the
variant with the modifiers behind it. -/
theorem Compiler.compile_variants (v : Vocabulary) {b : Text} (hcolon : .char ':' ∉ b.toList)
    (hdash : b.toList.head? ≠ some (.char '-')) :
    ∃ meaning : Option (List Text × Text), ∀ c : Compiler, c.Faithful → c.vocabulary = v →
      ∀ (negative : Bool) (modifiers : List Text), (∀ m ∈ modifiers, ClassToken.IsPlainModifier m) →
      let name := (if negative then "-" ++ b else b) ++ Text.join (modifiers.map (":" ++ ·))
      (c.compile name).1 = meaning.map fun (properties, value) => {
        className := name
        selector := "." ++ ClassToken.escape name ++ Text.join (modifiers.map (":" ++ ·))
        declarations :=
          properties.map fun p => ⟨p, if negative then "-" ++ value else value⟩ } := by
  -- A base without a dash has no variant that is a utility class.
  refine ⟨if b.toList.contains (.char '-') then v.meaning? b else none,
    fun c hfaithful hvocabulary negative modifiers hm => ?_⟩
  have hcompile := (hfaithful.compile (ClassToken.variant b negative modifiers)).1
  rw [hvocabulary, Vocabulary.compile_eq, ClassToken.ofName?_variant hcolon hdash hm] at hcompile
  refine hcompile.trans ?_
  split <;> rfl

/-- One rule with two properties. -/
def sidesVocabulary : Vocabulary :=
  ⟨.ofRules [Config.scalarRule "mx" ["margin-left", "margin-right"]], .empty, "px"⟩

/-- The meaning of a base is seen in its own rule, and then it is known for a variant with a
sign. -/
theorem Compiler.sides_variants :
    CodePoint.char ':' ∉ Text.toList "mx-4" ∧ (Text.toList "mx-4").head? ≠ some (.char '-') ∧
    ((Compiler.new sidesVocabulary).compile "-mx-4:hover:focus-within").1 = some {
      className := "-mx-4:hover:focus-within"
      selector := ".-mx-4\\:hover\\:focus-within:hover:focus-within"
      declarations := [⟨"margin-left", "-4px"⟩, ⟨"margin-right", "-4px"⟩] } := by
  have hcolon : CodePoint.char ':' ∉ Text.toList "mx-4" := by decide
  have hdash : (Text.toList "mx-4").head? ≠ some (.char '-') := by decide
  have hmodifiers : ∀ m ∈ [Text.ofString "hover", Text.ofString "focus-within"],
      ClassToken.IsPlainModifier m := by
    simp only [List.forall_mem_cons, List.not_mem_nil, false_implies, implies_true, and_true]
    exact ⟨⟨'h', Text.toList "over", rfl, by decide, by decide⟩,
      ⟨'f', Text.toList "ocus-within", rfl, by decide, by decide⟩⟩
  obtain ⟨meaning, hmeaning⟩ := compile_variants sidesVocabulary hcolon hdash
  have hplain := hmeaning (.new sidesVocabulary) (faithful_new _) rfl false [] (by simp)
  have hvariant :=
    hmeaning (.new sidesVocabulary) (faithful_new _) rfl true ["hover", "focus-within"] hmodifiers
  refine ⟨hcolon, hdash, hvariant.trans ?_⟩
  have hrule : ((Compiler.new sidesVocabulary).compile "mx-4").1 =
      some ⟨"mx-4", ".mx-4", [⟨"margin-left", "4px"⟩, ⟨"margin-right", "4px"⟩]⟩ := by decide +kernel
  obtain ⟨⟨properties, value⟩, rfl, hfound⟩ := Option.map_eq_some_iff.1 (hplain.symm.trans hrule)
  have hdeclarations : properties.map (fun p => (⟨p, value⟩ : Declaration)) =
      [⟨"margin-left", "4px"⟩, ⟨"margin-right", "4px"⟩] := congrArg CssRule.declarations hfound
  simp only [List.map_eq_cons_iff, List.map_eq_nil_iff, Declaration.mk.injEq] at hdeclarations
  obtain ⟨_, _, rfl, ⟨rfl, rfl⟩, _, _, rfl, ⟨rfl, -⟩, rfl⟩ := hdeclarations
  decide +kernel

end UtilityCss
