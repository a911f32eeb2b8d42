import UtilityCss.Proofs.Repetition
import UtilityCss.Sources
/-!
# Which class attributes are found

A page is a text with class attributes in it, and between them other text without the word `class`.
The search for attributes is textual, and still it finds these attributes and nothing else: no
attribute begins in the text between them, none is missed, and each value ends at its closing quote,
whatever the value contains. So the class names of a page are the words of its values. The names
found in any text at all are distinct words without quotes.
-/

namespace UtilityCss.ClassAttribute

variable {cs rest : List CodePoint}

/-! ## Pages -/

/-- A class attribute as it is written: its name is `class` or `className`, the quotes may be of
different kinds, and the value is anything but empty that has no quotes. -/
structure Attribute where
  isLong : Bool
  opening : CodePoint
  value : List CodePoint
  closing : CodePoint
  isQuote_opening : isQuote opening = true
  isQuote_closing : isQuote closing = true
  value_ne_nil : value ≠ []
  not_isQuote_value : ∀ c ∈ value, isQuote c = false

/-- The word that class attributes begin with. -/
def word : List CodePoint := Text.toList "class"

/-- The name of an attribute. -/
def Attribute.name (a : Attribute) : List CodePoint :=
  if a.isLong then word ++ Text.toList "Name" else word

/-- The text of an attribute. -/
def Attribute.written (a : Attribute) : List CodePoint :=
  a.name ++ .char '=' :: a.opening :: (a.value ++ [a.closing])

/-- Text without the word `class`. -/
structure Filler where
  text : List CodePoint
  not_word : ¬word <:+: text

/-- What follows the first filler of a page: attributes, and behind each of them a filler. -/
def partsText (parts : List (Attribute × Filler)) : List CodePoint :=
  parts.flatMap fun part => part.1.written ++ part.2.text

/-- A page: fillers with an attribute between any two. -/
def page (first : Filler) (parts : List (Attribute × Filler)) : Text :=
  .ofList (first.text ++ partsText parts)

/-! ## The search -/

/-- Where the word stands, the search can begin nowhere else: its first letter does not occur in it
again. -/
theorem head?_ne_of_append_eq_word {front behind : List CodePoint} (hfront : front ≠ [])
    (hbehind : behind ≠ []) (h : front ++ behind = word) : behind.head? ≠ some (.char 'c') := by
  obtain ⟨c, front, rfl⟩ := List.exists_cons_of_ne_nil hfront
  obtain ⟨d, behind, rfl⟩ := List.exists_cons_of_ne_nil hbehind
  have hletters : front ++ d :: behind = Text.toList "lass" := (List.cons.inj h).2
  have hd : d ∈ Text.toList "lass" := by
    rw [← hletters]
    exact List.mem_append_right _ List.mem_cons_self
  intro hc
  rw [List.head?_cons, Option.some.injEq] at hc
  rw [hc] at hd
  exact absurd hd (by decide)

theorem attribute?_eq_none_of_afterName? (h : afterName? cs = none) : attribute? cs = none := by
  rw [attribute?, h]

theorem afterName?_eq_none (h : ∀ rest, cs ≠ word ++ rest) : afterName? cs = none := by
  rw [afterName?]
  split
  · rfl
  · next rest hrest => exact absurd (Text.after?_eq_some_iff.1 hrest) (h rest)

/-- No attribute begins in a filler, as long as what follows it is nothing or begins like an
attribute. -/
theorem values_filler {text : List CodePoint} (hword : ¬word <:+: text)
    (hrest : rest = [] ∨ rest.head? = some (.char 'c')) : values (text ++ rest) = values rest := by
  induction text with
  | nil => rfl
  | cons c text ih =>
    have hnone : ∀ behind, c :: (text ++ rest) ≠ word ++ behind := by
      intro behind heq
      -- The word would lie in the filler, or begin in it and end behind it.
      rcases List.append_eq_append_iff.1 (show (c :: text) ++ rest = word ++ behind from heq) with
        ⟨inside, hsplit, hbehind⟩ | ⟨inside, hsplit, -⟩
      · by_cases hinside : inside = []
        · apply hword
          rw [hinside, List.append_nil] at hsplit
          exact ⟨[], [], by rw [List.nil_append, List.append_nil, hsplit]⟩
        · apply head?_ne_of_append_eq_word (List.cons_ne_nil c text) hinside hsplit.symm
          obtain ⟨d, inside, rfl⟩ := List.exists_cons_of_ne_nil hinside
          rcases hrest with hnil | hhead
          · rw [hnil] at hbehind
            exact absurd hbehind (by simp)
          · rw [hbehind] at hhead
            exact hhead
      · apply hword
        rw [hsplit]
        exact ⟨[], inside, rfl⟩
    rw [List.cons_append,
      values_cons_of_none (attribute?_eq_none_of_afterName? (afterName?_eq_none hnone))]
    apply ih
    intro hinside
    exact hword (hinside.trans (List.infix_cons (List.infix_refl _)))

theorem afterName?_written (a : Attribute) (rest : List CodePoint) :
    afterName? (a.written ++ rest) = some (a.opening :: (a.value ++ a.closing :: rest)) := by
  rw [Attribute.written, Attribute.name]
  cases a.isLong
  · show some (a.opening :: (a.value ++ [a.closing] ++ rest)) = _
    rw [List.append_assoc, List.singleton_append]
  · show some (a.opening :: (a.value ++ [a.closing] ++ rest)) = _
    rw [List.append_assoc, List.singleton_append]

/-- An attribute is found where it stands, and the search goes on behind its closing quote. -/
theorem attribute?_written (a : Attribute) (rest : List CodePoint) :
    attribute? (a.written ++ rest) = some (a.value, rest) :=
  attribute?_of_afterName? (afterName?_written a rest)
    a.isQuote_opening a.isQuote_closing a.value_ne_nil a.not_isQuote_value

theorem head?_partsText (parts : List (Attribute × Filler)) :
    partsText parts = [] ∨ (partsText parts).head? = some (.char 'c') := by
  cases parts with
  | nil => exact .inl rfl
  | cons part parts =>
    right
    rw [partsText, List.flatMap_cons, Attribute.written, Attribute.name]
    cases part.1.isLong <;> rfl

theorem values_partsText (parts : List (Attribute × Filler)) :
    values (partsText parts) = parts.map fun part => part.1.value := by
  induction parts with
  | nil =>
    rw [partsText, List.flatMap_nil, values]
    rfl
  | cons part parts ih =>
    have hcons : partsText (part :: parts) =
        part.1.written ++ (part.2.text ++ partsText parts) := by
      rw [partsText, List.flatMap_cons, List.append_assoc]
      rfl
    rw [hcons, values_of_attribute? (attribute?_written _ _),
      values_filler part.2.not_word (head?_partsText parts), ih, List.map_cons]

/-- The search finds the values of a page. -/
theorem values_page (first : Filler) (parts : List (Attribute × Filler)) :
    values (page first parts).toList = parts.map fun part => part.1.value :=
  (values_filler first.not_word (head?_partsText parts)).trans (values_partsText parts)

/-- **Every attribute is found, and nothing else.** The class names of a page are the words of the
values of its attributes, each where it occurs first. And whatever a text is, its class names are
distinct, not empty, and have neither blanks nor quotes. -/
theorem classNames_page (first : Filler) (parts : List (Attribute × Filler)) (content : Text) :
    classNames (page first parts) =
      (parts.flatMap fun part => (Text.words part.1.value).map Text.ofList).eraseDups ∧
    (classNames content).Nodup ∧
    ∀ name ∈ classNames content, name.toList ≠ [] ∧
      ∀ c ∈ name.toList, Text.isBlank c = false ∧ isQuote c = false := by
  refine ⟨?_, nodup_eraseDups _, ?_⟩
  · rw [classNames, values_page, List.flatMap_map]
  · intro name hname
    exact of_mem_classNames hname

/-- The beginning of the word, which is no attribute yet. -/
def stub : Filler := ⟨Text.toList "<p clas", by decide +kernel⟩

/-- An attribute with quotes of both kinds, a line break, and in its value what looks like another
attribute. -/
def nestedAttribute : Attribute where
  isLong := true
  opening := '"'
  value := Text.toList "mt-4 class=\nmt-4 p-2"
  closing := '\''
  isQuote_opening := rfl
  isQuote_closing := rfl
  value_ne_nil := List.cons_ne_nil _ _
  not_isQuote_value := by decide

/-- A page where the fillers end in the beginning of the word and the value of an attribute contains
the word. -/
theorem classNames_nestedPage :
    classNames (page stub [(nestedAttribute, stub), (nestedAttribute, stub)]) =
      [("mt-4" : Text), ("class=" : Text), ("p-2" : Text)] := by
  rw [(classNames_page stub [(nestedAttribute, stub), (nestedAttribute, stub)] "").1]
  decide

end UtilityCss.ClassAttribute
