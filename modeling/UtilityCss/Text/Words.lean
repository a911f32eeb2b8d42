import UtilityCss.Text.Basic
/-!
# Words and pieces of texts

The characters that count as digits and as blanks, and what texts are cut into at blanks and at
other separators.
-/

namespace UtilityCss.Text

/-! ## Decimal digits

A decimal digit is a character of the Unicode category Nd. These characters come in runs of ten,
zero to nine, so the table lists the zeros alone. -/

/-- The digit zero of every decimal system in Unicode 14. -/
def decimalZeros : List Nat := [
  0x30, 0x660, 0x6F0, 0x7C0, 0x966, 0x9E6, 0xA66, 0xAE6, 0xB66, 0xBE6, 0xC66, 0xCE6, 0xD66,
  0xDE6, 0xE50, 0xED0, 0xF20, 0x1040, 0x1090, 0x17E0, 0x1810, 0x1946, 0x19D0, 0x1A80, 0x1A90,
  0x1B50, 0x1BB0, 0x1C40, 0x1C50, 0xA620, 0xA8D0, 0xA900, 0xA9D0, 0xA9F0, 0xAA50, 0xABF0,
  0xFF10, 0x104A0, 0x10D30, 0x11066, 0x110F0, 0x11136, 0x111D0, 0x112F0, 0x11450, 0x114D0,
  0x11650, 0x116C0, 0x11730, 0x118E0, 0x11950, 0x11C50, 0x11D50, 0x11DA0, 0x16A60, 0x16AC0,
  0x16B50, 0x1D7CE, 0x1D7D8, 0x1D7E2, 0x1D7EC, 0x1D7F6, 0x1E140, 0x1E2F0, 0x1E950, 0x1FBF0]

/-- The decimal digits of every script. -/
def isDecimalDigit (c : CodePoint) : Bool :=
  decimalZeros.any fun first => first ≤ c.toNat && c.toNat < first + 10

/-- The digits of ASCII. -/
def isAsciiDigit (c : CodePoint) : Bool := '0' ≤ c && c ≤ '9'

/-- The letters of ASCII. -/
def isAsciiLetter (c : CodePoint) : Bool := ('a' ≤ c && c ≤ 'z') || ('A' ≤ c && c ≤ 'Z')

/-- The value of a hexadecimal digit of ASCII. -/
def hexValue? (c : CodePoint) : Option Nat :=
  if '0' ≤ c && c ≤ '9' then some (c.toNat - '0'.toNat)
  else if 'a' ≤ c && c ≤ 'f' then some (c.toNat - 'a'.toNat + 10)
  else if 'A' ≤ c && c ≤ 'F' then some (c.toNat - 'A'.toNat + 10)
  else none

/-- The hexadecimal digits of ASCII. -/
def isHexDigit (c : CodePoint) : Bool := (hexValue? c).isSome

/-- The number that a list of hexadecimal digits writes, most significant digit first. -/
def hexNumber (cs : List CodePoint) : Nat :=
  cs.foldl (fun n c => n * 16 + (hexValue? c).getD 0) 0

/-! ## Blank characters and words

Words in class attributes, preludes and configuration files are separated by blank characters: the
Unicode white space characters together with the four information separators U+001C to U+001F. This
module holds the character class and what is built on it: splitting into words, dropping what is
blank at the end, and writing words with one space between them. -/

/-- The characters that separate words. -/
def isBlank (c : CodePoint) : Bool :=
  let n := c.toNat
  (9 ≤ n && n ≤ 13) || (28 ≤ n && n ≤ 32) || n == 0x85 || n == 0xA0 || n == 0x1680 ||
    (0x2000 ≤ n && n ≤ 0x200A) || n == 0x2028 || n == 0x2029 || n == 0x202F || n == 0x205F ||
    n == 0x3000

/-- Splits a list at every element that satisfies `p`; the separators are dropped, so `n` separators
give `n + 1` pieces. -/
def splitWhere {α : Type} (p : α → Bool) : List α → List (List α)
  | [] => [[]]
  | a :: as =>
    if p a then [] :: splitWhere p as
    else
      match splitWhere p as with
      | [] => [[a]]
      | piece :: pieces => (a :: piece) :: pieces

theorem splitWhere_ne_nil {α : Type} (p : α → Bool) (as : List α) : splitWhere p as ≠ [] := by
  cases as with
  | nil => simp [splitWhere]
  | cons a as =>
    unfold splitWhere
    split
    · simp
    · split <;> simp

theorem mem_of_mem_splitWhere {α : Type} {p : α → Bool} {a : α} {piece as : List α} (ha : a ∈ piece)
    (hp : piece ∈ splitWhere p as) : a ∈ as := by
  induction as generalizing piece with
  | nil => simp_all [splitWhere]
  | cons b bs ih =>
    rw [splitWhere] at hp
    split at hp
    · rcases List.mem_cons.1 hp with rfl | hp
      · simp at ha
      · exact List.mem_cons_of_mem _ (ih ha hp)
    · split at hp
      · next h => exact absurd h (splitWhere_ne_nil p bs)
      · next first rest h =>
        rcases List.mem_cons.1 hp with rfl | hp
        · rcases List.mem_cons.1 ha with rfl | ha
          · simp
          · exact List.mem_cons_of_mem _ (ih ha (by simp [h]))
        · exact List.mem_cons_of_mem _ (ih ha (by simp [h, hp]))

/-- No piece has a separator. -/
theorem not_of_mem_splitWhere {α : Type} {p : α → Bool} {a : α} {piece as : List α} (ha : a ∈ piece)
    (hp : piece ∈ splitWhere p as) : p a = false := by
  induction as generalizing piece with
  | nil => simp_all [splitWhere]
  | cons b bs ih =>
    rw [splitWhere] at hp
    split at hp
    · rcases List.mem_cons.1 hp with rfl | hp
      · simp at ha
      · exact ih ha hp
    · next hb =>
      split at hp
      · next h => exact absurd h (splitWhere_ne_nil p bs)
      · next first rest h =>
        rcases List.mem_cons.1 hp with rfl | hp
        · rcases List.mem_cons.1 ha with rfl | ha
          · simpa using hb
          · exact ih ha (by simp [h])
        · exact ih ha (by simp [h, hp])

/-- Everything is in a piece but the separators. -/
theorem exists_mem_splitWhere {α : Type} {p : α → Bool} {a : α} {as : List α} (ha : a ∈ as)
    (hp : p a = false) : ∃ piece ∈ splitWhere p as, a ∈ piece := by
  obtain ⟨before, behind, rfl⟩ := List.append_of_mem ha
  clear ha
  induction before with
  | nil =>
    rw [List.nil_append, splitWhere, hp]
    cases splitWhere p behind <;> simp
  | cons b before ih =>
    obtain ⟨piece, hpiece, hmem⟩ := ih
    rw [List.cons_append, splitWhere]
    split
    · exact ⟨piece, .tail _ hpiece, hmem⟩
    · cases hsplit : splitWhere p (before ++ a :: behind) with
      | nil => exact absurd hsplit (splitWhere_ne_nil p _)
      | cons first pieces =>
        rw [hsplit] at hpiece
        rcases List.mem_cons.1 hpiece with rfl | hpiece
        · exact ⟨b :: piece, .head _, .tail _ hmem⟩
        · exact ⟨piece, .tail _ hpiece, hmem⟩

theorem splitWhere_of_forall {α : Type} {p : α → Bool} {as : List α} (h : ∀ a ∈ as, p a = false) :
    splitWhere p as = [as] := by
  induction as with
  | nil => rfl
  | cons a as ih =>
    rw [List.forall_mem_cons] at h
    rw [splitWhere, h.1, ih h.2]
    rfl

/-- At a separator the pieces in front of it and those behind it meet. -/
theorem splitWhere_append {α : Type} {p : α → Bool} {a : α} (ha : p a = true) (as bs : List α) :
    splitWhere p (as ++ a :: bs) = splitWhere p as ++ splitWhere p bs := by
  induction as with
  | nil => simp [splitWhere, ha]
  | cons b as ih =>
    rw [List.cons_append, splitWhere, splitWhere, ih]
    split
    · simp
    · cases h : splitWhere p as with
      | nil => exact absurd h (splitWhere_ne_nil p as)
      | cons piece pieces => simp

theorem splitWhere_append_separator {α : Type} {p : α → Bool} {a : α} (ha : p a = true)
    (as : List α) : splitWhere p (as ++ [a]) = splitWhere p as ++ [[]] :=
  splitWhere_append ha as []

/-- The maximal runs of characters that are not blank. -/
def words (cs : List CodePoint) : List (List CodePoint) :=
  (splitWhere isBlank cs).filter fun piece => !piece.isEmpty

theorem mem_words {w cs : List CodePoint} (h : w ∈ words cs) :
    w ≠ [] ∧ ∀ c ∈ w, isBlank c = false ∧ c ∈ cs := by
  obtain ⟨hpiece, hne⟩ := List.mem_filter.1 h
  exact ⟨by simpa using hne,
    fun c hc => ⟨not_of_mem_splitWhere hc hpiece, mem_of_mem_splitWhere hc hpiece⟩⟩

theorem words_append_blank {c : CodePoint} (hc : isBlank c = true) (cs : List CodePoint) :
    words (cs ++ [c]) = words cs := by
  simp [words, splitWhere_append_separator hc]

/-- Drops blank characters at the end. -/
def trimEnd (cs : List CodePoint) : List CodePoint :=
  (cs.reverse.dropWhile isBlank).reverse

theorem trimEnd_of_not_blank {cs : List CodePoint} (h : ∀ c ∈ cs, isBlank c = false) :
    trimEnd cs = cs := by
  have hdrop : cs.reverse.dropWhile isBlank = cs.reverse := by
    cases hr : cs.reverse with
    | nil => rfl
    | cons c rest =>
      have hc : c ∈ cs := List.mem_reverse.1 (hr ▸ List.mem_cons_self)
      exact List.dropWhile_cons_of_neg (by simp [h c hc])
  rw [trimEnd, hdrop, List.reverse_reverse]

/-- The words of a text with one space between them. -/
def collapse (s : Text) : Text :=
  Text.intercalate " " ((words s.toList).map Text.ofList)

/-- A text that is a word stays as it is. -/
theorem collapse_of_not_blank {s : Text} (hne : s.toList ≠ [])
    (h : ∀ c ∈ s.toList, isBlank c = false) : collapse s = s := by
  have hwords : words s.toList = [s.toList] := by simp [words, splitWhere_of_forall h, hne]
  simp [collapse, hwords, intercalate, List.intercalate]

/-- A text that holds no word. -/
def isBlankText (s : Text) : Bool :=
  s.toList.all isBlank

/-! ## Pieces of texts

Cutting texts at separators, taking a known beginning off, and joining pieces again. -/

/-- The pieces of a text between the occurrences of one character. -/
def splitOnChar (sep : CodePoint) (s : Text) : List Text :=
  (splitWhere (· == sep) s.toList).map Text.ofList

theorem splitWhere_of_not_mem {α : Type} [BEq α] [LawfulBEq α] {sep : α} {as : List α}
    (h : sep ∉ as) : splitWhere (· == sep) as = [as] :=
  splitWhere_of_forall fun _ ha => beq_eq_false_iff_ne.2 fun heq => h (heq ▸ ha)

/-- Texts that were joined by a separator which none of them has are found again. -/
theorem splitOnChar_intercalate {sep : CodePoint} {part : Text} {parts : List Text}
    (h : ∀ part' ∈ part :: parts, sep ∉ part'.toList) :
    splitOnChar sep (intercalate ⟨[sep]⟩ (part :: parts)) = part :: parts := by
  have hpart := splitWhere_of_not_mem (h part (.head _))
  unfold splitOnChar
  induction parts generalizing part with
  | nil =>
    rw [toList_intercalate_cons, List.flatMap_nil, List.append_nil, hpart]
    rfl
  | cons next parts ih =>
    have htext : (intercalate ⟨[sep]⟩ (part :: next :: parts)).toList =
        part.toList ++ sep :: (intercalate ⟨[sep]⟩ (next :: parts)).toList := by
      simp [toList_intercalate_cons]
    have hrest : ∀ part' ∈ next :: parts, sep ∉ part'.toList :=
      fun part' hpart' => h part' (.tail _ hpart')
    rw [htext, splitWhere_append (by simp), hpart, List.map_append,
      ih hrest (splitWhere_of_not_mem (hrest next (.head _)))]
    rfl

/-- What follows `front` in a list that begins with it. -/
def after? {α : Type} [DecidableEq α] : (front all : List α) → Option (List α)
  | [], as => some as
  | _ :: _, [] => none
  | b :: bs, a :: as => if b = a then after? bs as else none

theorem after?_eq_some_iff {α : Type} [DecidableEq α] {front all rest : List α} :
    after? front all = some rest ↔ all = front ++ rest := by
  induction front generalizing all with
  | nil => simp [after?, eq_comm]
  | cons b bs ih =>
    cases all with
    | nil => simp [after?]
    | cons a as =>
      by_cases h : b = a
      · simp [after?, h, ih]
      · simp [after?, h, Ne.symm h]

/-- What follows `front` in a text that begins with it. -/
def afterText? (front s : Text) : Option Text :=
  (after? front.toList s.toList).map Text.ofList

theorem afterText?_eq_some_iff {front s rest : Text} :
    afterText? front s = some rest ↔ s = front ++ rest := by
  rw [afterText?, Option.map_eq_some_iff]
  constructor
  · rintro ⟨cs, hcs, rfl⟩
    exact congrArg ofList (after?_eq_some_iff.1 hcs)
  · rintro rfl
    exact ⟨rest.toList, after?_eq_some_iff.2 rfl, rfl⟩

/-- Whether a text begins with another. -/
def startsWith (s front : Text) : Bool := (after? front.toList s.toList).isSome

theorem startsWith_iff {s front : Text} :
    startsWith s front = true ↔ ∃ rest, s = front ++ rest := by
  simp only [← afterText?_eq_some_iff, afterText?, startsWith, Option.isSome_iff_exists,
    Option.map_eq_some_iff]
  exact ⟨fun ⟨cs, hcs⟩ => ⟨_, cs, hcs, rfl⟩, fun ⟨_, cs, hcs, _⟩ => ⟨cs, hcs⟩⟩

/-- Beginnings of one text that have the same length are the same. -/
theorem eq_of_append_eq {front front' rest rest' : Text} (h : front ++ rest = front' ++ rest')
    (hlength : front.length = front'.length) : front = front' :=
  congrArg ofList (List.append_inj_left (congrArg toList h) hlength)

/-- Puts `new` in place of every piece that `after?` takes off, from left to right. `skip` is the
number of code points of a piece that are still to be left out. -/
def replaceFrom (after? : List CodePoint → Option (List CodePoint)) (new : List CodePoint) :
    (skip : Nat) → List CodePoint → List CodePoint
  | _, [] => []
  | skip + 1, _ :: cs => replaceFrom after? new skip cs
  | 0, c :: cs =>
    match after? (c :: cs) with
    | some behind => new ++ replaceFrom after? new (cs.length - behind.length) cs
    | none => c :: replaceFrom after? new 0 cs

/-- The text with `new` in place of every piece that `after?` takes off, where `after?` gives what
follows the piece at the start of a text. -/
def replacePieces (after? : List CodePoint → Option (List CodePoint)) (new s : Text) : Text :=
  .ofList (replaceFrom after? new.toList 0 s.toList)

/-- A line without the line break at its end. A pattern that has to hold up to the end of a text
admits one such line break. -/
def withoutFinalNewline (cs : List CodePoint) : List CodePoint :=
  if cs.getLast? = some '\n' then cs.dropLast else cs

/-- Only line breaks are dropped. -/
theorem mem_withoutFinalNewline {c : CodePoint} {cs : List CodePoint} (hc : c ∈ cs)
    (hne : c ≠ '\n') : c ∈ withoutFinalNewline cs := by
  unfold withoutFinalNewline
  split
  · next h =>
    obtain ⟨line, rfl⟩ := List.getLast?_eq_some_iff.1 h
    simpa [hne] using hc
  · exact hc

/-- Nothing is added. -/
theorem mem_of_mem_withoutFinalNewline {c : CodePoint} {cs : List CodePoint}
    (hc : c ∈ withoutFinalNewline cs) : c ∈ cs := by
  unfold withoutFinalNewline at hc
  split at hc
  · exact List.dropLast_subset cs hc
  · exact hc

end UtilityCss.Text
