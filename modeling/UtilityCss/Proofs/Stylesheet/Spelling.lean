import UtilityCss.ClassToken
import UtilityCss.Proofs.Answers
import UtilityCss.Stylesheet.Selector
/-!
# Spellings of class names

A class name can be written in many ways behind the dot of a selector. Each of its characters stands
for itself, or is escaped by a backslash, or is written by the hexadecimal digits of its number. The
main result is that every spelling of a name is read as that name, with any pseudo-classes behind
it. So the selector of a class token is read as the name of the token, and different names are
escaped differently.
-/

namespace UtilityCss.Stylesheet

variable {c : CodePoint} {name spelling rest tail : List CodePoint}

/-! ## Spellings -/

/-- The ways to write one character of a class name. -/
inductive SpelledChar : CodePoint → List CodePoint → Prop where
  /-- The character itself. -/
  | plain {c : CodePoint} (h : ClassToken.isPlain c = true) : SpelledChar c [c]
  /-- A backslash and the character. -/
  | escaped {c : CodePoint} (h : Text.isHexDigit c = false) : SpelledChar c ['\\', c]
  /-- A backslash and the hexadecimal digits of the number of the character, ended by a space. -/
  | hex {c : CodePoint} {digits : List CodePoint} (hdigits : ∀ d ∈ digits, Text.isHexDigit d = true)
      (hsome : 1 ≤ digits.length) (hmost : digits.length ≤ 6)
        (hnumber : Text.hexNumber digits = c.toNat) :
      SpelledChar c (.char '\\' :: digits ++ [.char ' '])
  /-- Six digits need no space. -/
  | sixDigits {c : CodePoint} {digits : List CodePoint}
      (hdigits : ∀ d ∈ digits, Text.isHexDigit d = true) (hsix : digits.length = 6)
      (hnumber : Text.hexNumber digits = c.toNat) : SpelledChar c (.char '\\' :: digits)

/-- The ways to write a class name: its characters are written one after the other. -/
inductive Spelled : List CodePoint → List CodePoint → Prop where
  | nil : Spelled [] []
  | cons {c : CodePoint} {name first rest : List CodePoint} (hc : SpelledChar c first)
      (hrest : Spelled name rest) : Spelled (c :: name) (first ++ rest)

/-- A text that can stand in a class attribute as one class name. -/
structure IsName (name : Text) : Prop where
  ne_nil : name.toList ≠ []
  not_blank : ∀ c ∈ name.toList, Text.isBlank c = false

/-! ## Reading one character -/

/-- A text before which a hexadecimal escape ends without a space. -/
def NoBlankAhead (cs : List CodePoint) : Prop := dropBlank cs = cs

theorem noBlankAhead_cons (h : Text.isBlank c = false) : NoBlankAhead (c :: rest) := by
  simp [NoBlankAhead, dropBlank, h]

theorem SpelledChar.noBlankAhead (hs : SpelledChar c spelling) (hc : Text.isBlank c = false) :
    NoBlankAhead (spelling ++ rest) := by
  cases hs with
  | plain => exact noBlankAhead_cons hc
  | escaped | hex | sixDigits => exact noBlankAhead_cons (by decide)

theorem nameUnit?_of_ne (hc : c ≠ '\\') :
    nameUnit? (c :: rest) = if isNameChar c then some (c.toNat, rest) else none := by
  rw [nameUnit?.eq_def]
  exact if_neg hc

theorem nameUnit?_backslash : nameUnit? (.char '\\' :: rest) =
    match (rest.take 6).takeWhile Text.isHexDigit with
    | [] =>
      match rest with
      | [] => none
      | e :: behind => if e = '\n' then none else some (e.toNat, behind)
    | digits => some (Text.hexNumber digits, dropBlank (rest.drop digits.length)) := by
  rw [nameUnit?.eq_def]
  exact if_pos rfl

theorem takeWhile_take_digits {digits : List CodePoint}
    (hdigits : ∀ d ∈ digits, Text.isHexDigit d = true) (hmost : digits.length ≤ 6)
    (hend : digits.length = 6 ∨ ∃ cs, rest = .char ' ' :: cs) :
    ((digits ++ rest).take 6).takeWhile Text.isHexDigit = digits := by
  rw [List.take_append, List.take_of_length_le hmost, List.takeWhile_append_of_pos hdigits]
  have hstop : (rest.take (6 - digits.length)).takeWhile Text.isHexDigit = [] := by
    rcases hend with hsix | ⟨cs, rfl⟩
    · simp [hsix]
    · cases 6 - digits.length with
      | zero => rfl
      | succ n => rw [List.take_succ_cons, List.takeWhile_cons_of_neg (by decide)]
  rw [hstop, List.append_nil]

theorem nameUnit?_digits {digits : List CodePoint}
    (hdigits : ∀ d ∈ digits, Text.isHexDigit d = true) (hsome : 1 ≤ digits.length)
    (hmost : digits.length ≤ 6) (hend : digits.length = 6 ∨ ∃ cs, rest = .char ' ' :: cs) :
    nameUnit? (.char '\\' :: digits ++ rest) = some (Text.hexNumber digits, dropBlank rest) := by
  rw [List.cons_append, nameUnit?_backslash, takeWhile_take_digits hdigits hmost hend]
  cases digits with
  | nil => simp at hsome
  | cons d ds => simp

/-- Every way to write a character is read as that character. -/
theorem SpelledChar.nameUnit? (hs : SpelledChar c spelling) (hc : Text.isBlank c = false)
    (hrest : NoBlankAhead rest) : nameUnit? (spelling ++ rest) = some (c.toNat, rest) := by
  cases hs with
  | plain hplain =>
    have hne : c ≠ '\\' := by
      rintro rfl
      revert hplain
      decide
    rw [List.singleton_append, nameUnit?_of_ne hne]
    exact if_pos hplain
  | escaped hnot =>
    have hline : c ≠ '\n' := by
      rintro rfl
      revert hc
      decide
    rw [List.cons_append, nameUnit?_backslash, List.singleton_append, List.take_succ_cons,
      List.takeWhile_cons_of_neg (by simp [hnot])]
    exact if_neg hline
  | hex hdigits hsome hmost hnumber =>
    have hread := nameUnit?_digits hdigits hsome hmost (.inr ⟨rest, rfl⟩)
    rw [List.append_assoc, List.singleton_append, hread, hnumber]
    rfl
  | sixDigits hdigits hsix hnumber =>
    rw [nameUnit?_digits hdigits (by omega) (by omega) (.inl hsix), hnumber, hrest]

/-! ## Reading the name -/

theorem Spelled.noBlankAhead (hs : Spelled name spelling)
    (hname : ∀ c ∈ name, Text.isBlank c = false)
    (htail : NoBlankAhead tail) : NoBlankAhead (spelling ++ tail) := by
  cases hs with
  | nil => exact htail
  | cons hc _ =>
    rw [List.append_assoc]
    exact hc.noBlankAhead (hname _ List.mem_cons_self)

/-- Every spelling of a name is read as its characters, up to what cannot continue a name. -/
theorem Spelled.readName (hs : Spelled name spelling) (hname : ∀ c ∈ name, Text.isBlank c = false)
    (htail : NoBlankAhead tail) (hend : nameUnit? tail = none) :
    readName (spelling ++ tail) = (name.map CodePoint.toNat, tail) := by
  induction hs with
  | nil =>
    rw [Stylesheet.readName]
    split
    · rfl
    · simp_all
  | @cons c name first rest hc hrest ih =>
    rw [List.forall_mem_cons] at hname
    have hunit := hc.nameUnit? hname.1 (hrest.noBlankAhead hname.2 htail)
    rw [List.append_assoc, Stylesheet.readName]
    split
    · simp_all
    · next n behind h =>
      obtain ⟨rfl, rfl⟩ : c.toNat = n ∧ rest ++ tail = behind := by simpa [hunit] using h
      rw [ih hname.2]
      rfl

/-- What holds no dot holds no class selector. -/
theorem namesIn_of_dotless {cs : List CodePoint} (h : .char '.' ∉ cs) : namesIn cs = [] := by
  induction cs with
  | nil => simp [namesIn]
  | cons c cs ih =>
    rw [List.mem_cons, not_or] at h
    rw [namesIn, if_neg (Ne.symm h.1)]
    exact ih h.2

theorem decodeName_toNat (hname : ∀ c ∈ name, Text.isBlank c = false) :
    decodeName (name.map CodePoint.toNat) = .ok (.ofList name) := by
  have hrange : (name.map CodePoint.toNat).any (0x110000 ≤ ·) = false := by
    simp [CodePoint.toNat_lt]
  have hback : (name.map CodePoint.toNat).map CodePoint.ofNat = name := by
    simp [CodePoint.ofNat_toNat, Function.comp_def]
  simp [decodeName, hrange, hback, Text.trimEnd_of_not_blank hname]

/-! ## Pseudo-classes -/

/-- The pseudo-classes behind a class name. -/
def pseudoClasses (modifiers : List Text) : List CodePoint :=
  (Text.join (modifiers.map (":" ++ ·))).toList

theorem pseudoClasses_cons (m : Text) (ms : List Text) :
    pseudoClasses (m :: ms) = .char ':' :: (m.toList ++ pseudoClasses ms) := by
  simp [pseudoClasses, Text.join]

theorem not_mem_pseudoClasses {modifiers : List Text} (hc : c ≠ ':')
    (h : ∀ m ∈ modifiers, c ∉ m.toList) : c ∉ pseudoClasses modifiers := by
  induction modifiers with
  | nil => simp [pseudoClasses, Text.join]
  | cons m ms ih =>
    rw [List.forall_mem_cons] at h
    rw [pseudoClasses_cons, List.mem_cons, List.mem_append]
    simp [hc, h.1, ih h.2]

/-- Pseudo-classes end a class name. -/
theorem pseudoClasses_end (modifiers : List Text) :
    NoBlankAhead (pseudoClasses modifiers) ∧ nameUnit? (pseudoClasses modifiers) = none := by
  cases modifiers with
  | nil => exact ⟨rfl, rfl⟩
  | cons m ms =>
    rw [pseudoClasses_cons]
    refine ⟨noBlankAhead_cons (by decide), ?_⟩
    rw [nameUnit?_of_ne (by decide)]
    exact if_neg (by decide)

/-- A spelling of a name is read as the name, whatever pseudo-classes follow. -/
theorem preludeNames_of_spelled {name : Text} {modifiers : List Text} (hname : IsName name)
    (hs : Spelled name.toList spelling) (hm : ∀ m ∈ modifiers, .char '.' ∉ m.toList) :
    preludeNames (.ofList (.char '.' :: spelling ++ pseudoClasses modifiers)) = .ok [name] := by
  obtain ⟨hblank, hend⟩ := pseudoClasses_end modifiers
  have hread := hs.readName hname.not_blank hblank hend
  have hnames : namesIn (.char '.' :: (spelling ++ pseudoClasses modifiers)) =
      [name.toList.map CodePoint.toNat] := by
    rw [namesIn, if_pos rfl]
    split
    · next h => simp_all [hname.ne_nil]
    · next points behind _ h =>
      obtain ⟨rfl, rfl⟩ := Prod.mk.inj (hread.symm.trans h)
      rw [namesIn_of_dotless (not_mem_pseudoClasses (by decide) hm)]
  rw [preludeNames, List.cons_append, hnames, List.mapM_cons, decodeName_toNat hname.not_blank]
  rfl

/-! ## Escaped names -/

/-- A hexadecimal digit needs no escape. -/
theorem isPlain_of_isHexDigit (h : Text.isHexDigit c = true) : ClassToken.isPlain c = true := by
  have hranges : ('0' ≤ c ∧ c ≤ '9') ∨ ('a' ≤ c ∧ c ≤ 'f') ∨ ('A' ≤ c ∧ c ≤ 'F') := by
    unfold Text.isHexDigit Text.hexValue? at h
    repeat' split at h
    all_goals simp_all
  have hf : c ≤ 'f' → c ≤ 'z' := fun hc => Nat.le_trans hc (by decide)
  have hF : c ≤ 'F' → c ≤ 'Z' := fun hc => Nat.le_trans hc (by decide)
  unfold ClassToken.isPlain Text.isAsciiLetter Text.isAsciiDigit
  rcases hranges with h | h | h
  · simp [h.1, h.2]
  · simp [h.1, hf h.2]
  · simp [h.1, hF h.2]

theorem spelledChar_escapeChar (c : CodePoint) : SpelledChar c (ClassToken.escapeChar c) := by
  unfold ClassToken.escapeChar
  split
  · next h => exact .plain h
  · next h => exact .escaped (by simpa using mt isPlain_of_isHexDigit h)

/-- Escaping writes a name in one of its spellings. -/
theorem spelled_escape (name : Text) : Spelled name.toList (ClassToken.escape name).toList := by
  unfold ClassToken.escape
  induction name.toList with
  | nil => exact .nil
  | cons c cs ih => exact .cons (spelledChar_escapeChar c) ih

theorem selector_toList (t : ClassToken) :
    t.selector.toList =
      .char '.' :: (ClassToken.escape t.raw).toList ++ pseudoClasses t.modifiers := rfl

/-- The selector of a class token is read as the name of the token. -/
theorem preludeNames_selector {raw : Text} {t : ClassToken} (hraw : IsName raw)
    (ht : ClassToken.ofName? raw = some t) : preludeNames t.selector = .ok [raw] := by
  obtain ⟨rfl, -, hmodifiers⟩ := ClassToken.ofName?_eq_some ht
  exact preludeNames_of_spelled hraw (spelled_escape t.raw)
    fun m hm => ClassToken.not_mem_of_isModifier (hmodifiers m hm) (by decide) (by decide)

/-- Different names are escaped differently. -/
theorem escape_injective {m n : Text} (hm : IsName m) (hn : IsName n)
    (h : ClassToken.escape m = ClassToken.escape n) : m = n := by
  have hread : preludeNames
      (.ofList (.char '.' :: (ClassToken.escape m).toList ++ pseudoClasses [])) =
      .ok [m] := preludeNames_of_spelled hm (spelled_escape m) (by simp)
  rw [h, preludeNames_of_spelled hn (spelled_escape n) (by simp)] at hread
  simpa using hread.symm

/-- **Every spelling of a class name is read as that name**, whatever pseudo-classes without a dot
follow it; so is the selector that is generated for the name, and no two names are escaped alike. -/
theorem spelling_read {name : Text} (hname : IsName name) :
    (∀ (spelling : List CodePoint) (modifiers : List Text), Spelled name.toList spelling →
      (∀ m ∈ modifiers, .char '.' ∉ m.toList) →
      preludeNames ("." ++ .ofList spelling ++ Text.join (modifiers.map (":" ++ ·))) = .ok [name]) ∧
    (∀ t, ClassToken.ofName? name = some t → preludeNames t.selector = .ok [name]) ∧
    ∀ other, IsName other → ClassToken.escape other = ClassToken.escape name → other = name := by
  refine ⟨fun spelling modifiers hs hm => ?_, fun t ht => ?_, fun other hother h => ?_⟩
  · exact preludeNames_of_spelled hname hs hm
  · exact preludeNames_selector hname ht
  · exact escape_injective hother hname h

/-- A name whose letter `a` is written by six digits in front of another digit, whose backslash is
escaped, and whose number sign is written by two digits and a space. -/
def awkwardName : Text := "m-a1\\#é"

def awkwardSpelling : List CodePoint := Text.toList "m-\\0000611\\\\\\23 é"

theorem spelled_awkwardName : Spelled awkwardName.toList awkwardSpelling :=
  have digits (c : Char) (ds : String) (h : ∀ d ∈ Text.toList ds, Text.isHexDigit d = true)
      (hsix : (Text.toList ds).length = 6) (hnumber : Text.hexNumber (Text.toList ds) = c.toNat) :
      SpelledChar c (.char '\\' :: Text.toList ds) := .sixDigits h hsix hnumber
  .cons (.plain (by decide)) <| .cons (.plain (by decide)) <|
    .cons (digits 'a' "000061" (by decide) rfl (by decide)) <| .cons (.plain (by decide)) <|
    .cons (.escaped (by decide)) <|
    .cons (@SpelledChar.hex '#' (Text.toList "23") (by decide) (by decide) (by decide)
      (by decide)) <|
    .cons (.plain (by decide)) .nil

/-- The awkward name in its awkward spelling, with two pseudo-classes behind it. -/
theorem awkwardSpelling_read : IsName awkwardName ∧ Spelled awkwardName.toList awkwardSpelling ∧
    preludeNames ("." ++ .ofList awkwardSpelling ++ Text.join [":hover", ":focus-within"]) =
      .ok [awkwardName] :=
  have hname : IsName awkwardName := ⟨by decide, by decide⟩
  ⟨hname, spelled_awkwardName,
    (spelling_read hname).1 awkwardSpelling ["hover", "focus-within"]
      spelled_awkwardName (by decide)⟩

end UtilityCss.Stylesheet

/-! ## Class names that can be decoded

The class names of a stylesheet are looked for in the selectors of its ordinary rules. All of them
are decoded or none: they are unless some hexadecimal escape is beyond the last code point. -/

namespace UtilityCss

namespace Stylesheet

variable {blocks : List Block}

/-! ## Class names -/

/-- No class name in a selector has an escape beyond the last code point. -/
def IsDecodable (blocks : List Block) : Prop :=
  ∀ prelude ∈ selectorsOf blocks, ∀ points ∈ namesIn prelude.toList, ∀ n ∈ points, n < 0x110000

theorem exists_decodeName_iff {points : List Nat} :
    (∃ name, decodeName points = .ok name) ↔ ∀ n ∈ points, n < 0x110000 := by
  unfold decodeName
  split
  · next hany =>
    obtain ⟨n, hn, hout⟩ := List.any_eq_true.1 hany
    refine iff_of_false nofun fun hall => ?_
    have hlt := hall n hn
    simp only [decide_eq_true_eq] at hout
    omega
  · next hany =>
    refine iff_of_true ⟨_, rfl⟩ fun n hn => ?_
    have hout : ¬0x110000 ≤ n := fun hout => hany (List.any_eq_true.2 ⟨n, hn, by simpa using hout⟩)
    omega

/-- The class names of a stylesheet are known if all of them can be decoded. -/
theorem exists_classNames_iff : (∃ names, classNames blocks = .ok names) ↔ IsDecodable blocks := by
  have hmap : (∃ names, classNames blocks = .ok names) ↔
      ∃ found, (selectorsOf blocks).mapM preludeNames = .ok found := by
    unfold classNames
    cases (selectorsOf blocks).mapM preludeNames <;> simp [Except.map]
  rw [hmap, exists_mapM_eq_ok, IsDecodable]
  refine forall₂_congr fun prelude _ => ?_
  rw [preludeNames, exists_mapM_eq_ok]
  exact forall₂_congr fun points _ => exists_decodeName_iff

end Stylesheet

end UtilityCss
