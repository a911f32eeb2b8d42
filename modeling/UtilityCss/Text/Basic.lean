/-!
# Texts

A text is a sequence of code points.
-/

namespace UtilityCss

/-! ## Code points

Nearly all code points are characters. The others are the halves of surrogate pairs: an escape can
name such a half alone, and halves stand for those bytes of file names that are no UTF-8. Code
points are ordered by their numbers. -/

/-- Half of a surrogate pair. -/
structure Half where
  toNat : Nat
  le_toNat : 0xD800 ≤ toNat
  toNat_lt : toNat < 0xE000
  deriving DecidableEq, Repr

/-- Whether it is the first half of a pair. -/
def Half.isHigh (h : Half) : Bool := h.toNat < 0xDC00

/-- A character, or half of a surrogate pair. -/
inductive CodePoint where
  | char (c : Char)
  | half (h : Half)
  deriving Repr

namespace CodePoint

instance : Inhabited CodePoint := ⟨.char default⟩

instance : Coe Char CodePoint := ⟨.char⟩

/-- The number of a code point. -/
def toNat : CodePoint → Nat
  | .char c => c.toNat
  | .half h => h.toNat

/-- The code point with a number, which is below 0x110000. -/
def ofNat (n : Nat) : CodePoint :=
  if h : 0xD800 ≤ n ∧ n < 0xE000 then .half ⟨n, h.1, h.2⟩ else .char (Char.ofNat n)

instance : LT CodePoint := ⟨fun a b => a.toNat < b.toNat⟩

instance : LE CodePoint := ⟨fun a b => a.toNat ≤ b.toNat⟩

instance (a b : CodePoint) : Decidable (a < b) := inferInstanceAs (Decidable (a.toNat < b.toNat))

instance (a b : CodePoint) : Decidable (a ≤ b) := inferInstanceAs (Decidable (a.toNat ≤ b.toNat))

/-- The half of a pair, if it is one. -/
def half? : CodePoint → Option Half
  | .char _ => none
  | .half h => some h

/-- The code point as a character, U+FFFD for half of a pair. -/
def toChar : CodePoint → Char
  | .char c => c
  | .half _ => '\uFFFD'

theorem toNat_lt (c : CodePoint) : c.toNat < 0x110000 := by
  cases c with
  | half h => exact Nat.lt_trans h.toNat_lt (by decide)
  | char c =>
    have hv : c.toNat.isValidChar := c.valid
    unfold Nat.isValidChar at hv
    rw [toNat]
    omega

theorem toNat_ofNat {n : Nat} (h : n < 0x110000) : (ofNat n).toNat = n := by
  unfold ofNat
  split
  · rfl
  · next hn =>
    have hv : n.isValidChar := by
      unfold Nat.isValidChar
      omega
    rw [toNat, Char.ofNat, dif_pos hv]
    rfl

theorem ofNat_toNat (c : CodePoint) : ofNat c.toNat = c := by
  cases c with
  | half h => simp [ofNat, toNat, h.le_toNat, h.toNat_lt]
  | char c =>
    have hv : c.toNat.isValidChar := c.valid
    have : ¬(0xD800 ≤ c.toNat ∧ c.toNat < 0xE000) := by
      unfold Nat.isValidChar at hv
      omega
    rw [toNat, ofNat, dif_neg this, Char.ofNat_toNat]

theorem toNat_inj {c d : CodePoint} : c.toNat = d.toNat ↔ c = d :=
  ⟨fun h => by rw [← ofNat_toNat c, h, ofNat_toNat], fun h => h ▸ rfl⟩

instance : DecidableEq CodePoint := fun c d => decidable_of_iff (c.toNat = d.toNat) toNat_inj

/-- The character that two halves make together, if they belong together. -/
def ofHalves? (high low : Half) : Option CodePoint :=
  if high.isHigh && !low.isHigh then
    some (ofNat (0x10000 + (high.toNat - 0xD800) * 0x400 + (low.toNat - 0xDC00)))
  else none

end CodePoint

/-! ## Texts

A text is a sequence of code points. Strings, which hold characters only, are texts; texts are put
together from them, compared, and ordered code point by code point. -/

/-- A sequence of code points. -/
structure Text where ofList ::
  toList : List CodePoint
  deriving Repr, Inhabited

namespace Text

/-- Whether two lists have the same code points. -/
def sameCodePoints : List CodePoint → List CodePoint → Bool
  | [], [] => true
  | c :: cs, d :: ds => c = d && sameCodePoints cs ds
  | _, _ => false

theorem sameCodePoints_iff {cs ds : List CodePoint} : sameCodePoints cs ds = true ↔ cs = ds := by
  induction cs generalizing ds with
  | nil => cases ds <;> simp [sameCodePoints]
  | cons c cs ih => cases ds <;> simp [sameCodePoints, ih]

instance : DecidableEq Text := fun s t =>
  decidable_of_iff (sameCodePoints s.toList t.toList = true) (by
    rw [sameCodePoints_iff]
    exact ⟨fun h => congrArg ofList h, fun h => congrArg toList h⟩)

/-- The characters of a string. -/
def ofString (s : String) : Text := ⟨s.toList.map .char⟩

instance : Coe String Text := ⟨ofString⟩

instance : Append Text := ⟨fun s t => ⟨s.toList ++ t.toList⟩⟩

/-- The number of code points. -/
def length (s : Text) : Nat := s.toList.length

/-- Whether the text has no code point. -/
def isEmpty (s : Text) : Bool := s.toList.isEmpty

/-- Texts one behind the other. -/
def join (ss : List Text) : Text := ⟨ss.flatMap toList⟩

/-- Texts one behind the other with a separator between them. -/
def intercalate (sep : Text) (ss : List Text) : Text := ⟨sep.toList.intercalate (ss.map toList)⟩

/-- Behind the first text, each one follows a separator. -/
theorem toList_intercalate_cons (sep s : Text) (ss : List Text) :
    (intercalate sep (s :: ss)).toList = s.toList ++ ss.flatMap fun t =>
      sep.toList ++ t.toList := by
  induction ss generalizing s with
  | nil => simp [intercalate, List.intercalate]
  | cons t ss ih =>
    have ht := ih t
    simp only [intercalate, List.map_cons, List.intercalate, List.intersperse, List.flatten_cons,
      List.flatMap_cons] at ht ⊢
    rw [ht, List.append_assoc]

/-- Whether a text is before another in alphabetical order. -/
def lt (s t : Text) : Bool := List.lex s.toList t.toList fun a b => decide (a < b)

/-- Whether a text is before another in alphabetical order, or equal to it. -/
def le (s t : Text) : Bool := !lt t s

/-- The text as a string, with U+FFFD for every half of a surrogate pair. -/
def display (s : Text) : String := String.ofList (s.toList.map CodePoint.toChar)

@[simp]
theorem toList_append (s t : Text) : (s ++ t).toList = s.toList ++ t.toList := rfl

@[simp]
theorem toList_ofString (s : String) : (ofString s).toList = s.toList.map .char := rfl

end Text

end UtilityCss
