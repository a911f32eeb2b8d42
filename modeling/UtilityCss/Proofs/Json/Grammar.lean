import UtilityCss.Json.Reader
import UtilityCss.Text.Words
/-!
# The grammar of JSON texts

Every value has its tokens: a scalar has one, and an array or an object has the tokens of its items
or members with commas between them, inside brackets or braces. A text writes a value if these are
the tokens of the text. The value is meant as it stands, so an object has all its members, in their
order, also if a key is repeated.
-/

namespace UtilityCss.Json

/-! ## Tokens of values -/

mutual

/-- The tokens that a value is written with. -/
def yield : Json → List Token
  | str s => [.string s]
  | arr [] => [.openBracket, .closeBracket]
  | arr (v :: vs) => .openBracket :: (v.yield ++ moreItems vs)
  | obj [] => [.openBrace, .closeBrace]
  | obj ((k, v) :: rest) => .openBrace :: .string k :: .colon :: (v.yield ++ moreMembers rest)
  | v => [.scalar v]

/-- The tokens behind the first item of an array. -/
def moreItems : List Json → List Token
  | [] => [.closeBracket]
  | v :: vs => .comma :: (v.yield ++ moreItems vs)

/-- The tokens behind the first member of an object. -/
def moreMembers : List (Text × Json) → List Token
  | [] => [.closeBrace]
  | (k, v) :: rest => .comma :: .string k :: .colon :: (v.yield ++ moreMembers rest)

end

/-- A text writes a value, with all members of its objects. -/
def Writes (text : Text) (v : Json) : Prop := (tokens text.toList).map Located.token = v.yield

/-! ## Scalars -/

/-- Whether a value is written as one token that is no string. -/
def isScalar : Json → Bool
  | null | bool _ | int _ | float _ => true
  | str _ | arr _ | obj _ => false

theorem yield_of_isScalar {v : Json} (h : v.isScalar = true) : v.yield = [.scalar v] := by
  cases v with
  | null | bool _ | int _ | float _ => rfl
  | str _ | arr _ | obj _ => contradiction

theorem isScalar_of_readLiteral {cs : List CodePoint} {v : Json} {length : Nat}
    (h : readLiteral cs = some (v, length)) : v.isScalar = true := by
  have hall : ∀ entry ∈ literals, entry.2.isScalar = true := by
    simp [literals, isScalar]
  obtain ⟨⟨word, value⟩, hmem, hfound⟩ := List.exists_of_findSome?_eq_some h
  simp only [Option.ite_none_right_eq_some, Option.some.injEq, Prod.mk.injEq] at hfound
  exact hfound.2.1 ▸ hall _ hmem

theorem isScalar_of_readNumber {cs rest : List CodePoint} {v : Json}
    (h : readNumber cs = some (.scalar v, rest)) : v.isScalar = true := by
  unfold readNumber at h
  obtain ⟨⟨whole, afterWhole⟩, -, h⟩ := Option.bind_eq_some_iff.1 h
  dsimp only at h
  split at h
  · have htoken := congrArg Prod.fst (Option.some.inj h)
    dsimp only at htoken
    split at htoken
    · contradiction
    · injection htoken with hv
      rw [← hv]
      rfl
  · have htoken := congrArg Prod.fst (Option.some.inj h)
    injection htoken with hv
    rw [← hv]
    rfl

theorem isScalar_of_readScalar {offset : Nat} {cs : List CodePoint} {v : Json}
    (h : (readScalar offset cs).token = .scalar v) : v.isScalar = true := by
  unfold readScalar at h
  split at h
  · next value length hliteral =>
    injection h with hv
    exact hv ▸ isScalar_of_readLiteral hliteral
  · dsimp only at h
    split at h
    · next token rest hnumber =>
      dsimp only at h
      exact isScalar_of_readNumber (h ▸ hnumber)
    · contradiction

theorem isScalar_of_readToken {offset : Nat} {c : CodePoint} {cs : List CodePoint} {v : Json}
    (h : (readToken offset c cs).token = .scalar v) : v.isScalar = true := by
  unfold readToken at h
  split at h
  case h_7 => split at h <;> contradiction
  case h_8 => exact isScalar_of_readScalar h
  all_goals contradiction

/-- What is read as a scalar is one. -/
theorem isScalar_of_mem_tokens {cs : List CodePoint} {t : Located} {v : Json} (ht : t ∈ tokens cs)
    (h : t.token = .scalar v) : v.isScalar = true := by
  have hall (fuel offset : Nat) (cs : List CodePoint) (ht : t ∈ tokensFrom fuel offset cs) :
      v.isScalar = true := by
    fun_induction tokensFrom fuel offset cs with
    | case1 | case2 => contradiction
    | case3 fuel offset c cs hseparator ih => exact ih ht
    | case4 fuel offset c cs hseparator r ih =>
      rcases List.mem_cons.1 ht with rfl | ht
      · exact isScalar_of_readToken h
      · exact ih ht
  exact hall _ _ _ ht

/-! ## Blank texts -/

section Blank

variable {c : CodePoint} {cs : List CodePoint}

/-- A blank character that may not stand between tokens is none of those that tokens start with. -/
theorem outside_of_isBlank (hblank : Text.isBlank c = true) (hseparator : isSeparator c = false) :
    c.toNat < 0x20 ∨ 0x7F < c.toNat := by
  have hspace : c.toNat ≠ 0x20 := by
    intro h
    obtain rfl : c = ' ' := CodePoint.toNat_inj.1 h
    contradiction
  simp only [Text.isBlank, Bool.or_eq_true, Bool.and_eq_true, decide_eq_true_eq, beq_iff_eq]
    at hblank
  omega

theorem readLiteral_of_outside (hout : c.toNat < 0x20 ∨ 0x7F < c.toNat) :
    readLiteral (c :: cs) = none := by
  have hwords : ∀ entry ∈ literals,
      entry.1.toList.head?.any fun d => 0x20 ≤ d.toNat && d.toNat ≤ 0x7F := by
    decide
  refine List.findSome?_eq_none_iff.2 fun entry hentry => if_neg fun hstarts => ?_
  have hword := hwords entry hentry
  cases hchars : entry.1.toList with
  | nil => simp [hchars] at hword
  | cons d rest =>
    simp only [hchars, List.head?_cons, Option.any_some, Bool.and_eq_true, decide_eq_true_eq]
      at hword
    simp only [hchars, List.isPrefixOf_cons_cons, Bool.and_eq_true, beq_iff_eq] at hstarts
    obtain rfl := hstarts.1
    omega

theorem isNumberChar_of_outside (hout : c.toNat < 0x20 ∨ 0x7F < c.toNat) :
    isNumberChar c = false := by
  refine Bool.eq_false_iff.2 fun h => ?_
  simp only [isNumberChar, Text.isAsciiDigit, Bool.or_eq_true, Bool.and_eq_true, decide_eq_true_eq,
    beq_iff_eq] at h
  rcases h with ((((⟨hlow, hhigh⟩ | rfl) | rfl) | rfl) | rfl) | rfl
  · have hlow' : 0x30 ≤ c.toNat := hlow
    have hhigh' : c.toNat ≤ 0x39 := hhigh
    omega
  all_goals exact absurd hout (by decide)

theorem readToken_of_outside (offset : Nat) (hout : c.toNat < 0x20 ∨ 0x7F < c.toNat) :
    readToken offset c cs = ⟨.unknown, [], offset⟩ := by
  unfold readToken
  split
  case h_8 =>
    rw [readScalar, readLiteral_of_outside hout]
    simp only [List.takeWhile_cons, isNumberChar_of_outside hout]
    rfl
  all_goals exact absurd hout (by decide)

/-- A blank text has no tokens, or the first one is not well formed. -/
theorem head?_tokensFrom_of_isBlank (h : ∀ c ∈ cs, Text.isBlank c = true) (fuel offset : Nat) :
    ∀ t ∈ (tokensFrom fuel offset cs).head?, t.token = .unknown := by
  fun_induction tokensFrom fuel offset cs with
  | case1 | case2 => simp
  | case3 fuel offset c cs hseparator ih => exact ih (List.forall_mem_cons.1 h).2
  | case4 fuel offset c cs hseparator r ih =>
    have hread : r = ⟨.unknown, [], offset⟩ :=
      readToken_of_outside offset
        (outside_of_isBlank (List.forall_mem_cons.1 h).1 (Bool.not_eq_true _ ▸ hseparator))
    simp [hread]

theorem exists_head?_yield (v : Json) : ∃ t, v.yield.head? = some t ∧ t ≠ .unknown := by
  cases v with
  | arr items => cases items <;> exact ⟨_, rfl, nofun⟩
  | obj members => cases members <;> exact ⟨_, rfl, nofun⟩
  | _ => exact ⟨_, rfl, nofun⟩

/-- A blank text writes no value. -/
theorem Writes.not_isBlankText {text : Text} {v : Json} (h : Writes text v) :
    Text.isBlankText text = false := by
  refine Bool.eq_false_iff.2 fun hblank => ?_
  obtain ⟨token, hfirst, hne⟩ := exists_head?_yield v
  rw [← h, List.head?_map, Option.map_eq_some_iff] at hfirst
  obtain ⟨t, ht, rfl⟩ := hfirst
  exact hne (head?_tokensFrom_of_isBlank (by simpa [Text.isBlankText] using hblank) _ _ t ht)

end Blank

end UtilityCss.Json
