import UtilityCss.Proofs.Decimal.Canonical
/-!
# The range of doubles

A quotient is rounded to a mantissa in units of its exponent, and the bits of the result are that
mantissa after the exponent, so it is infinite where they reach the exponent of infinity. For
integers this is the case exactly from half a unit below `2 ^ 1024` on, since a tie there goes to
the even mantissa.
-/

namespace UtilityCss.Binary64

variable {num den n M : Nat} {negative : Bool} {magnitude : Nat}

/-! ## Infinity -/

theorem isInfinite_ofFields (h : magnitude < 2047 * twoTo 52) (negative : Bool) :
    isInfinite (ofFields negative magnitude) = false := by
  obtain ⟨m, e, hparts⟩ := exists_parts_ofFields h negative
  rw [isInfinite, hparts]

theorem isInfinite_infinity (negative : Bool) : isInfinite (infinity negative) = true := by
  rw [isInfinite, parts_infinity]

theorem isInfinite_signedZero (negative : Bool) : isInfinite (signedZero negative) = false := by
  rw [isInfinite, parts_signedZero]

/-! ## Mantissas -/

/-- A quotient is rounded to an even number or beyond from half a unit below it on. -/
theorem le_roundQuotient (hden : 0 < den) :
    2 * n + 2 ≤ roundQuotient num den ↔ (4 * n + 3) * den ≤ 2 * num := by
  have hnum : num = den * (num / den) + num % den := (Nat.div_add_mod num den).symm
  have hrest : num % den < den := Nat.mod_lt num hden
  unfold roundQuotient
  generalize num / den = q at *
  generalize num % den = r at *
  subst hnum
  simp only [Bool.or_eq_true, Bool.and_eq_true, decide_eq_true_eq, beq_iff_eq]
  rcases Nat.lt_trichotomy q (2 * n + 1) with h | rfl | h
  · have hbelow : den * (q + 1) ≤ den * (2 * n + 1) := Nat.mul_le_mul_left den h
    have hsplit : (4 * n + 3) * den = 2 * (den * (2 * n + 1)) + den := by ring
    rw [Nat.mul_succ] at hbelow
    refine iff_of_false ?_ (by omega)
    split <;> omega
  · have hsplit : (4 * n + 3) * den = 2 * (den * (2 * n + 1)) + den := by ring
    split <;> omega
  · have habove : den * (2 * n + 2) ≤ den * q := Nat.mul_le_mul_left den h
    have hsplit : (4 * n + 3) * den + den = 2 * (den * (2 * n + 2)) := by ring
    refine iff_of_true ?_ (by omega)
    split <;> omega

theorem roundQuotient_le (h : num < M * den) : roundQuotient num den ≤ M := by
  have hquotient : num / den < M := Nat.div_lt_of_lt_mul (by rwa [Nat.mul_comm])
  unfold roundQuotient
  dsimp only
  split <;> omega

/-- The mantissa of a quotient in units of an exponent. -/
def mantissaOf (round : Nat → Nat → Nat) (num den : Nat) (e : Int) : Nat :=
  if e ≥ 0 then round num (den * twoTo e.toNat) else round (num * twoTo (-e).toNat) den

/-- A number other than zero is rounded to infinity if its exponent is too large or its mantissa
reaches the exponent of infinity. -/
theorem isInfinite_rounded (round : Nat → Nat → Nat) (hnum : num ≠ 0) :
    isInfinite (rounded round negative num den) = true ↔
      971 < unitExponent num den ∨
      2047 * twoTo 52 ≤
        mantissaOf round num den (unitExponent num den) +
          (unitExponent num den + 1074).toNat * twoTo 52 := by
  unfold rounded
  rw [if_neg hnum]
  by_cases hlarge : 971 < unitExponent num den
  · rw [if_pos hlarge, isInfinite_infinity]
    exact iff_of_true rfl (.inl hlarge)
  · rw [if_neg hlarge]
    simp only [hlarge, false_or]
    have hmantissa : mantissaOf round num den (unitExponent num den) =
        if unitExponent num den ≥ 0 then round num (den * twoTo (unitExponent num den).toNat)
        else round (num * twoTo (-unitExponent num den).toNat) den := rfl
    rw [← hmantissa]
    by_cases htop : 2047 * twoTo 52 ≤
        mantissaOf round num den (unitExponent num den) +
          (unitExponent num den + 1074).toNat * twoTo 52
    · rw [if_pos htop, isInfinite_infinity]
      exact iff_of_true rfl htop
    · rw [if_neg htop, isInfinite_ofFields (Nat.lt_of_not_le htop)]
      exact iff_of_false Bool.false_ne_true htop

/-! ## Exponents -/

theorem unitExponent_one (hn : n ≠ 0) : unitExponent n 1 = n.log2 - 52 := by
  have hleading : twoTo n.log2 ≤ n := (le_log2_iff hn).1 (Nat.le_refl _)
  have hplace : ((n.log2 : Int) - (1 : Nat).log2 - 52 + 52) = n.log2 := by
    rw [show (1 : Nat).log2 = 0 from rfl]
    omega
  unfold unitExponent
  dsimp only
  rw [if_pos]
  · rw [show (1 : Nat).log2 = 0 from rfl]
    omega
  · rw [hplace, Int.toNat_natCast, Int.toNat_neg_natCast, Nat.one_mul, show twoTo 0 = 1 from rfl,
      Nat.mul_one, ite_self]
    exact hleading

/-- The mantissa of a natural number has at most 53 bits, or is one more. -/
theorem mantissaOf_le (n : Nat) : mantissaOf roundQuotient n 1 (n.log2 - 52) ≤ twoTo 53 := by
  have hhigh : n < twoTo (n.log2 + 1) := lt_twoTo_log2 n
  unfold mantissaOf
  split
  · have hplaces : n.log2 + 1 = 53 + (n.log2 - 52 : Int).toNat := by omega
    rw [hplaces, twoTo_add] at hhigh
    exact roundQuotient_le (by rwa [Nat.one_mul])
  · have hplaces : n.log2 + 1 + (-(n.log2 - 52 : Int)).toNat = 53 := by omega
    refine roundQuotient_le ?_
    rw [Nat.mul_one, ← hplaces, twoTo_add]
    exact Nat.mul_lt_mul_of_pos_right hhigh (twoTo_pos _)

/-- A natural number is rounded to infinity from half a unit below `2 ^ 1024` on. -/
theorem isInfinite_nearest_one (negative : Bool) (n : Nat) :
    isInfinite (nearest negative n 1) = decide (twoTo 1024 - twoTo 970 ≤ n) := by
  have hhalf : twoTo 1024 = twoTo 54 * twoTo 970 := twoTo_add 54 970
  have hpower : twoTo 1024 = 2 * twoTo 1023 := (twoTo_succ 1023).trans (Nat.mul_comm _ _)
  have hless : twoTo 970 ≤ twoTo 1023 := twoTo_le_twoTo (by decide)
  rw [Bool.eq_iff_iff, decide_eq_true_iff, nearest]
  by_cases hn : n = 0
  · have hpos : 0 < twoTo 970 := twoTo_pos 970
    rw [rounded, if_pos hn, isInfinite_signedZero, hn]
    exact iff_of_false Bool.false_ne_true (by omega)
  · have hlog : n.log2 < 1024 ↔ n < twoTo 1024 := log2_lt_iff hn
    have hlog' : n.log2 < 1023 ↔ n < twoTo 1023 := log2_lt_iff hn
    rw [isInfinite_rounded _ hn, unitExponent_one hn]
    rcases Nat.lt_trichotomy n.log2 1023 with h | h | h
    · have hmantissa := mantissaOf_le n
      rw [twoTo_53] at hmantissa
      rw [twoTo_52]
      exact iff_of_false (by omega) (by omega)
    · -- The mantissa reaches the exponent of infinity if it is rounded to one bit more.
      have hmantissa : mantissaOf roundQuotient n 1 (n.log2 - 52) =
          roundQuotient n (twoTo 971) := by
        rw [h, mantissaOf, if_pos (by decide), Nat.one_mul]
        rfl
      have hround := @le_roundQuotient n (twoTo 971) (twoTo 52 - 1) (twoTo_pos _)
      have hunit : twoTo 971 = 2 * twoTo 970 := (twoTo_succ 970).trans (Nat.mul_comm _ _)
      have hfield : (n.log2 - 52 + 1074 : Int).toNat = 2045 := by omega
      rw [← hmantissa, hunit, twoTo_52] at hround
      rw [show twoTo 54 = 18014398509481984 from rfl] at hhalf
      rw [twoTo_52]
      omega
    · exact iff_of_true (.inl (by omega)) (by omega)

/-- The integers that are near a double. -/
theorem ofInt_toBool (i : Int) : (ofInt i).toBool = decide (i.natAbs < twoTo 1024 - twoTo 970) := by
  have hinfinite := isInfinite_nearest_one (i < 0) i.natAbs
  unfold ofInt
  dsimp only
  by_cases h : i.natAbs < twoTo 1024 - twoTo 970
  · rw [decide_eq_false (Nat.not_le_of_lt h)] at hinfinite
    rw [if_neg (Bool.eq_false_iff.1 hinfinite), decide_eq_true h]
    rfl
  · rw [decide_eq_true (Nat.le_of_not_lt h)] at hinfinite
    rw [if_pos hinfinite, decide_eq_false h]
    rfl

/-! ## Numbers that are doubles -/

/-- A mantissa of 53 bits after an exponent in range are the bits of their double. -/
theorem parts_ofFields_add {m : Nat} {e : Int} (hm : twoTo 52 ≤ m) (hm' : m < twoTo 53)
    (he : -1074 ≤ e) (he' : e ≤ 971) (negative : Bool) :
    parts (ofFields negative (m + (e + 1074).toNat * twoTo 52)) = .finite negative m e := by
  have hlarge : m + (e + 1074).toNat * twoTo 52 < 2047 * twoTo 52 := by
    rw [twoTo_53] at hm'
    rw [twoTo_52]
    omega
  rw [parts_ofFields hlarge]
  rw [twoTo_52] at *
  rw [twoTo_53] at hm'
  have hfield : (m + (e + 1074).toNat * 4503599627370496) / 4503599627370496 =
      (e + 1075).toNat := by omega
  have hfraction : (m + (e + 1074).toNat * 4503599627370496) % 4503599627370496 +
      4503599627370496 = m := by omega
  rw [hfield, hfraction, if_neg (by omega)]
  congr 1
  omega

theorem roundQuotient_one (n : Nat) : roundQuotient n 1 = n := by
  simp [roundQuotient, Nat.mod_one]

/-- A natural number of at most 53 bits is a double, with its leading bit at the front of the
mantissa. -/
theorem parts_nearest_one {k : Nat} (hn : n ≠ 0) (hk : n.log2 + k = 52) (negative : Bool) :
    parts (nearest negative n 1) = .finite negative (n * twoTo k) (-k) := by
  have hexponent : unitExponent n 1 = -k := by
    rw [unitExponent_one hn]
    omega
  have hmantissa : (if (-k : Int) ≥ 0 then roundQuotient n (1 * twoTo (-k : Int).toNat)
      else roundQuotient (n * twoTo (-(-k : Int)).toNat) 1) = n * twoTo k := by
    split
    · obtain rfl : k = 0 := by omega
      exact (roundQuotient_one n).trans (Nat.mul_one n).symm
    · rw [roundQuotient_one, Int.neg_neg, Int.toNat_natCast]
  have hlog : (n * twoTo k).log2 = 52 := (log2_mul_twoTo hn k).trans hk
  have hne : n * twoTo k ≠ 0 := Nat.mul_ne_zero hn (Nat.ne_of_gt (twoTo_pos k))
  have hlow : twoTo 52 ≤ n * twoTo k := (le_log2_iff hne).1 (by omega)
  have hhigh : n * twoTo k < twoTo 53 := (log2_lt_iff hne).1 (by omega)
  have hbits : n * twoTo k + (-k + 1074 : Int).toNat * twoTo 52 < 2047 * twoTo 52 := by
    rw [twoTo_53] at hhigh
    rw [twoTo_52]
    omega
  unfold nearest rounded
  rw [if_neg hn, hexponent]
  dsimp only
  rw [hmantissa, if_neg (by omega), if_neg (Nat.not_le_of_lt hbits)]
  exact parts_ofFields_add hlow hhigh (by omega) (by omega) negative

/-- Natural numbers of at most 53 bits stay what they are as doubles. -/
theorem truncate_ofInt (h : n < twoTo 53) : ∃ x, ofInt n = .ok x ∧ truncate x = .ok (n : Int) := by
  by_cases hn : n = 0
  · subst hn
    exact ⟨0.0, by decide +kernel, by decide +kernel⟩
  · have hlog : n.log2 < 53 := (log2_lt_iff hn).2 h
    obtain ⟨k, hk⟩ : ∃ k, n.log2 + k = 52 := ⟨52 - n.log2, by omega⟩
    have hparts := parts_nearest_one hn hk false
    have hsign : decide ((n : Int) < 0) = false := decide_eq_false (by omega)
    refine ⟨nearest false n 1, ?_, ?_⟩
    · unfold ofInt
      rw [hsign, Int.natAbs_natCast]
      dsimp only
      rw [isInfinite, hparts, if_neg Bool.false_ne_true]
    · rw [truncate, hparts]
      dsimp only
      rw [if_neg Bool.false_ne_true]
      split
      · obtain rfl : k = 0 := by omega
        exact congrArg _ (congrArg _ ((Nat.mul_one _).trans (Nat.mul_one n)))
      · rw [Int.neg_neg, Int.toNat_natCast, Nat.mul_div_cancel _ (twoTo_pos k)]

end UtilityCss.Binary64
