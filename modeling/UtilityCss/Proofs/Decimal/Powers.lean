import Mathlib
import UtilityCss.Proofs.Decimal.Magnitudes
import UtilityCss.Proofs.Decimal.Range
/-!
# Powers in range

A power is a product of numbers of 256 bits, from which further bits are dropped, and is rounded at
the end. So what is rounded is at most the exact power. As long as this is at most the largest
double, neither of the two doubles next to it is infinite, and it does not matter which of them is
taken.
-/

namespace UtilityCss.Binary64

variable {num den n : Nat} {e p : Int} {negative : Bool} {guess x y : Float}

/-- The largest double. -/
def largest : ℚ := (2 ^ 53 - 1) * 2 ^ (971 : Int)

theorem largest_lt : largest < 2 ^ (1024 : Int) := by
  have hunit : (0 : ℚ) < 2 ^ (971 : Int) := by positivity
  calc largest < 2 ^ 53 * 2 ^ (971 : Int) := mul_lt_mul_of_pos_right (by norm_num) hunit
    _ = 2 ^ (1024 : Int) := by rw [← zpow_natCast, ← zpow_add₀ two_ne_zero]; rfl

theorem le_largest : 2 ^ (1023 : Int) ≤ largest := by
  have hunit : (0 : ℚ) < 2 ^ (971 : Int) := by positivity
  calc (2 : ℚ) ^ (1023 : Int) =
    2 ^ 52 * 2 ^ (971 : Int) := by rw [← zpow_natCast, ← zpow_add₀ two_ne_zero]; rfl
    _ ≤ largest := mul_le_mul_of_nonneg_right (by norm_num) hunit.le

theorem lt_of_zpow_le_largest (h : (2 : ℚ) ^ p ≤ largest) : p < 1024 :=
  (zpow_lt_zpow_iff_right₀ one_lt_two).1 (h.trans_lt largest_lt)

@[simp] theorem cast_twoTo (n : Nat) : (twoTo n : ℚ) = 2 ^ n := by
  rw [twoTo, Nat.pow_eq, Nat.cast_pow, Nat.cast_ofNat]

theorem zpow_log2 (hn : n ≠ 0) :
    (2 : ℚ) ^ (n.log2 : Int) ≤ n ∧ (n : ℚ) < 2 ^ (n.log2 + 1 : Int) := by
  have hlow : twoTo n.log2 ≤ n := (le_log2_iff hn).1 (Nat.le_refl _)
  have hhigh : n < twoTo (n.log2 + 1) := lt_twoTo_log2 n
  constructor
  · rw [zpow_natCast, ← cast_twoTo]
    exact_mod_cast hlow
  · rw [← Nat.cast_succ, zpow_natCast, ← cast_twoTo]
    exact_mod_cast hhigh

/-! ## Powers of scaled numbers -/

namespace Scaled

variable {s t : Scaled}

/-- The number that is meant. -/
def value (s : Scaled) : ℚ := s.mantissa * 2 ^ s.exponent

theorem value_nonneg (s : Scaled) : 0 ≤ s.value := by
  unfold value
  positivity

theorem value_truncate_le (s : Scaled) : s.truncate.value ≤ s.value := by
  unfold truncate value
  dsimp only
  generalize s.mantissa.log2 + 1 - 256 = excess
  calc ((s.mantissa / twoTo excess : Nat) : ℚ) * 2 ^ (s.exponent + excess)
      ≤ s.mantissa / twoTo excess * 2 ^ (s.exponent + excess) := by
        gcongr
        exact Nat.cast_div_le
    _ = s.mantissa * 2 ^ s.exponent := by
        rw [cast_twoTo, zpow_add₀ two_ne_zero, zpow_natCast]
        field_simp

theorem value_mul_le (s t : Scaled) : (s.mul t).value ≤ s.value * t.value := by
  refine (value_truncate_le _).trans_eq ?_
  unfold value
  dsimp only
  rw [Nat.cast_mul, zpow_add₀ two_ne_zero]
  ring

theorem value_longPow_le (s : Scaled) (n : Nat) : (s.longPow n).value ≤ s.value ^ n := by
  -- Squaring halves the exponent, and no product is more than the exact one.
  induction n using Nat.strong_induction_on with
  | _ n ih =>
    unfold longPow
    by_cases h0 : n = 0
    · rw [dif_pos h0, h0]
      norm_num [value]
    · rw [dif_neg h0]
      have hhalf : ((s.longPow (n / 2)).mul (s.longPow (n / 2))).value ≤
          s.value ^ (2 * (n / 2)) := by
        refine (value_mul_le _ _).trans ?_
        rw [two_mul, pow_add]
        exact mul_self_le_mul_self (value_nonneg _) (ih (n / 2) (by omega))
      dsimp only
      by_cases heven : n % 2 = 0
      · rw [if_pos heven]
        rwa [show 2 * (n / 2) = n by omega] at hhalf
      · rw [if_neg heven]
        refine (value_mul_le _ _).trans ?_
        calc _ ≤ s.value ^ (2 * (n / 2)) * s.value :=
          mul_le_mul_of_nonneg_right hhalf (value_nonneg s)
          _ = s.value ^ n := by rw [← pow_succ, show 2 * (n / 2) + 1 = n by omega]

theorem value_pow (s : Scaled) (h : n ≤ 1100) : (s.pow n).value = s.value ^ n := by
  unfold pow
  rw [if_pos h]
  unfold value
  dsimp only
  rw [Nat.pow_eq, Nat.cast_pow, zpow_mul, zpow_natCast, mul_pow]

theorem value_pow_le (s : Scaled) (n : Nat) : (s.pow n).value ≤ s.value ^ n := by
  by_cases h : n ≤ 1100
  · exact (value_pow s h).le
  · unfold pow
    rw [if_neg h]
    exact value_longPow_le s n

theorem truncate_ne_zero (h : s.mantissa ≠ 0) : s.truncate.mantissa ≠ 0 := by
  unfold truncate
  dsimp only
  refine Nat.ne_of_gt (Nat.div_pos ?_ (twoTo_pos _))
  exact (le_log2_iff h).1 (by omega)

theorem mul_ne_zero (hs : s.mantissa ≠ 0) (ht : t.mantissa ≠ 0) : (s.mul t).mantissa ≠ 0 :=
  truncate_ne_zero (Nat.mul_ne_zero hs ht)

theorem longPow_ne_zero (h : s.mantissa ≠ 0) (n : Nat) : (s.longPow n).mantissa ≠ 0 := by
  induction n using Nat.strong_induction_on with
  | _ n ih =>
    unfold longPow
    by_cases h0 : n = 0
    · rw [dif_pos h0]
      exact Nat.one_ne_zero
    · rw [dif_neg h0]
      have hhalf := ih (n / 2) (by omega)
      dsimp only
      split
      · exact mul_ne_zero hhalf hhalf
      · exact mul_ne_zero (mul_ne_zero hhalf hhalf) h

theorem pow_ne_zero (h : s.mantissa ≠ 0) (n : Nat) : (s.pow n).mantissa ≠ 0 := by
  unfold pow
  split
  · exact Nat.ne_of_gt (Nat.pow_pos (Nat.pos_of_ne_zero h))
  · exact longPow_ne_zero h n

theorem value_quotient (s : Scaled) : (s.quotient.1 : ℚ) / s.quotient.2 = s.value := by
  unfold quotient value
  split
  · obtain ⟨k, hk⟩ := Int.eq_ofNat_of_zero_le ‹_›
    simp [hk]
  · obtain ⟨k, hk⟩ := Int.eq_ofNat_of_zero_le (show 0 ≤ -s.exponent by omega)
    have hexponent : s.exponent = -k := by omega
    simp [hexponent, div_eq_mul_inv]

theorem quotient_pos (h : s.mantissa ≠ 0) : s.quotient.1 ≠ 0 ∧ 0 < s.quotient.2 := by
  unfold quotient
  split
  · exact ⟨Nat.mul_ne_zero h (Nat.ne_of_gt (twoTo_pos _)), Nat.one_pos⟩
  · exact ⟨h, twoTo_pos _⟩

/-- A number has as many bits as its leading bit says. -/
theorem leading_spec (h : s.mantissa ≠ 0) :
    (2 : ℚ) ^ s.leading ≤ s.value ∧ s.value < 2 ^ (s.leading + 1) := by
  obtain ⟨hlow, hhigh⟩ := zpow_log2 h
  have hunit : (0 : ℚ) < 2 ^ s.exponent := by positivity
  unfold leading value
  rw [add_assoc, zpow_add₀ two_ne_zero, zpow_add₀ two_ne_zero, mul_comm, mul_comm (2 ^ s.exponent)]
  exact ⟨mul_le_mul_of_nonneg_right hlow hunit.le, mul_lt_mul_of_pos_right hhigh hunit⟩

end Scaled

/-! ## Rounding below infinity -/

theorem zpow_le_quotient_iff (num : Nat) (hden : 0 < den) (p : Int) :
    (2 : ℚ) ^ p ≤ num / den ↔ den * twoTo p.toNat ≤ num * twoTo (-p).toNat := by
  have hsplit : (2 : ℚ) ^ p = twoTo p.toNat / twoTo (-p).toNat := by
    rw [cast_twoTo, cast_twoTo, ← zpow_natCast, ← zpow_natCast, ← zpow_sub₀ two_ne_zero]
    congr 1
    omega
  have hden' : (0 : ℚ) < den := by exact_mod_cast hden
  have hpos : (0 : ℚ) < twoTo (-p).toNat := by exact_mod_cast twoTo_pos _
  rw [hsplit, div_le_div_iff₀ hpos hden', mul_comm]
  exact_mod_cast Iff.rfl

theorem quotient_log2 (hnum : num ≠ 0) (hden : den ≠ 0) :
    (2 : ℚ) ^ ((num.log2 : Int) - den.log2 - 1) ≤ num / den ∧
      (num : ℚ) / den < 2 ^ ((num.log2 : Int) - den.log2 + 1) := by
  obtain ⟨hnumLow, hnumHigh⟩ := zpow_log2 hnum
  obtain ⟨hdenLow, hdenHigh⟩ := zpow_log2 hden
  have hden' : (0 : ℚ) < den := by exact_mod_cast Nat.pos_of_ne_zero hden
  constructor
  · rw [show (num.log2 : Int) - den.log2 - 1 = num.log2 - (den.log2 + 1) by omega,
      zpow_sub₀ two_ne_zero]
    exact div_le_div₀ (by positivity) hnumLow hden' hdenHigh.le
  · rw [show (num.log2 : Int) - den.log2 + 1 = num.log2 + 1 - den.log2 by omega,
      zpow_sub₀ two_ne_zero]
    exact div_lt_div₀ hnumHigh hdenLow (by positivity) (by positivity)

/-- The exponent of a quotient is that of its leading bit, less 52. -/
theorem unitExponent_eq (num : Nat) (hden : 0 < den) : unitExponent num den =
    max (-1074)
      (if (2 : ℚ) ^ ((num.log2 : Int) - den.log2) ≤ num / den then (num.log2 : Int) - den.log2 - 52
      else (num.log2 : Int) - den.log2 - 52 - 1) := by
  have habove := zpow_le_quotient_iff num hden ((num.log2 : Int) - den.log2)
  have hplace : (num.log2 : Int) - den.log2 - 52 + 52 = num.log2 - den.log2 := by omega
  unfold unitExponent
  dsimp only
  congr 1
  refine if_congr ?_ rfl rfl
  rw [hplace, habove]
  split
  · rw [show (-((num.log2 : Int) - den.log2)).toNat = 0 by omega, show twoTo 0 = 1 from rfl,
      Nat.mul_one]
  · rfl

/-- A quotient has at most 53 bits in units of its exponent, and no fewer above the least
exponent. -/
theorem unitExponent_spec (hnum : num ≠ 0) (hden : 0 < den) :
    (num : ℚ) / den < 2 ^ (unitExponent num den + 53) ∧
      (-1074 < unitExponent num den → (2 : ℚ) ^ (unitExponent num den + 52) ≤ num / den) := by
  obtain ⟨hlow, hhigh⟩ := quotient_log2 hnum (Nat.ne_of_gt hden)
  have hmono : ∀ {p q : Int}, p ≤ q → (2 : ℚ) ^ p ≤ 2 ^ q := zpow_le_zpow_right₀ one_le_two
  rw [unitExponent_eq num hden]
  by_cases habove : (2 : ℚ) ^ ((num.log2 : Int) - den.log2) ≤ num / den
  · rw [if_pos habove]
    exact ⟨hhigh.trans_le (hmono (by omega)), fun h => (hmono (by omega)).trans habove⟩
  · rw [if_neg habove]
    exact ⟨(not_le.1 habove).trans_le (hmono (by omega)), fun h => (hmono (by omega)).trans hlow⟩

/-- A quotient in units of an exponent, again as a quotient. -/
def inUnits (num den : Nat) (e : Int) : Nat × Nat :=
  if e ≥ 0 then (num, den * twoTo e.toNat) else (num * twoTo (-e).toNat, den)

theorem mantissaOf_eq (round : Nat → Nat → Nat) (num den : Nat) (e : Int) :
    mantissaOf round num den e = round (inUnits num den e).1 (inUnits num den e).2 := by
  unfold mantissaOf inUnits
  split
  · rfl
  · rfl

theorem inUnits_pos (num : Nat) (hden : 0 < den) (e : Int) : 0 < (inUnits num den e).2 := by
  unfold inUnits
  split
  · exact Nat.mul_pos hden (twoTo_pos _)
  · exact hden

theorem inUnits_value (num den : Nat) (e : Int) :
    ((inUnits num den e).1 : ℚ) / (inUnits num den e).2 = num / den / 2 ^ e := by
  unfold inUnits
  split
  · obtain ⟨k, rfl⟩ := Int.eq_ofNat_of_zero_le ‹_›
    simp [div_div]
  · obtain ⟨k, hk⟩ := Int.eq_ofNat_of_zero_le (show 0 ≤ -e by omega)
    obtain rfl : e = -k := by omega
    simp [div_eq_mul_inv, mul_right_comm]

/-- A quotient is rounded to a mantissa that is less than one above it. -/
def Near (round : Nat → Nat → Nat) (a b : Nat) : Prop := round a b * b < a + b

/-- A quotient that is at most the largest double is not rounded to infinity. -/
theorem isInfinite_rounded_of_le {round : Nat → Nat → Nat} (hnum : num ≠ 0) (hden : 0 < den)
    (hle : (num : ℚ) / den ≤ largest)
    (hround : Near round (inUnits num den (unitExponent num den)).1
      (inUnits num den (unitExponent num den)).2) :
    isInfinite (rounded round negative num den) = false := by
  obtain ⟨hbelow, hleading⟩ := unitExponent_spec hnum hden
  have hpos : (0 : ℚ) < (inUnits num den (unitExponent num den)).2 := by
    exact_mod_cast inUnits_pos num hden _
  have hmantissa : (mantissaOf round num den (unitExponent num den) : ℚ) <
      num / den / 2 ^ unitExponent num den + 1 := by
    rw [mantissaOf_eq, ← inUnits_value, ← div_add_same hpos.ne', lt_div_iff₀ hpos]
    exact_mod_cast hround
  have hunit : (0 : ℚ) < 2 ^ unitExponent num den := by positivity
  rw [Bool.eq_false_iff, Ne, isInfinite_rounded round hnum]
  generalize unitExponent num den = e at *
  have he : e ≤ 971 := by
    by_contra h
    have hlt := lt_of_zpow_le_largest ((hleading (by omega)).trans hle)
    omega
  have hbits : mantissaOf round num den e ≤ twoTo 53 := by
    rw [zpow_add₀ two_ne_zero, ← div_lt_iff₀' hunit] at hbelow
    have hlt : (mantissaOf round num den e : ℚ) < 2 ^ 53 + 1 :=
      hmantissa.trans (by gcongr; exact hbelow)
    exact Nat.le_of_lt_succ (by exact_mod_cast hlt)
  -- A mantissa of one bit more is in range, but not at the greatest exponent.
  have htop : e = 971 → mantissaOf round num den e < twoTo 53 := by
    rintro rfl
    have hunits : (num : ℚ) / den / 2 ^ (971 : Int) ≤ 2 ^ 53 - 1 := (div_le_iff₀ hunit).2 hle
    have hlt : (mantissaOf round num den 971 : ℚ) < 2 ^ 53 := by linarith
    exact_mod_cast hlt
  rw [twoTo_53] at hbits htop
  rw [twoTo_52]
  omega

theorem near_div (a : Nat) {b : Nat} (hb : 0 < b) : Near (fun num den => num / den) a b :=
  Nat.lt_of_le_of_lt (Nat.div_mul_le_self a b) (Nat.lt_add_of_pos_right hb)

theorem near_div_succ {a b : Nat} (hrest : a % b ≠ 0) :
    Near (fun num den => num / den + 1) a b := by
  have hsplit := Nat.div_add_mod' a b
  unfold Near
  dsimp only
  rw [Nat.succ_mul]
  omega

theorem near_roundQuotient (a : Nat) {b : Nat} (hb : 0 < b) : Near roundQuotient a b := by
  unfold Near roundQuotient
  dsimp only
  split
  · rename_i h
    refine near_div_succ fun hrest => ?_
    simp [hrest, Nat.ne_of_lt hb] at h
  · exact near_div a hb

/-- Whether the rest of a quotient is within a sixteenth of half the denominator. -/
def isNearHalf (a b : Nat) : Bool :=
  8 * (if b ≤ 2 * (a % b) then 2 * (a % b) - b else b - 2 * (a % b)) < b

theorem isNearMiddle_eq (num den : Nat) : isNearMiddle num den =
    isNearHalf (inUnits num den (unitExponent num den)).1
      (inUnits num den (unitExponent num den)).2 := rfl

/-- What is near the middle between two mantissas is no mantissa. -/
theorem rest_of_isNearHalf {a b : Nat} (hb : 0 < b) (h : isNearHalf a b = true) : a % b ≠ 0 := by
  intro hrest
  rw [isNearHalf, hrest, decide_eq_true_iff] at h
  split at h <;> omega

/-! ## Powers of doubles -/

/-- The infinite doubles are those at both ends of the order. -/
theorem isInfinite_iff_place (x : Float) : isInfinite x = true ↔
    place x.toModel.unpack = some (2, 0, 0) ∨ place x.toModel.unpack = some (-2, 0, 0) := by
  rw [isInfinite, parts_eq]
  rcases x.toModel.unpack with (_ | _) | _ | _ | ⟨_ | _, m, e, hm⟩ <;> simp [partsOf, place]

theorem isInfinite_of_beq (h : (x == y) = true) : isInfinite x = isInfinite y := by
  obtain ⟨a, hx, hy⟩ := (beq_iff x y).1 h
  rw [Bool.eq_iff_iff, isInfinite_iff_place, isInfinite_iff_place, hx, hy]

/-- Neither of the two doubles next to a quotient that is at most the largest double is infinite. -/
theorem isInfinite_nearestOrGuess (hnum : num ≠ 0) (hden : 0 < den)
    (hle : (num : ℚ) / den ≤ largest) :
    isInfinite (nearestOrGuess guess negative num den) = false := by
  have hpos := inUnits_pos num hden (unitExponent num den)
  unfold nearestOrGuess
  split
  · rename_i h
    rw [Bool.and_eq_true, Bool.or_eq_true, isNearMiddle_eq] at h
    obtain ⟨hmiddle, hguess | hguess⟩ := h
    · exact (isInfinite_of_beq hguess).trans
        (isInfinite_rounded_of_le hnum hden hle (near_div _ hpos))
    · exact (isInfinite_of_beq hguess).trans
        (isInfinite_rounded_of_le hnum hden hle (near_div_succ (rest_of_isNearHalf hpos hmiddle)))
  · exact isInfinite_rounded_of_le hnum hden hle (near_roundQuotient _ hpos)

theorem isInfinite_ofScaled {s : Scaled} (hs : s.mantissa ≠ 0) (hle : s.value ≤ largest) :
    isInfinite (ofScaled guess negative false s) = false := by
  have hleading := lt_of_zpow_le_largest ((Scaled.leading_spec hs).1.trans hle)
  obtain ⟨hnum, hden⟩ := Scaled.quotient_pos hs
  unfold ofScaled
  rw [if_neg Bool.false_ne_true, if_neg Bool.false_ne_true, if_neg (by omega)]
  split
  · exact isInfinite_signedZero negative
  · exact isInfinite_nearestOrGuess hnum hden ((Scaled.value_quotient s).trans_le hle)

/-- **A power is in range** if the exact power is at most the largest double. -/
theorem power_of_le {m : Nat} (hx : parts x = .finite false m e) (hm : m ≠ 0) (hn : n < twoTo 53)
    (hle : (Scaled.mk m e).value ^ n ≤ largest) : ∃ y, power x n = .ok y := by
  obtain ⟨exponent, hexponent, hk⟩ := truncate_ofInt hn
  rw [power_eq hx hm hexponent hk (Int.natCast_nonneg n)]
  split
  · exact ⟨1.0, rfl⟩
  · have hfinite : ∀ guess, isInfinite (ofScaled guess false false ((Scaled.mk m e).pow n)) =
        false := fun guess =>
      isInfinite_ofScaled (Scaled.pow_ne_zero hm n) ((Scaled.value_pow_le _ n).trans hle)
    rw [Int.natAbs_natCast]
    dsimp only
    rw [hfinite, if_neg Bool.false_ne_true]
    exact ⟨_, rfl⟩

theorem isInfinite_rounded_of_ge (round : Nat → Nat → Nat) (hnum : num ≠ 0) (hden : 0 < den)
    (hge : 2 ^ (1024 : Int) ≤ (num : ℚ) / den) :
    isInfinite (rounded round negative num den) = true := by
  have hlt := hge.trans_lt (unitExponent_spec hnum hden).1
  rw [zpow_lt_zpow_iff_right₀ one_lt_two] at hlt
  exact (isInfinite_rounded round hnum).2 (.inl (by omega))

theorem isInfinite_nearestOrGuess_of_ge (hnum : num ≠ 0) (hden : 0 < den)
    (hge : 2 ^ (1024 : Int) ≤ (num : ℚ) / den) :
    isInfinite (nearestOrGuess guess negative num den) = true := by
  unfold nearestOrGuess
  split
  · rename_i h
    rw [Bool.and_eq_true, Bool.or_eq_true] at h
    obtain ⟨-, hguess | hguess⟩ := h
    · exact (isInfinite_of_beq hguess).trans (isInfinite_rounded_of_ge _ hnum hden hge)
    · exact (isInfinite_of_beq hguess).trans (isInfinite_rounded_of_ge _ hnum hden hge)
  · exact isInfinite_rounded_of_ge _ hnum hden hge

theorem isInfinite_ofScaled_of_ge {s : Scaled} (hs : s.mantissa ≠ 0)
    (hge : 2 ^ (1024 : Int) ≤ s.value) : isInfinite (ofScaled guess negative false s) = true := by
  have hleading := hge.trans_lt (Scaled.leading_spec hs).2
  obtain ⟨hnum, hden⟩ := Scaled.quotient_pos hs
  rw [zpow_lt_zpow_iff_right₀ one_lt_two] at hleading
  unfold ofScaled
  rw [if_neg Bool.false_ne_true, if_neg Bool.false_ne_true]
  by_cases hlarge : s.leading > 1100
  · rw [if_pos hlarge]
    exact isInfinite_infinity negative
  · rw [if_neg hlarge, if_neg (by omega)]
    exact isInfinite_nearestOrGuess_of_ge hnum hden (hge.trans_eq (Scaled.value_quotient s).symm)

/-- A power that is computed exactly is out of range if it is beyond all doubles. -/
theorem power_of_ge {m : Nat} (hx : parts x = .finite false m e) (hm : m ≠ 0) (hn : n ≤ 1100)
    (hge : 2 ^ (1024 : Int) ≤ (Scaled.mk m e).value ^ n) : power x n = .error .powerTooLarge := by
  obtain ⟨exponent, hexponent, hk⟩ :=
    truncate_ofInt (n := n) (Nat.lt_of_le_of_lt hn (by decide +kernel))
  rw [power_eq hx hm hexponent hk (Int.natCast_nonneg n)]
  have hn0 : (n : Int) ≠ 0 := by
    intro h0
    rw [Int.natCast_eq_zero.1 h0, pow_zero] at hge
    exact absurd hge (not_le.2 (one_lt_zpow₀ one_lt_two (by decide)))
  rw [if_neg hn0, Int.natAbs_natCast]
  dsimp only
  rw [if_pos
    (isInfinite_ofScaled_of_ge (Scaled.pow_ne_zero hm n)
      (hge.trans_eq (Scaled.value_pow _ hn).symm))]

/-- The mantissa and the value of a finite double that is at least one. -/
theorem one_le_value {m : Nat} (hx : parts x = .finite false m e) (hone : 1.0 ≤ x) :
    m ≠ 0 ∧ 1 ≤ (Scaled.mk m e).value := by
  have hfinite : isInfinite x = false := by rw [isInfinite, hx]
  obtain ⟨m', e', hparts, hm, hleast⟩ := parts_of_one_le hone hfinite
  obtain ⟨-, rfl, rfl⟩ := Parts.finite.inj (hx.symm.trans hparts)
  refine ⟨hm, ?_⟩
  have hfull : twoTo 52 ≤ m := by
    rcases (fits_of_parts hx).1.full with h | h
    · exact h
    · omega
  have hcast : (2 : ℚ) ^ 52 ≤ m := by
    rw [← cast_twoTo]
    exact_mod_cast hfull
  unfold Scaled.value
  calc (1 : ℚ) = 2 ^ 52 * 2 ^ (-52 : Int) := by norm_num
    _ ≤ m * 2 ^ e := by
      gcongr
      · exact one_le_two
      · omega

end UtilityCss.Binary64
