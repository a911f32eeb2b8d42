import UtilityCss.Proofs.Answers
import UtilityCss.Proofs.Decimal.Arithmetic
import UtilityCss.Scheduler.Delay
/-!
# Delays as doubles

The delay before a retry is made of an integer, a power and a number of thousandths. Here is what
these are if nothing is below zero: integers and the powers of a number that is at least one are not
below zero where they are in range at all, and what is at most 60000 thousandths is at most 60.
-/

namespace UtilityCss.Binary64

open Float.Model
open UnpackedFloat (Sign)

variable {m : Nat} {e : Int} {x y : Float}

/-! ## Thousandths -/

theorem unpack_thousand : (1000.0 : Float).toModel.unpack =
    .finite .positive (1000 * twoTo 43) (-43) (by decide) := rfl

theorem unpack_sixty :
    (60.0 : Float).toModel.unpack = .finite .positive (60 * twoTo 47) (-47) (by decide) := rfl

theorem intLt_of_parts {i : Int} (hx : parts x = .finite false m e) : intLt i x =
    if e ≥ 0 then decide (i < (m : Int) * twoTo e.toNat)
      else decide (i * twoTo (-e).toNat < m) := by
  rw [intLt, hx]
  rfl

theorem le_of_intLt {i : Nat} (hx : parts x = .finite false m e) (hle : intLt i x = false) :
    m * twoTo e.toNat ≤ i * twoTo (-e).toNat := by
  rw [intLt_of_parts hx] at hle
  split at hle
  · have hzero : (-e).toNat = 0 := by omega
    rw [decide_eq_false_iff_not, Int.not_lt] at hle
    rw [hzero, show twoTo 0 = 1 from rfl, Nat.mul_one]
    exact_mod_cast hle
  · have hzero : e.toNat = 0 := by omega
    rw [decide_eq_false_iff_not, Int.not_lt] at hle
    rw [hzero, show twoTo 0 = 1 from rfl, Nat.mul_one]
    exact_mod_cast hle

theorem parts_finite {hm : 0 < m} (hx : x.toModel.unpack = .finite .positive m e hm) :
    parts x = .finite false m e := by
  rw [parts_eq, hx]
  rfl

/-- A number that is not below zero, and not above some integer, is no infinity. -/
theorem isMagnitude_of_intLt {i : Int} (hzero : 0.0 ≤ x) (hle : intLt i x = false) :
    IsMagnitude x := by
  rcases (zero_le_iff x).1 hzero with h | h
  · exact h
  · rw [intLt, parts_eq, h] at hle
    contradiction

/-- A number of thousandths that is at most 60000 makes a number that is at most 60. -/
theorem div_thousand_le (hx : IsMagnitude x) (hle : intLt 60000 x = false) : x / 1000.0 ≤ 60.0 := by
  refine div_le (k := 47) hx (by decide) ⟨by decide, by decide, .inl (by decide)⟩
    unpack_thousand unpack_sixty ?_
  intro m e hm hu
  have hsum : (e - -43).toNat + (-e).toNat = e.toNat + (43 + (-43 - e).toNat) := by omega
  refine Nat.le_of_mul_le_mul_right ?_ (twoTo_pos (-e).toNat)
  calc m * twoTo (e - -43).toNat * twoTo (-e).toNat
      = m * twoTo e.toNat * (twoTo 43 * twoTo (-43 - e).toNat) := by
        rw [Nat.mul_assoc, ← twoTo_add, hsum, twoTo_add, twoTo_add, Nat.mul_assoc]
    _ ≤ 60000 * twoTo (-e).toNat * (twoTo 43 * twoTo (-43 - e).toNat) :=
        Nat.mul_le_mul_right _ (le_of_intLt (parts_finite hu) hle)
    _ = 60 * (1000 * twoTo 43) * twoTo (-43 - e).toNat * twoTo (-e).toNat := by
        rw [Nat.mul_right_comm, ← Nat.mul_assoc, ← Nat.mul_assoc 60]

/-! ## Conversions and powers -/

theorem zero_le_of_parts (h : parts x = .finite false m e) : 0.0 ≤ x := by
  rw [zero_le_iff]
  rw [parts_eq] at h
  generalize x.toModel.unpack = u at h
  rcases u with _ | _ | _ | ⟨_ | _, m, e, hm⟩ <;> first | exact .inl rfl | cases h

theorem zero_le_ofFields {magnitude : Nat} (h : magnitude < 2047 * twoTo 52) :
    0.0 ≤ ofFields false magnitude := by
  obtain ⟨m, e, hparts⟩ := exists_parts_ofFields h false
  exact zero_le_of_parts hparts

theorem zero_le_infinity : 0.0 ≤ infinity false := by decide +kernel
theorem zero_le_signedZero : 0.0 ≤ signedZero false := by decide +kernel

theorem zero_le_ofMagnitude (magnitude : Nat) :
    0.0 ≤ if magnitude ≥ 2047 * twoTo 52 then infinity false else ofFields false magnitude := by
  by_cases h : magnitude ≥ 2047 * twoTo 52
  · rw [if_pos h]
    exact zero_le_infinity
  · rw [if_neg h]
    exact zero_le_ofFields (Nat.lt_of_not_le h)

theorem zero_le_rounded (round : Nat → Nat → Nat) (num den : Nat) :
    0.0 ≤ rounded round false num den := by
  by_cases hzero : num = 0
  · rw [rounded, if_pos hzero]
    exact zero_le_signedZero
  · by_cases hlarge : unitExponent num den > 971
    · rw [rounded, if_neg hzero, if_pos hlarge]
      exact zero_le_infinity
    · rw [rounded, if_neg hzero, if_neg hlarge]
      exact zero_le_ofMagnitude _

theorem zero_le_of_beq (h : (x == y) = true) (hy : 0.0 ≤ y) : 0.0 ≤ x := by
  obtain ⟨a, hx, hy'⟩ := (beq_iff x y).1 h
  rw [le_iff] at hy ⊢
  rwa [hx, ← hy']

theorem zero_le_nearestOrGuess (guess : Float) (num den : Nat) :
    0.0 ≤ nearestOrGuess guess false num den := by
  unfold nearestOrGuess
  split
  · rename_i h
    rw [Bool.and_eq_true, Bool.or_eq_true] at h
    rcases h.2 with h | h
    · exact zero_le_of_beq h (zero_le_rounded _ _ _)
    · exact zero_le_of_beq h (zero_le_rounded _ _ _)
  · exact zero_le_rounded _ _ _

theorem zero_le_ofScaled (guess : Float) (inverted : Bool) (s : Scaled) :
    0.0 ≤ ofScaled guess false inverted s := by
  unfold ofScaled
  generalize (if inverted then -s.leading else s.leading) = leading
  by_cases hhigh : leading > 1100
  · rw [if_pos hhigh]
    exact zero_le_infinity
  · by_cases hlow : leading < -1200
    · rw [if_neg hhigh, if_pos hlow]
      exact zero_le_signedZero
    · rw [if_neg hhigh, if_neg hlow]
      exact zero_le_nearestOrGuess _ _ _

theorem ofInt_magnitude {i : Int} (hi : 0 ≤ i) (h : ofInt i = .ok x) : IsMagnitude x := by
  have hsign : decide (i < 0) = false := decide_eq_false (by omega)
  unfold ofInt at h
  rw [hsign] at h
  dsimp only at h
  by_cases hinfinite : isInfinite (nearest false i.natAbs 1) = true
  · rw [if_pos hinfinite] at h
    contradiction
  · rw [if_neg hinfinite] at h
    obtain rfl := Except.ok.inj h
    exact (isMagnitude_iff _).2 ⟨zero_le_rounded _ _ _, Bool.eq_false_iff.2 hinfinite⟩

theorem unpack_one :
    (1.0 : Float).toModel.unpack = .finite .positive (twoTo 52) (-52) (by decide) := rfl

/-- A finite number that is at least one has a mantissa other than zero, no minus sign, and at least
the exponent of one. -/
theorem parts_of_one_le (hx : 1.0 ≤ x) (hfinite : isInfinite x = false) :
    ∃ m e, parts x = .finite false m e ∧ m ≠ 0 ∧ (-52 < e ∨ e = -52 ∧ twoTo 52 ≤ m) := by
  rw [le_iff, unpack_one] at hx
  rw [isInfinite] at hfinite
  have hparts := parts_eq x
  generalize x.toModel.unpack = u at hx hparts
  rcases u with (_ | _) | _ | _ | ⟨_ | _, m, e, hm⟩
  case finite.positive =>
    obtain ⟨a, b, ha, hb, hab⟩ := hx
    obtain rfl := Option.some.inj ha
    obtain rfl := Option.some.inj hb
    refine ⟨m, e, hparts, Nat.ne_of_gt hm, ?_⟩
    simp only [Precedes, Prod.mk.injEq] at hab
    omega
  all_goals first
    | (rw [hparts] at hfinite; contradiction)
    | (simp [place, Precedes] at hx)

theorem truncate_nonneg {i : Int} (hx : IsMagnitude x) (h : truncate x = .ok i) : 0 ≤ i := by
  unfold IsMagnitude at hx
  rw [truncate, parts_eq] at h
  generalize x.toModel.unpack = u at hx h
  rcases u with _ | _ | (_ | _) | ⟨_ | _, m, e, hm⟩ <;> try contradiction
  · obtain rfl := Except.ok.inj h
    decide +kernel
  · obtain rfl := Except.ok.inj h
    decide +kernel
  · obtain rfl := Except.ok.inj h
    exact Int.natCast_nonneg _

/-- A power of a number above zero, once its exponent has been taken as a double. -/
theorem power_eq {n k : Int} {exponent : Float} (hx : parts x = .finite false m e) (hm : m ≠ 0)
    (hexponent : ofInt n = .ok exponent) (hk : truncate exponent = .ok k) (hk0 : 0 ≤ k) :
    power x n = if k = 0 then .ok 1.0
      else
        let y := ofScaled (x.pow exponent) false false ((Scaled.mk m e).pow k.natAbs)
        if isInfinite y then .error .powerTooLarge else .ok y := by
  have hneg : decide (k < 0) = false := decide_eq_false (by omega)
  unfold power
  rw [hexponent]
  show (truncate exponent >>= _) = _
  rw [hk]
  simp only [bind, Except.bind, hx, hm, hneg, Bool.false_and, if_false]
  rfl

/-- The powers of a finite number that is at least one. -/
theorem power_magnitude {n : Int} (hx : 1.0 ≤ x) (hfinite : isInfinite x = false) (hn : 0 ≤ n)
    (h : power x n = .ok y) : IsMagnitude y := by
  obtain ⟨m, e, hparts, hm, -⟩ := parts_of_one_le hx hfinite
  obtain ⟨exponent, hexponent, h'⟩ := bind_eq_ok.1 h
  obtain ⟨k, hk, -⟩ := bind_eq_ok.1 h'
  rw [power_eq hparts hm hexponent hk (truncate_nonneg (ofInt_magnitude hn hexponent) hk)] at h
  by_cases hk0 : k = 0
  · rw [if_pos hk0] at h
    obtain rfl := Except.ok.inj h
    exact rfl
  · rw [if_neg hk0] at h
    dsimp only at h
    split at h
    · contradiction
    · obtain rfl := Except.ok.inj h
      exact (isMagnitude_iff _).2 ⟨zero_le_ofScaled _ _ _, Bool.eq_false_iff.2 ‹_›⟩

end UtilityCss.Binary64
