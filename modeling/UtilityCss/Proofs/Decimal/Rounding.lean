import UtilityCss.Proofs.Decimal.Canonical
/-!
# Rounding to doubles

A result is rounded by shifting its mantissa to the right until it has 53 bits, or until the least
exponent is reached, and by adding one where more than half a unit is lost by that, or half a unit
from an odd mantissa. So the mantissa is that of the result or the next, and rounding does not pass
a mantissa that the result does not pass. What comes out is canonical.
-/

namespace UtilityCss.Binary64
open Float.Model
open UnpackedFloat (Sign Accuracy ExtendedMantissa)

variable {s : Sign} {m M n : Nat} {e : Int} {acc : Accuracy} {em : ExtendedMantissa}

/-! ## Shifting -/

theorem mantissa_shiftRight (em : ExtendedMantissa) (n : Nat) :
    (em >>> n).mantissa = em.mantissa / twoTo n := by
  induction n with
  | zero => exact (Nat.div_one _).symm
  | succ n ih =>
    show (em >>> n).mantissa / 2 = _
    rw [ih, Nat.div_div_eq_div_mul]
    rfl

/-- Nothing is left behind the mantissa. -/
def IsExact (em : ExtendedMantissa) : Prop := em.roundBit = false ∧ em.stickyBit = false

theorem isExact_shiftRight (h : IsExact em) (hdvd : twoTo n ∣ em.mantissa) :
    IsExact (em >>> n) := by
  induction n with
  | zero => exact h
  | succ n ih =>
    obtain ⟨hround, hsticky⟩ := ih (Nat.dvd_trans ⟨2, rfl⟩ hdvd)
    constructor
    · have heven : em.mantissa / twoTo n % 2 = 0 := by
        obtain ⟨k, hk⟩ := hdvd
        rw [hk, twoTo_succ, Nat.mul_assoc, Nat.mul_div_cancel_left _ (twoTo_pos n),
          Nat.mul_mod_right]
      show ((em >>> n).mantissa % 2 != 0) = false
      rw [mantissa_shiftRight, heven]
      rfl
    · show ((em >>> n).roundBit || (em >>> n).stickyBit) = false
      rw [hround, hsticky]
      rfl

/-! ## Rounding -/

theorem roundedMantissa_of_isExact (h : IsExact em) : em.roundedMantissa = em.mantissa := by
  obtain ⟨m, _, _⟩ := em
  obtain ⟨rfl, rfl⟩ := h
  rfl

theorem le_roundedMantissa (em : ExtendedMantissa) : em.mantissa ≤ em.roundedMantissa := by
  obtain ⟨m, _ | _, _ | _⟩ := em
  · exact Nat.le_refl m
  · exact Nat.le_refl m
  · exact Nat.le_add_right m _
  · exact Nat.le_succ m

theorem roundedMantissa_le (em : ExtendedMantissa) : em.roundedMantissa ≤ em.mantissa + 1 := by
  obtain ⟨m, _ | _, _ | _⟩ := em
  · exact Nat.le_succ m
  · exact Nat.le_succ m
  · show m + m % 2 ≤ m + 1
    omega
  · exact Nat.le_refl _

/-- The mantissa that is left of `m` and what follows it after a shift. -/
def shifted (m : Nat) (acc : Accuracy) (n : Nat) : Nat :=
  (ExtendedMantissa.ofMantissaAndAccuracy m acc >>> n).roundedMantissa

theorem div_le_shifted : m / twoTo n ≤ shifted m acc n := by
  refine Nat.le_trans (Nat.le_of_eq ?_) (le_roundedMantissa _)
  rw [mantissa_shiftRight]
  cases acc with
  | exact => rfl
  | inexact o => cases o <;> rfl

/-- Rounding does not pass a natural number. -/
theorem shifted_le (h : m < M * twoTo n ∨ m = M * twoTo n ∧ acc = .exact) :
    shifted m acc n ≤ M := by
  rcases h with h | ⟨rfl, rfl⟩
  · have hlt : m / twoTo n < M := (Nat.div_lt_iff_lt_mul (twoTo_pos n)).2 h
    refine Nat.le_trans (roundedMantissa_le _) ?_
    rw [mantissa_shiftRight]
    have hmantissa : (ExtendedMantissa.ofMantissaAndAccuracy m acc).mantissa = m := by
      cases acc with
      | exact => rfl
      | inexact o => cases o <;> rfl
    rw [hmantissa]
    exact hlt
  · have hexact : IsExact (ExtendedMantissa.ofMantissaAndAccuracy (M * twoTo n) .exact >>> n) :=
      isExact_shiftRight ⟨rfl, rfl⟩ (Nat.dvd_mul_left _ _)
    rw [shifted, roundedMantissa_of_isExact hexact, mantissa_shiftRight]
    exact Nat.le_of_eq (Nat.mul_div_cancel _ (twoTo_pos n))

/-- The exponent for a mantissa and an exponent that are to be rounded. -/
def target (m : Nat) (e : Int) : Int := max (m.log2 + 1 + e - 53) (-1074)

theorem targetExponent_eq : Format.binary64.targetExponent (totalExponent m e) = target m e := rfl

/-- What rounding to a mantissa of at most 53 bits gives. A mantissa may get one bit more by that,
which is zero. -/
def settled (s : Sign) (m : Nat) (e : Int) : UnpackedFloat :=
  if h : m = 0 then .zero s
  else if m = twoTo 53 then .finite s (twoTo 52) (e + 1) (twoTo_pos 52)
  else .finite s m e (Nat.pos_of_ne_zero h)

/-- A mantissa that is shifted to its target has at most 53 bits, or is one more. -/
theorem shifted_le_twoTo : shifted m acc (target m e - e).toNat ≤ twoTo 53 := by
  refine shifted_le (.inl (Nat.lt_of_lt_of_le (lt_twoTo_log2 m) ?_))
  rw [← twoTo_add]
  refine twoTo_le_twoTo ?_
  unfold target
  omega

/-- Above the least exponent a mantissa that is shifted to its target keeps 53 bits. -/
theorem twoTo_le_shifted (h : e ≤ target m e) (hleast : -1074 < target m e) :
    twoTo 52 ≤ shifted m acc (target m e - e).toNat := by
  have hm : m ≠ 0 := by
    rintro rfl
    simp only [target, show (0 : Nat).log2 = 0 from rfl] at h hleast
    omega
  refine Nat.le_trans ?_ div_le_shifted
  rw [Nat.le_div_iff_mul_le (twoTo_pos _), ← twoTo_add, ← le_log2_iff hm]
  unfold target at *
  omega

/-- A settled mantissa is shifted no more. -/
theorem shift_settled {r : Nat} {t : Int} (hr : r ≤ twoTo 53) (ht : -1074 ≤ t) :
    (ExtendedMantissa.ofMantissaAndAccuracy r .exact >>> (target r t - t).toNat).mantissa =
      (if r = twoTo 53 then twoTo 52 else r) ∧
    t + (target r t - t).toNat = if r = twoTo 53 then t + 1 else t := by
  rw [mantissa_shiftRight]
  by_cases h : r = twoTo 53
  · subst h
    have hlog : (twoTo 53).log2 = 53 := by decide +kernel
    have htarget : target (twoTo 53) t = t + 1 := by
      unfold target
      rw [hlog]
      omega
    have hshift : (t + 1 - t).toNat = 1 := by omega
    rw [if_pos rfl, if_pos rfl, htarget, hshift]
    exact ⟨by decide +kernel, rfl⟩
  · have hlog : r.log2 < 53 := by
      by_cases h0 : r = 0
      · subst h0
        decide
      · exact (log2_lt_iff h0).2 (Nat.lt_of_le_of_ne hr h)
    have hshift : (target r t - t).toNat = 0 := by
      unfold target
      omega
    rw [if_neg h, if_neg h, hshift]
    exact ⟨Nat.div_one r, Int.add_zero t⟩

theorem roundWithAccuracy_eq (h : e ≤ target m e) :
    UnpackedFloat.roundWithAccuracy .binary64 s m e acc =
    settled s (shifted m acc (target m e - e).toNat) (target m e) := by
  have hfirst : e + (target m e - e).toNat = target m e := by omega
  have hleast : -1074 ≤ target m e := by unfold target; omega
  have hr : shifted m acc (target m e - e).toNat ≤ twoTo 53 := shifted_le_twoTo
  obtain ⟨hmantissa, hexponent⟩ := shift_settled hr hleast
  unfold UnpackedFloat.roundWithAccuracy UnpackedFloat.shiftToTargetExponent
  simp only [targetExponent_eq, UnpackedFloat.shiftToExponent, hfirst, ← shifted.eq_def, hmantissa,
    hexponent]
  unfold settled
  by_cases h53 : shifted m acc (target m e - e).toNat = twoTo 53
  · simp only [h53, if_true, Nat.ne_of_gt (twoTo_pos _), dite_false]
  · simp only [if_neg h53]

theorem canonical_settled {r : Nat} {t : Int} (hr : r ≤ twoTo 53) (ht : -1074 ≤ t)
    (hfull : -1074 < t → twoTo 52 ≤ r) : Canonical (settled s r t) := by
  unfold settled
  split
  · trivial
  · split
    · exact ⟨by decide +kernel, by omega, .inl (Nat.le_refl _)⟩
    · refine ⟨Nat.lt_of_le_of_ne hr ‹_›, ht, ?_⟩
      by_cases h : -1074 < t
      · exact .inl (hfull h)
      · exact .inr (by omega)

theorem canonical_roundWithAccuracy (h : e ≤ target m e) :
    Canonical (UnpackedFloat.roundWithAccuracy .binary64 s m e acc) := by
  rw [roundWithAccuracy_eq h]
  exact canonical_settled shifted_le_twoTo (by unfold target; omega) (twoTo_le_shifted h)

theorem settled_eq_finite {r : Nat} {t : Int} (hr : r ≠ 0) :
    ∃ m e, ∃ hm : 0 < m, settled s r t = .finite s m e hm := by
  unfold settled
  rw [dif_neg hr]
  split
  · exact ⟨twoTo 52, t + 1, twoTo_pos 52, rfl⟩
  · exact ⟨r, t, Nat.pos_of_ne_zero hr, rfl⟩

/-- What is rounded to a mantissa other than zero is finite. -/
theorem roundWithAccuracy_eq_finite (h : e ≤ target m e)
    (hr : shifted m acc (target m e - e).toNat ≠ 0) : ∃ m' e', ∃ hm' : 0 < m', Fits m' e' ∧
      UnpackedFloat.roundWithAccuracy .binary64 s m e acc = .finite s m' e' hm' := by
  have hcanonical : Canonical (UnpackedFloat.roundWithAccuracy .binary64 s m e acc) :=
    canonical_roundWithAccuracy h
  rw [roundWithAccuracy_eq h] at hcanonical ⊢
  obtain ⟨m', e', hm', heq⟩ := settled_eq_finite (s := s) (t := target m e) hr
  rw [heq] at hcanonical ⊢
  exact ⟨m', e', hm', hcanonical, rfl⟩

/-- Rounding a number that is not below the least double gives a double other than zero. -/
theorem round_eq_finite (hm : m ≠ 0) (he : -1074 ≤ e) : ∃ m' e', ∃ hm' : 0 < m', Fits m' e' ∧
    UnpackedFloat.round .binary64 s m e = .finite s m' e' hm' := by
  -- The exponent is lowered to its target first, so bits are lost only above the least exponent.
  obtain ⟨k, hk⟩ : ∃ k, (e - target m e).toNat = k := ⟨_, rfl⟩
  have htarget : target (m * twoTo k) (e - k) = target m e := by
    rw [target, log2_mul_twoTo hm, target]
    omega
  have hround : UnpackedFloat.round .binary64 s m e =
      UnpackedFloat.roundWithAccuracy .binary64 s (m * twoTo k) (e - k) .exact := by
    rw [← shiftLeft_eq, ← hk]
    rfl
  rw [hround]
  have hne : m * twoTo k ≠ 0 := Nat.mul_ne_zero hm (Nat.ne_of_gt (twoTo_pos k))
  have hle : e - k ≤ target (m * twoTo k) (e - k) := by omega
  refine roundWithAccuracy_eq_finite hle ?_
  by_cases hleast : -1074 < target m e
  · have hfull := @twoTo_le_shifted _ _ .exact hle (htarget ▸ hleast)
    exact Nat.ne_of_gt (Nat.lt_of_lt_of_le (twoTo_pos 52) hfull)
  · have hshift : (target (m * twoTo k) (e - k) - (e - k)).toNat = 0 := by
      unfold target at *
      omega
    have hkeep : m * twoTo k / twoTo 0 ≤ shifted (m * twoTo k) .exact 0 := div_le_shifted
    rw [hshift]
    rw [show twoTo 0 = 1 from rfl, Nat.div_one] at hkeep
    omega

end UtilityCss.Binary64
