import UtilityCss.Proofs.Decimal.Rounding
/-!
# Arithmetic on doubles

What the schedule of a session relies on: a difference is above zero exactly if its parts differ in
that direction, products and quotients of numbers without a sign have no sign, and a quotient is not
rounded beyond a bound that it keeps.
-/

namespace UtilityCss.Binary64
open Float.Model
open UnpackedFloat (Sign Accuracy)

variable {s : Sign} {m m' n : Nat} {e e' : Int} {x y z : Float} {u v : UnpackedFloat}
  {acc : Accuracy}

theorem unpack_zero : (0.0 : Float).toModel.unpack = .zero .positive := rfl

theorem canonical_unpack (x : Float) : Canonical x.toModel.unpack := by
  cases h : x.toModel.unpack with
  | finite s m e hm => exact (fits_of_unpack h).1
  | _ => trivial

/-! ## Sums and differences -/

/-- Whether an unpacked double is above zero. -/
def isPositive : UnpackedFloat → Bool
  | .infinity .positive | .finite .positive _ _ _ => true
  | _ => false

theorem isPositive_clamp (u : UnpackedFloat) : isPositive (clamp u) = isPositive u := by
  rcases u with _ | _ | _ | ⟨s, m, e, hm⟩
  case finite =>
    show isPositive (if 971 < e then .infinity s else .finite s m e hm) = _
    split <;> cases s <;> rfl
  all_goals rfl

theorem zero_lt_iff (x : Float) : 0.0 < x ↔ isPositive x.toModel.unpack = true := by
  rw [lt_iff, unpack_zero]
  rcases x.toModel.unpack with (_ | _) | _ | _ | ⟨_ | _, m, e, hm⟩ <;>
    simp [place, Precedes, isPositive]

/-- A greater exponent makes a greater number, whatever the mantissas are. -/
theorem lt_mul_twoTo_of_fits (h : Fits m e) (h' : Fits m' e') (hlt : e < e') :
    m < m' * twoTo (e' - e).toNat := by
  have hfull : twoTo 52 ≤ m' := h'.full.resolve_right (by have := h.least; omega)
  calc m < twoTo 53 := h.lt
    _ = twoTo 52 * twoTo 1 := rfl
    _ ≤ m' * twoTo (e' - e).toNat := Nat.mul_le_mul hfull (twoTo_le_twoTo (by omega))

theorem aligned_lt_iff (h : Fits m e) (h' : Fits m' e') :
    m * twoTo (e - min e e').toNat < m' * twoTo (e' - min e e').toNat ↔
      e < e' ∨ e = e' ∧ m < m' := by
  rcases Int.lt_trichotomy e e' with hlt | rfl | hlt
  · have hmin : min e e' = e := by omega
    have hless := lt_mul_twoTo_of_fits h h' hlt
    rw [hmin, Int.sub_self]
    exact iff_of_true (by rwa [show twoTo (0 : Int).toNat = 1 from rfl, Nat.mul_one]) (.inl hlt)
  · have hmin : min e e = e := by omega
    rw [hmin, Int.sub_self, show twoTo (0 : Int).toNat = 1 from rfl, Nat.mul_one, Nat.mul_one]
    omega
  · have hmin : min e e' = e' := by omega
    have hless := lt_mul_twoTo_of_fits h' h hlt
    rw [hmin, Int.sub_self, show twoTo (0 : Int).toNat = 1 from rfl, Nat.mul_one]
    omega

theorem normalize_spec {n : Int} (he : -1074 ≤ e) :
    Canonical (UnpackedFloat.normalize .binary64 n e .positive) ∧
      (isPositive (UnpackedFloat.normalize .binary64 n e .positive) = true ↔ 0 < n) := by
  unfold UnpackedFloat.normalize
  cases hn : compare n 0 with
  | lt =>
    rw [Int.compare_eq_lt] at hn
    obtain ⟨m, e, hm, hfits, heq⟩ :=
      round_eq_finite (s := .negative) (m := (-n).toNat) (by omega) he
    simp only [heq]
    exact ⟨hfits, iff_of_false Bool.false_ne_true (by omega)⟩
  | eq =>
    rw [Int.compare_eq_eq] at hn
    exact ⟨trivial, iff_of_false Bool.false_ne_true (by omega)⟩
  | gt =>
    rw [Int.compare_eq_gt] at hn
    obtain ⟨m, e, hm, hfits, heq⟩ := round_eq_finite (s := .positive) (m := n.toNat) (by omega) he
    simp only [heq]
    exact ⟨hfits, iff_of_true rfl (by omega)⟩

theorem sub_finite_spec {s t : Sign} (hm : 0 < m) (hm' : 0 < m') (h : Fits m e) (h' : Fits m' e') :
    Canonical (UnpackedFloat.sub .binary64 (.finite s m e hm) (.finite t m' e' hm')) ∧
    (isPositive (UnpackedFloat.sub .binary64 (.finite s m e hm) (.finite t m' e' hm')) = true ↔
      ∃ a b, place (.finite t m' e' hm') = some a ∧ place (.finite s m e hm) = some b ∧
        Precedes a b) := by
  have hsub : UnpackedFloat.sub .binary64 (.finite s m e hm) (.finite t m' e' hm') =
      UnpackedFloat.normalize .binary64 (s.apply ↑(m * twoTo (e - min e e').toNat) -
        t.apply ↑(m' * twoTo (e' - min e e').toNat)) (min e e') .positive := by
    rw [← shiftLeft_eq, ← shiftLeft_eq]
    rfl
  have hless := aligned_lt_iff h h'
  have hgreater := aligned_lt_iff h' h
  rw [Int.min_comm e' e] at hgreater
  have hpos : 0 < m * twoTo (e - min e e').toNat := Nat.mul_pos hm (twoTo_pos _)
  have hpos' : 0 < m' * twoTo (e' - min e e').toNat := Nat.mul_pos hm' (twoTo_pos _)
  have hleast := h.least
  have hleast' := h'.least
  obtain ⟨hcanonical, hiff⟩ :=
    normalize_spec (e := min e e') (n := s.apply ↑(m * twoTo (e - min e e').toNat) -
      t.apply ↑(m' * twoTo (e' - min e e').toNat)) (by omega)
  rw [hsub]
  refine ⟨hcanonical, hiff.trans ?_⟩
  generalize m * twoTo (e - min e e').toNat = k at *
  generalize m' * twoTo (e' - min e e').toNat = k' at *
  rcases s with _ | _ <;> rcases t with _ | _ <;>
    simp [Sign.apply, place, Precedes] <;> omega

theorem sub_spec (hu : Canonical u) (hv : Canonical v) :
    Canonical (UnpackedFloat.sub .binary64 u v) ∧
    (isPositive (UnpackedFloat.sub .binary64 u v) = true ↔
      ∃ a b, place v = some a ∧ place u = some b ∧ Precedes a b) := by
  -- Kinds and signs decide, except between two finite doubles.
  rcases u with (_ | _) | _ | (_ | _) | ⟨_ | _, m, e, hm⟩ <;>
    rcases v with (_ | _) | _ | (_ | _) | ⟨_ | _, m', e', hm'⟩ <;>
      first
      | exact sub_finite_spec hm hm' hu hv
      | refine ⟨by trivial, ?_⟩
        simp [UnpackedFloat.sub, isPositive, place, Precedes]
        try rfl

/-- A difference is above zero if its second part is below the first. -/
theorem zero_lt_sub_iff (x y : Float) : 0.0 < y - x ↔ x < y := by
  have hsub : (y - x).toModel.unpack =
      clamp (UnpackedFloat.sub .binary64 y.toModel.unpack x.toModel.unpack) :=
    unpack_pack_model (sub_spec (canonical_unpack y) (canonical_unpack x)).1
  rw [zero_lt_iff, hsub, isPositive_clamp, (sub_spec (canonical_unpack y) (canonical_unpack x)).2,
    lt_iff]

/-! ## Products and quotients -/

/-- Whether an unpacked double is not below zero, and finite but for its size. -/
def isUnsigned : UnpackedFloat → Bool
  | .zero _ | .finite .positive _ _ _ => true
  | _ => false

theorem zero_le_iff (x : Float) :
    0.0 ≤ x ↔ isUnsigned x.toModel.unpack = true ∨ x.toModel.unpack = .infinity .positive := by
  rw [le_iff, unpack_zero]
  rcases x.toModel.unpack with (_ | _) | _ | _ | ⟨_ | _, m, e, hm⟩ <;>
    simp [place, Precedes, isUnsigned]

/-- A double that is finite and not below zero. -/
def IsMagnitude (x : Float) : Prop := isUnsigned x.toModel.unpack = true

theorem isMagnitude_iff (x : Float) : IsMagnitude x ↔ 0.0 ≤ x ∧ isInfinite x = false := by
  rw [zero_le_iff, isInfinite, parts_eq, IsMagnitude]
  rcases x.toModel.unpack with (_ | _) | _ | _ | ⟨_ | _, m, e, hm⟩ <;> simp [partsOf, isUnsigned]

/-- What is made of an unsigned number by packing is not below zero. -/
theorem zero_le_of_clamp (hu : isUnsigned u = true) (hx : x.toModel.unpack = clamp u) :
    0.0 ≤ x := by
  rw [zero_le_iff, hx]
  rcases u with _ | _ | _ | ⟨_ | _, m, e, hm⟩ <;> try contradiction
  · exact .inl rfl
  · show isUnsigned (if 971 < e then _ else _) = true ∨ (if 971 < e then _ else _) = _
    split
    · exact .inr rfl
    · exact .inl rfl

theorem isUnsigned_roundWithAccuracy (h : e ≤ target m e) :
    isUnsigned (UnpackedFloat.roundWithAccuracy .binary64 .positive m e acc) = true := by
  rw [roundWithAccuracy_eq h]
  unfold settled
  split
  · rfl
  · split <;> rfl

theorem mul_target (hm : 0 < m) (hm' : 0 < m') (h : Fits m e) (h' : Fits m' e') :
    e + e' ≤ target (m * m') (e + e') := by
  have hne : m * m' ≠ 0 := Nat.mul_ne_zero (Nat.ne_of_gt hm) (Nat.ne_of_gt hm')
  unfold target
  rcases h.full with hfull | hleast
  · have hlog : 52 ≤ (m * m').log2 :=
      (le_log2_iff hne).2 (Nat.le_trans hfull (Nat.le_mul_of_pos_right m hm'))
    omega
  · rcases h'.full with hfull | hleast'
    · have hlog : 52 ≤ (m * m').log2 :=
        (le_log2_iff hne).2 (Nat.le_trans hfull (Nat.le_mul_of_pos_left m' hm))
      omega
    · omega

theorem mul_spec (hu : Canonical u) (hv : Canonical v) (hu' : isUnsigned u = true)
    (hv' : isUnsigned v = true) :
    Canonical (UnpackedFloat.mul .binary64 u v) ∧
      isUnsigned (UnpackedFloat.mul .binary64 u v) = true := by
  rcases u with _ | _ | _ | ⟨_ | _, m, e, hm⟩ <;> try contradiction
  all_goals rcases v with _ | _ | _ | ⟨_ | _, m', e', hm'⟩ <;> try contradiction
  case finite.positive.finite.positive =>
    have htarget := mul_target hm hm' hu hv
    exact ⟨canonical_roundWithAccuracy htarget, isUnsigned_roundWithAccuracy htarget⟩
  all_goals exact ⟨trivial, rfl⟩

theorem zero_le_mul (hx : IsMagnitude x) (hy : IsMagnitude y) : 0.0 ≤ x * y := by
  obtain ⟨hcanonical, hunsigned⟩ := mul_spec (canonical_unpack x) (canonical_unpack y) hx hy
  exact zero_le_of_clamp hunsigned (unpack_pack_model hcanonical)

/-- The exponent that the quotient of two mantissas is computed for. -/
def quotientExponent (m : Nat) (e : Int) (m' : Nat) (e' : Int) : Int :=
  min (e - e') (max (totalExponent m e - totalExponent m' e' - 53) (-1074))

/-- The dividend of that quotient. -/
def dividend (m : Nat) (e : Int) (m' : Nat) (e' : Int) : Nat :=
  m * twoTo (e - e' - quotientExponent m e m' e').toNat

theorem div_finite_eq (hm : 0 < m) (hm' : 0 < m') :
    UnpackedFloat.div .binary64 (.finite .positive m e hm) (.finite .positive m' e' hm') =
      UnpackedFloat.roundWithAccuracy .binary64 .positive (dividend m e m' e' / m')
        (quotientExponent m e m' e')
          (UnpackedFloat.accuracyOfFraction (dividend m e m' e' % m') m') := by
  rw [dividend, ← shiftLeft_eq]
  rfl

theorem div_target (hm : 0 < m) (hm' : 0 < m') :
    quotientExponent m e m' e' ≤ target (dividend m e m' e' / m') (quotientExponent m e m' e') := by
  -- Above the least exponent the quotient has at least 53 bits.
  by_cases hleast : quotientExponent m e m' e' ≤ -1074
  · unfold target
    omega
  · have hquotient : quotientExponent m e m' e' ≤ totalExponent m e - totalExponent m' e' - 53 ∧
        quotientExponent m e m' e' ≤ e - e' := by
      unfold quotientExponent at *
      omega
    have hdividend : dividend m e m' e' ≠ 0 :=
      Nat.mul_ne_zero (Nat.ne_of_gt hm) (Nat.ne_of_gt (twoTo_pos _))
    have hlog : 53 + m'.log2 ≤ (dividend m e m' e').log2 := by
      rw [dividend, log2_mul_twoTo (Nat.ne_of_gt hm)]
      unfold totalExponent at hquotient
      omega
    have hbits : twoTo 52 ≤ dividend m e m' e' / m' := by
      rw [Nat.le_div_iff_mul_le hm']
      calc twoTo 52 * m' ≤ twoTo 52 * twoTo (m'.log2 + 1) :=
            Nat.mul_le_mul_left _ (Nat.le_of_lt (lt_twoTo_log2 m'))
        _ = twoTo (53 + m'.log2) := by rw [← twoTo_add, ← Nat.add_assoc, Nat.add_right_comm]
        _ ≤ dividend m e m' e' := (le_log2_iff hdividend).1 hlog
    have hquotientLog : 52 ≤ (dividend m e m' e' / m').log2 :=
      (le_log2_iff (Nat.ne_of_gt (Nat.lt_of_lt_of_le (twoTo_pos 52) hbits))).2 hbits
    unfold target
    omega

theorem div_spec (hu : isUnsigned u = true) (hm' : 0 < m') :
    Canonical (UnpackedFloat.div .binary64 u (.finite .positive m' e' hm')) ∧
      isUnsigned (UnpackedFloat.div .binary64 u (.finite .positive m' e' hm')) = true := by
  rcases u with _ | _ | _ | ⟨_ | _, m, e, hm⟩ <;> try contradiction
  · exact ⟨trivial, rfl⟩
  · rw [div_finite_eq]
    exact ⟨canonical_roundWithAccuracy (div_target hm hm'),
      isUnsigned_roundWithAccuracy (div_target hm hm')⟩

/-- A rounded number that does not pass a double at the double's exponent is not above it. -/
theorem place_settled_le {r : Nat} {t : Int} (hfits : Fits m e) (hr : r ≤ twoTo 53)
    (ht : -1074 ≤ t) (h : t < e ∨ t = e ∧ r ≤ m) : ∃ a, place (settled .positive r t) = some a ∧
      (Precedes a (1, e, m) ∨ a = (1, e, (m : Int))) := by
  have hlt := hfits.lt
  unfold settled
  split
  · exact ⟨_, rfl, .inl (.inl Int.zero_lt_one)⟩
  · split
    · have hfull : twoTo 52 ≤ m := hfits.full.resolve_right (by omega)
      refine ⟨_, rfl, ?_⟩
      simp only [Precedes, Prod.mk.injEq, true_and]
      omega
    · refine ⟨_, rfl, ?_⟩
      simp only [Precedes, Prod.mk.injEq, true_and]
      omega


theorem clamp_settled {r : Nat} {t : Int} (ht : t < 971) :
    clamp (settled s r t) = settled s r t := by
  unfold settled
  split
  · rfl
  · split <;> exact if_neg (by omega)

section

variable {bound k : Nat}

theorem leading_le (hm : 0 < m)
    (hle : m * twoTo (e - e').toNat ≤ bound * m' * twoTo (e' - e).toNat) :
    totalExponent m e - totalExponent m' e' ≤ bound.log2 + 1 := by
  have hlt : twoTo (m.log2 + (e - e').toNat) <
      twoTo (bound.log2 + 1 + (m'.log2 + 1) + (e' - e).toNat) := by
    calc twoTo (m.log2 + (e - e').toNat) ≤ m * twoTo (e - e').toNat := by
          rw [twoTo_add]
          exact Nat.mul_le_mul_right _ ((le_log2_iff (Nat.ne_of_gt hm)).1 (Nat.le_refl _))
      _ ≤ bound * m' * twoTo (e' - e).toNat := hle
      _ < twoTo (bound.log2 + 1 + (m'.log2 + 1) + (e' - e).toNat) := by
          rw [twoTo_add, twoTo_add]
          exact Nat.mul_lt_mul_of_pos_right
            (Nat.mul_lt_mul_of_lt_of_le (lt_twoTo_log2 bound) (Nat.le_of_lt (lt_twoTo_log2 m'))
              (twoTo_pos _))
            (twoTo_pos _)
  have hexponents := lt_of_twoTo_lt hlt
  unfold totalExponent
  omega

theorem dividend_le (hle : m * twoTo (e - e').toNat ≤ bound * m' * twoTo (e' - e).toNat)
    (hexponent : quotientExponent m e m' e' ≤ 0) :
    dividend m e m' e' ≤ bound * twoTo (-quotientExponent m e m' e').toNat * m' := by
  have hsum : (e - e' - quotientExponent m e m' e').toNat + (e' - e).toNat =
      (e - e').toNat + (-quotientExponent m e m' e').toNat := by
    have hmin : quotientExponent m e m' e' ≤ e - e' := by
      unfold quotientExponent
      omega
    omega
  refine Nat.le_of_mul_le_mul_right ?_ (twoTo_pos (e' - e).toNat)
  calc dividend m e m' e' * twoTo (e' - e).toNat
      = m * twoTo (e - e').toNat * twoTo (-quotientExponent m e m' e').toNat := by
        rw [dividend, Nat.mul_assoc, ← twoTo_add, hsum, twoTo_add, Nat.mul_assoc]
    _ ≤ bound * m' * twoTo (e' - e).toNat * twoTo (-quotientExponent m e m' e').toNat :=
      Nat.mul_le_mul_right _ hle
    _ = bound * twoTo (-quotientExponent m e m' e').toNat * m' * twoTo (e' - e).toNat := by
        rw [Nat.mul_right_comm bound, Nat.mul_right_comm _ m', Nat.mul_right_comm bound,
          Nat.mul_right_comm _ m']

/-- A quotient that is at most a natural number is not rounded beyond it. -/
theorem place_div_le (hm : 0 < m) (hm' : 0 < m') (hbound : 0 < bound)
    (hfits : Fits (bound * twoTo k) (-k))
    (hle : m * twoTo (e - e').toNat ≤ bound * m' * twoTo (e' - e).toNat) :
    ∃ a, place
      (clamp (UnpackedFloat.div .binary64 (.finite .positive m e hm)
        (.finite .positive m' e' hm'))) = some a ∧
      (Precedes a (1, -k, (bound * twoTo k : Nat)) ∨
        a = (1, -(k : Int), ((bound * twoTo k : Nat) : Int))) := by
  have hpos : 0 < bound * twoTo k := Nat.mul_pos hbound (twoTo_pos k)
  have hlog : bound.log2 + k < 53 := by
    rw [← log2_mul_twoTo (Nat.ne_of_gt hbound), log2_lt_iff (Nat.ne_of_gt hpos)]
    exact hfits.lt
  have hexponent : quotientExponent m e m' e' ≤ -k := by
    have hleading := leading_le hm hle
    have hleast := hfits.least
    unfold quotientExponent
    omega
  have hdividend := dividend_le hle (by omega)
  rw [div_finite_eq, roundWithAccuracy_eq (div_target hm hm')]
  generalize quotientExponent m e m' e' = q at *
  generalize dividend m e m' e' = d at *
  have hquotient : d / m' ≤ bound * twoTo (-q).toNat := Nat.div_le_of_le_mul (by rwa [Nat.mul_comm])
  have ht : target (d / m') q ≤ -k := by
    have hquotientLog : (d / m').log2 ≤ bound.log2 + (-q).toNat := by
      by_cases h0 : d / m' = 0
      · rw [h0]
        exact Nat.zero_le _
      · rw [← log2_mul_twoTo (Nat.ne_of_gt hbound),
          le_log2_iff (Nat.ne_of_gt (Nat.mul_pos hbound (twoTo_pos _)))]
        exact Nat.le_trans ((le_log2_iff h0).1 (Nat.le_refl _)) hquotient
    have hleast := hfits.least
    unfold target
    omega
  rw [clamp_settled (by omega)]
  refine place_settled_le hfits shifted_le_twoTo (by unfold target; omega) ?_
  -- Below the exponent of the bound there is nothing to show; at that exponent the mantissas are
  -- compared.
  rcases Int.lt_or_eq_of_le ht with hlt | heq
  · exact .inl hlt
  · refine .inr ⟨heq, shifted_le ?_⟩
    have hproduct : bound * twoTo k * twoTo (target (d / m') q - q).toNat =
        bound * twoTo (-q).toNat := by
      rw [Nat.mul_assoc, ← twoTo_add]
      congr 2
      omega
    rw [hproduct]
    refine (Nat.lt_or_eq_of_le hquotient).imp_right fun hexact => ⟨hexact, ?_⟩
    have hrest : d % m' = 0 := by
      have hsplit := Nat.div_add_mod d m'
      rw [hexact, Nat.mul_comm] at hsplit
      omega
    rw [hrest]
    rfl

theorem unpack_div (hx : IsMagnitude x) {hm' : 0 < m'}
    (hy : y.toModel.unpack = .finite .positive m' e' hm') :
    (x / y).toModel.unpack =
      clamp (UnpackedFloat.div .binary64 x.toModel.unpack (.finite .positive m' e' hm')) := by
  rw [← hy]
  refine unpack_pack_model ?_
  rw [hy]
  exact (div_spec hx hm').1

theorem zero_le_div (hx : IsMagnitude x) {hm' : 0 < m'}
    (hy : y.toModel.unpack = .finite .positive m' e' hm') : 0.0 ≤ x / y :=
  zero_le_of_clamp (div_spec hx hm').2 (unpack_div hx hy)

theorem div_le (hx : IsMagnitude x) {hm' : 0 < m'} {hpos : 0 < bound * twoTo k} (hbound : 0 < bound)
    (hfits : Fits (bound * twoTo k) (-k)) (hy : y.toModel.unpack = .finite .positive m' e' hm')
    (hz : z.toModel.unpack = .finite .positive (bound * twoTo k) (-k) hpos)
    (hle : ∀ m e hm, x.toModel.unpack = .finite .positive m e hm →
      m * twoTo (e - e').toNat ≤ bound * m' * twoTo (e' - e).toNat) : x / y ≤ z := by
  rw [le_iff, unpack_div hx hy, hz]
  unfold IsMagnitude at hx
  cases hu : x.toModel.unpack with
  | notANumber | infinity =>
    rw [hu] at hx
    contradiction
  | zero => exact ⟨_, _, rfl, rfl, .inl (.inl Int.zero_lt_one)⟩
  | finite s m e hm =>
    obtain rfl : s = .positive := by
      rw [hu] at hx
      cases s <;> first | rfl | contradiction
    obtain ⟨a, ha, hplace⟩ := place_div_le hm hm' hbound hfits (hle m e hm hu)
    exact ⟨_, _, ha, rfl, hplace⟩

end

end UtilityCss.Binary64
