import Mathlib
import UtilityCss.Decimal.Binary64
import UtilityCss.Decimal.Order
/-!
# Doubles and their bits

A double is stored in bits, which say nothing else than its parts: its sign, its mantissa and its
exponent. For arithmetic it is unpacked and the result is packed again. Packing keeps every result
whose mantissa has 53 bits, or fewer at the least exponent, except that too large a number becomes
infinite.
-/

namespace UtilityCss.Binary64

open Float.Model
open UnpackedFloat (Sign unpackMantissa unpackExponent unpackSign)

/-! ## Fields of bits -/

/-- Whether a sign is the negative one. -/
def isNegative : Sign → Bool
  | .negative => true
  | .positive => false

/-- The parts of an unpacked double. -/
def partsOf : UnpackedFloat → Parts
  | .notANumber => .nan
  | .infinity s => .infinite (isNegative s)
  | .zero s => .finite (isNegative s) 0 (-1074)
  | .finite s m e _ => .finite (isNegative s) m e

theorem partsOf_finite (s : Sign) (m : Nat) (e : Int) (h : 0 < m) :
    partsOf (.finite s m e h) = .finite (isNegative s) m e := rfl

/-- The parts of the double with some bits. -/
def fields (bits : Nat) : Parts :=
  let negative := bits / twoTo 63 == 1
  let field : Nat := bits / twoTo 52 % twoTo 11
  let fraction : Nat := bits % twoTo 52
  if field = 2047 then
    if fraction = 0 then .infinite negative else .nan
  else if field = 0 then .finite negative fraction (-1074)
  else .finite negative (fraction + twoTo 52) ((field : Int) - 1075)

theorem toNat_unpackMantissa (b : BitVec 64) :
    (@unpackMantissa .binary64 b).toNat = b.toNat % twoTo 52 := by
  simp [unpackMantissa, Format.numBits, twoTo]

theorem toNat_unpackExponent (b : BitVec 64) :
    (@unpackExponent .binary64 b).toNat = b.toNat / twoTo 52 % twoTo 11 := by
  simp [unpackExponent, Nat.shiftRight_eq_div_pow, twoTo]

theorem toNat_unpackSign (b : BitVec 64) :
    (@unpackSign .binary64 b).toNat = b.toNat / twoTo 63 := by
  have hlt : b.toNat < 18446744073709551616 := b.isLt
  have hsign : (@unpackSign .binary64 b).toNat = (b.extractLsb' 63 1).toNat := rfl
  rw [hsign, BitVec.extractLsb'_toNat, Nat.shiftRight_eq_div_pow]
  exact Nat.mod_eq_of_lt (Nat.div_lt_of_lt_mul (by omega))

theorem isNegative_ofBitVec (b : BitVec 1) : isNegative (.ofBitVec b) = (b.toNat == 1) := by
  revert b; decide

theorem toNat_one_append (v : BitVec 52) : (1#1 ++ v).toNat = v.toNat + twoTo 52 := by
  have hor := Nat.two_pow_add_eq_or_of_lt v.isLt 1
  rw [BitVec.toNat_append, Nat.add_comm]
  simpa [Nat.one_shiftLeft, twoTo] using hor.symm

theorem partsOf_unpack (b : BitVec 64) :
    partsOf (UnpackedFloat.unpack .binary64 b) = fields b.toNat := by
  have hones : ∀ v : BitVec 11, v = -1#11 ↔ v.toNat = 2047 := by decide +kernel
  have hzero : ∀ v : BitVec 11, v = 0#11 ↔ v.toNat = 0 := fun v => BitVec.toNat_inj.symm
  have hfraction : @unpackMantissa .binary64 b = 0#52 ↔ b.toNat % twoTo 52 = 0 := by
    rw [← toNat_unpackMantissa]
    exact BitVec.toNat_inj.symm
  have hsign : isNegative (.ofBitVec (@unpackSign .binary64 b)) = (b.toNat / twoTo 63 == 1) := by
    rw [isNegative_ofBitVec, toNat_unpackSign]
  have hexponent := toNat_unpackExponent b
  -- Both functions look first for the greatest exponent, then for the least one.
  unfold UnpackedFloat.unpack fields
  dsimp only
  by_cases hspecial : @unpackExponent .binary64 b = -1#11
  · have hfield := (hones _).1 hspecial
    rw [hexponent] at hfield
    rw [if_pos hspecial, if_pos hfield]
    by_cases hnone : @unpackMantissa .binary64 b = 0#52
    · rw [if_pos hnone, if_pos (hfraction.1 hnone), ← hsign]
      rfl
    · rw [if_neg hnone, if_neg fun h => hnone (hfraction.2 h)]
      rfl
  · have hfield := fun h => hspecial ((hones _).2 h)
    rw [hexponent] at hfield
    rw [if_neg hspecial, if_neg hfield]
    by_cases hleast : @unpackExponent .binary64 b = 0#11
    · have hfield := (hzero _).1 hleast
      rw [hexponent] at hfield
      rw [if_pos hleast, if_pos hfield]
      by_cases hnone : @unpackMantissa .binary64 b = 0#52
      · rw [dif_pos hnone, hfraction.1 hnone, ← hsign]
        rfl
      · rw [dif_neg hnone, partsOf_finite, hsign, toNat_unpackMantissa, hleast]
        rfl
    · have hfield := fun h => hleast ((hzero _).2 h)
      rw [hexponent] at hfield
      rw [if_neg hleast, if_neg hfield, partsOf_finite, hsign, toNat_one_append,
        toNat_unpackMantissa, hexponent]
      rfl

theorem twoTo_52 : twoTo 52 = 4503599627370496 := rfl
theorem twoTo_53 : twoTo 53 = 9007199254740992 := rfl

/-- Mantissa and exponent of a finite double. It has 53 bits, and fewer only at the least
exponent. -/
structure Fits (m : Nat) (e : Int) : Prop where
  lt : m < twoTo 53
  least : -1074 ≤ e
  full : twoTo 52 ≤ m ∨ e = -1074

/-- An unpacked double as it is unpacked from bits, but for its size. -/
def Canonical : UnpackedFloat → Prop
  | .finite _ m e _ => Fits m e
  | _ => True

/-- What is left of an unpacked double after packing: too large a number becomes infinite. -/
def clamp : UnpackedFloat → UnpackedFloat
  | .finite s m e h => if 971 < e then .infinity s else .finite s m e h
  | u => u

theorem finite_congr {s : Sign} {m m' : Nat} {e e' : Int} {h : 0 < m} {h' : 0 < m'} (hm : m = m')
    (he : e = e') : UnpackedFloat.finite s m e h = .finite s m' e' h' := by
  subst hm he
  rfl

theorem unpack_packComponents (s : Sign) (e : BitVec 11) (m : BitVec 52) :
    UnpackedFloat.unpack .binary64 (UnpackedFloat.packComponents .binary64 s e m) =
      if e = -1#11 then if m = 0#52 then .infinity s else .notANumber
      else if e = 0#11 then
        if h : m = 0#52 then .zero s
        else .finite s m.toNat (-1074) (Nat.pos_of_ne_zero fun h0 => h (BitVec.eq_of_toNat_eq h0))
      else .finite s (m.toNat + twoTo 52) (e.toNat - 1075) (Nat.add_pos_right _ (by decide)) := by
  have hexponent : unpackExponent (UnpackedFloat.packComponents .binary64 s e m) = e :=
    UnpackedFloat.unpackExponent_packComponents ..
  have hmantissa : unpackMantissa (UnpackedFloat.packComponents .binary64 s e m) = m :=
    UnpackedFloat.unpackMantissa_packComponents ..
  have hsign : Sign.ofBitVec (unpackSign (UnpackedFloat.packComponents .binary64 s e m)) = s := by
    rw [UnpackedFloat.unpackSign_packComponents, Sign.ofBitVec_toBitVec]
  generalize UnpackedFloat.packComponents .binary64 s e m = b at *
  subst hexponent hmantissa hsign
  unfold UnpackedFloat.unpack
  dsimp only
  split
  · rfl
  · split
    · rename_i hleast
      split
      · rfl
      · exact finite_congr rfl (by rw [hleast]; rfl)
    · exact finite_congr (toNat_one_append _) rfl

theorem unpack_pack {u : UnpackedFloat} (h : Canonical u) :
    UnpackedFloat.unpack .binary64 (UnpackedFloat.pack .binary64 u) = clamp u := by
  cases u with
  | notANumber => rfl
  | infinity s => cases s <;> rfl
  | zero s => cases s <;> rfl
  | finite s m e hm =>
    obtain ⟨hlt, hleast, hfull⟩ := h
    have hbias : (Format.binary64.exponentBias : Int) + (52 : Nat) = 1075 := rfl
    have hbits : m.log2 + 1 = Format.binary64.mantissaBits ↔ twoTo 52 ≤ m := by
      have hle : 52 ≤ m.log2 ↔ twoTo 52 ≤ m := le_log2_iff (Nat.ne_of_gt hm)
      have hge : m.log2 < 53 ↔ m < twoTo 53 := log2_lt_iff (Nat.ne_of_gt hm)
      have hwidth : Format.binary64.mantissaBits = 53 := rfl
      omega
    -- Too large an exponent makes an infinity. Else the mantissa has its leading bit, which is not
    -- stored, or the exponent is the least one, and the field of the exponent is zero.
    unfold UnpackedFloat.pack clamp
    simp only [Int.add_assoc, hbias, hbits]
    by_cases hlarge : 971 < e
    · rw [if_pos (by omega), if_pos hlarge]
      cases s <;> rfl
    · rw [if_neg (by omega), if_neg hlarge]
      by_cases hnormal : twoTo 52 ≤ m
      · have hfield : (BitVec.ofNat 11 (e + 1075).toNat).toNat = (e + 1075).toNat := by
          rw [BitVec.toNat_ofNat, Nat.mod_eq_of_lt (by omega)]
        have hfraction : (BitVec.ofNat 52 m).toNat + twoTo 52 = m := by
          rw [BitVec.toNat_ofNat]
          rw [twoTo_52] at *
          rw [twoTo_53] at hlt
          omega
        have hne : ∀ v : BitVec 11, v.toNat ≠ (e + 1075).toNat →
            BitVec.ofNat 11 (e + 1075).toNat ≠ v :=
          fun v hv h => hv (by rw [← h, hfield])
        have hones : (-1#11).toNat = 2047 := rfl
        have hzero : (0#11).toNat = 0 := rfl
        rw [if_pos hnormal, unpack_packComponents, if_neg (hne _ (by omega)),
          if_neg (hne _ (by omega))]
        exact finite_congr (by omega) (by omega)
      · obtain rfl : e = -1074 := hfull.resolve_left hnormal
        have hfraction : (BitVec.ofNat 52 m).toNat = m := by
          rw [BitVec.toNat_ofNat]
          exact Nat.mod_eq_of_lt (Nat.lt_of_not_le hnormal)
        rw [if_neg hnormal, unpack_packComponents, if_neg (by decide), if_pos rfl, dif_neg]
        · exact finite_congr hfraction rfl
        · intro h
          have h0 := congrArg BitVec.toNat h
          rw [hfraction] at h0
          exact (Nat.ne_of_gt hm) h0

theorem fits_of_fields {bits : Nat} {negative : Bool} {m : Nat} {e : Int}
    (h : fields bits = .finite negative m e) : Fits m e ∧ e ≤ 971 := by
  have hfraction : bits % twoTo 52 < twoTo 52 := Nat.mod_lt _ (by decide)
  have hfield : bits / twoTo 52 % twoTo 11 < 2048 := Nat.mod_lt _ (by decide)
  unfold fields at h
  dsimp only at h
  split at h
  · split at h <;> contradiction
  · split at h <;> obtain ⟨-, rfl, rfl⟩ := Parts.finite.inj h
    · exact ⟨⟨Nat.lt_trans hfraction (by decide), by omega, .inr rfl⟩, by omega⟩
    · exact ⟨⟨Nat.add_lt_add_right hfraction _, by omega, .inl (Nat.le_add_left _ _)⟩, by omega⟩

theorem parts_eq (x : Float) : parts x = partsOf x.toModel.unpack := (partsOf_unpack _).symm

theorem fits_of_parts {x : Float} {negative : Bool} {m : Nat} {e : Int}
    (h : parts x = .finite negative m e) : Fits m e ∧ e ≤ 971 := fits_of_fields h

theorem fits_of_unpack {x : Float} {s : Sign} {m : Nat} {e : Int} {hm : 0 < m}
    (h : x.toModel.unpack = .finite s m e hm) : Fits m e ∧ e ≤ 971 :=
  fits_of_parts (by rw [parts_eq, h]; rfl)

/-- A model that is packed from a canonical double is unpacked to the same, but for its size. -/
theorem unpack_pack_model {u : UnpackedFloat} (h : Canonical u) :
    (Float.Model.pack u).unpack = clamp u := unpack_pack h

theorem unpack_ofBits (b : UInt64) :
    (Float.ofBits b).toModel.unpack = UnpackedFloat.unpack .binary64 b.toBitVec := by
  show (Float.Model.pack (UnpackedFloat.unpack .binary64 b.toBitVec)).unpack = _
  have hparts := partsOf_unpack b.toBitVec
  cases hu : UnpackedFloat.unpack .binary64 b.toBitVec with
  | finite s m e hm =>
    rw [hu] at hparts
    obtain ⟨hfits, hle⟩ := fits_of_fields hparts.symm
    rw [unpack_pack_model (by exact hfits)]
    exact if_neg (by omega)
  | _ => exact unpack_pack_model trivial

theorem parts_ofBits (b : UInt64) : parts (Float.ofBits b) = fields b.toNat := by
  rw [parts_eq, unpack_ofBits, partsOf_unpack]
  rfl

@[simp] theorem parts_infinity (negative : Bool) :
    parts (infinity negative) = .infinite negative := by
  rw [infinity, ofFields, parts_ofBits]
  cases negative <;> decide

@[simp] theorem parts_signedZero (negative : Bool) :
    parts (signedZero negative) = .finite negative 0 (-1074) := by
  rw [signedZero, ofFields, parts_ofBits]
  cases negative <;> decide

/-- Bits below those of infinity are those of a finite number. -/
theorem parts_ofFields {magnitude : Nat} (h : magnitude < 2047 * twoTo 52) (negative : Bool) :
    parts (ofFields negative magnitude) =
      if magnitude / twoTo 52 = 0 then .finite negative magnitude (-1074)
      else .finite negative (magnitude % twoTo 52 + twoTo 52)
        ((magnitude / twoTo 52 : Nat) - 1075) := by
  have h63 : twoTo 63 = 9223372036854775808 := rfl
  have h11 : twoTo 11 = 2048 := rfl
  rw [twoTo_52] at *
  -- The bits are the magnitude below the sign, so each field is read off by a division.
  have hbits : (magnitude + if negative then twoTo 63 else 0).toUInt64.toNat =
      magnitude + if negative then twoTo 63 else 0 := by
    refine UInt64.toNat_ofNat_of_lt' ?_
    rw [h63]
    simp only [UInt64.size]
    split <;> omega
  have hnegative : ((magnitude + if negative then twoTo 63 else 0) / twoTo 63 == 1) = negative := by
    rw [h63]
    cases negative
    · rw [if_neg Bool.false_ne_true, beq_eq_false_iff_ne]
      omega
    · rw [if_pos rfl, beq_iff_eq]
      omega
  have hfield : (magnitude + if negative then twoTo 63 else 0) / twoTo 52 % twoTo 11 =
      magnitude / 4503599627370496 := by
    rw [h63, twoTo_52, h11]
    split <;> omega
  have hfraction : (magnitude + if negative then twoTo 63 else 0) % twoTo 52 =
      magnitude % 4503599627370496 := by
    rw [h63, twoTo_52]
    split <;> omega
  rw [ofFields, parts_ofBits, hbits, fields, hnegative, hfield, hfraction, if_neg (by omega),
    twoTo_52]
  by_cases hzero : magnitude / 4503599627370496 = 0
  · have hsmall : magnitude % 4503599627370496 = magnitude := by omega
    rw [if_pos hzero, if_pos hzero, hsmall]
  · rw [if_neg hzero, if_neg hzero]

theorem exists_parts_ofFields {magnitude : Nat} (h : magnitude < 2047 * twoTo 52)
    (negative : Bool) : ∃ m e, parts (ofFields negative magnitude) = .finite negative m e := by
  rw [parts_ofFields h]
  split
  · exact ⟨_, _, rfl⟩
  · exact ⟨_, _, rfl⟩

end UtilityCss.Binary64
