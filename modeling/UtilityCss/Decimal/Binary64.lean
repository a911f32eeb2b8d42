/-!
# Powers of two and of ten

The units of binary and of decimal fractions.
-/

namespace UtilityCss

/-- A power of two. -/
def twoTo (n : Nat) : Nat := Nat.pow 2 n

/-- A power of ten. -/
def tenTo (n : Nat) : Nat := Nat.pow 10 n

theorem twoTo_pos (n : Nat) : 0 < twoTo n := Nat.pow_pos (by decide)

theorem twoTo_succ (n : Nat) : twoTo (n + 1) = twoTo n * 2 := rfl

theorem twoTo_add (m n : Nat) : twoTo (m + n) = twoTo m * twoTo n := Nat.pow_add 2 m n

theorem twoTo_le_twoTo {m n : Nat} (h : m ≤ n) : twoTo m ≤ twoTo n :=
  Nat.pow_le_pow_right (by decide) h

theorem lt_of_twoTo_lt {m n : Nat} (h : twoTo m < twoTo n) : m < n :=
  (Nat.pow_lt_pow_iff_right (by decide)).1 h

/-! The leading bit of a number other than zero is its logarithm. -/

theorem log2_lt_iff {m n : Nat} (h : m ≠ 0) : m.log2 < n ↔ m < twoTo n := Nat.log2_lt h

theorem le_log2_iff {m n : Nat} (h : m ≠ 0) : n ≤ m.log2 ↔ twoTo n ≤ m := Nat.le_log2 h

theorem lt_twoTo_log2 (m : Nat) : m < twoTo (m.log2 + 1) := Nat.lt_log2_self

theorem shiftLeft_eq (m n : Nat) : m <<< n = m * twoTo n := Nat.shiftLeft_eq m n

theorem log2_mul_twoTo {m : Nat} (hm : m ≠ 0) (n : Nat) : (m * twoTo n).log2 = m.log2 + n := by
  have hne : m * twoTo n ≠ 0 := Nat.mul_ne_zero hm (Nat.ne_of_gt (twoTo_pos n))
  have hlow : twoTo (m.log2 + n) ≤ m * twoTo n := by
    rw [twoTo_add]
    exact Nat.mul_le_mul_right _ ((le_log2_iff hm).1 (Nat.le_refl _))
  have hhigh : m * twoTo n < twoTo (m.log2 + n + 1) := by
    rw [Nat.add_right_comm, twoTo_add]
    exact Nat.mul_lt_mul_of_pos_right (lt_twoTo_log2 m) (twoTo_pos n)
  have hle := (le_log2_iff hne).2 hlow
  have hlt := (log2_lt_iff hne).2 hhigh
  omega

end UtilityCss

/-! ## Double precision numbers

A finite double is `± mantissa · 2 ^ exponent`. This module takes doubles apart, finds the double
nearest to a quotient of natural numbers in exact arithmetic, and builds on that: conversion of
integers, truncation, comparison with integers, and powers with a whole exponent. -/

namespace UtilityCss.Binary64

/-- A double taken apart. Finite ones carry the sign, and the value as `mantissa · 2 ^ exponent`. -/
inductive Parts where
  | nan
  | infinite (negative : Bool)
  | finite (negative : Bool) (mantissa : Nat) (exponent : Int)
  deriving DecidableEq

/-- Reads the sign, exponent and fraction fields of a double. -/
def parts (x : Float) : Parts :=
  let bits := x.toBits.toNat
  let negative := bits / twoTo 63 == 1
  let field : Nat := bits / twoTo 52 % twoTo 11
  let fraction : Nat := bits % twoTo 52
  if field = 2047 then
    if fraction = 0 then .infinite negative else .nan
  else if field = 0 then .finite negative fraction (-1074)
  else .finite negative (fraction + twoTo 52) ((field : Int) - 1075)

/-- The double with the given sign whose other bits are `magnitude`. -/
def ofFields (negative : Bool) (magnitude : Nat) : Float :=
  Float.ofBits (magnitude + if negative then twoTo 63 else 0).toUInt64

/-- Positive or negative infinity. -/
def infinity (negative : Bool) : Float := ofFields negative (2047 * twoTo 52)

/-- Positive or negative zero. -/
def signedZero (negative : Bool) : Float := ofFields negative 0

/-- Rounds a quotient to the nearest natural number, a tie to the even one. -/
def roundQuotient (num den : Nat) : Nat :=
  let n := num / den
  let r := num % den
  if den < 2 * r || (2 * r == den && n % 2 == 1) then n + 1 else n

/-- The exponent of the unit in the last place of a double near `num / den`. -/
def unitExponent (num den : Nat) : Int :=
  let guess : Int := (num.log2 : Int) - den.log2 - 52
  let above := if guess ≥ 0 then den * twoTo (guess + 52).toNat ≤ num else
    den * twoTo (guess + 52).toNat ≤ num * twoTo (-(guess + 52)).toNat
  max (-1074) (if above then guess else guess - 1)

/-- The double for `± num / den` whose mantissa is rounded by `round`, and infinity from `2 ^ 1024`
less half a unit on. -/
def rounded (round : (num den : Nat) → Nat) (negative : Bool) (num den : Nat) : Float :=
  if num = 0 then signedZero negative
  else
    let e := unitExponent num den
    if e > 971 then infinity negative
    else
      let m := if e ≥ 0 then round num (den * twoTo e.toNat)
        else round (num * twoTo (-e).toNat) den
      let magnitude := m + (e + 1074).toNat * twoTo 52
      if magnitude ≥ 2047 * twoTo 52 then infinity negative else ofFields negative magnitude

/-- The double nearest to `± num / den`, a tie going to the even mantissa. -/
def nearest (negative : Bool) (num den : Nat) : Float := rounded roundQuotient negative num den

/-- Whether `num / den` is within a sixteenth of the middle between two mantissas. -/
def isNearMiddle (num den : Nat) : Bool :=
  let e := unitExponent num den
  let (num, den) := if e ≥ 0 then (num, den * twoTo e.toNat) else (num * twoTo (-e).toNat, den)
  let r := num % den
  8 * (if den ≤ 2 * r then 2 * r - den else den - 2 * r) < den

/-- One of the two doubles next to `± num / den`: the nearest one, unless the quotient is near the
middle between them and the guess is the other one. -/
def nearestOrGuess (guess : Float) (negative : Bool) (num den : Nat) : Float :=
  if isNearMiddle num den &&
      (guess == rounded (fun num den => num / den) negative num den ||
        guess == rounded (fun num den => num / den + 1) negative num den) then guess
  else nearest negative num den

/-- A natural number `mantissa · 2 ^ exponent` with a separate exponent. -/
structure Scaled where
  mantissa : Nat
  exponent : Int

namespace Scaled

/-- Keeps the 256 leading bits. -/
def truncate (s : Scaled) : Scaled :=
  let excess := s.mantissa.log2 + 1 - 256
  ⟨s.mantissa / twoTo excess, s.exponent + excess⟩

/-- The product, in 256 bits. -/
def mul (s t : Scaled) : Scaled :=
  truncate ⟨s.mantissa * t.mantissa, s.exponent + t.exponent⟩

/-- A power by repeated squaring, each product in 256 bits. -/
def longPow (s : Scaled) (n : Nat) : Scaled :=
  if h : n = 0 then ⟨1, 0⟩
  else
    let half := longPow s (n / 2)
    if n % 2 = 0 then half.mul half else (half.mul half).mul s
termination_by n
decreasing_by omega

/-- A power, exact up to the exponent 1100. A number that is not between one half and two has left
the range of doubles by then; for the others 256 bits decide the rounding. -/
def pow (s : Scaled) (n : Nat) : Scaled :=
  if n ≤ 1100 then ⟨Nat.pow s.mantissa n, s.exponent * n⟩ else s.longPow n

/-- The number as a quotient. -/
def quotient (s : Scaled) : Nat × Nat :=
  if s.exponent ≥ 0 then (s.mantissa * twoTo s.exponent.toNat, 1)
  else (s.mantissa, twoTo (-s.exponent).toNat)

/-- The exponent of the leading bit. -/
def leading (s : Scaled) : Int := s.exponent + s.mantissa.log2

end Scaled

/-- What can go wrong in arithmetic on doubles and integers. -/
inductive ArithmeticError where
  /-- An integer is outside the range of doubles. -/
  | integerTooLarge
  /-- A finite power is outside the range of doubles. -/
  | powerTooLarge
  /-- Zero has no negative powers. -/
  | zeroToNegativePower
  /-- Infinity has no integer part. -/
  | infinityToInteger
  /-- What is not a number has no integer part. -/
  | nanToInteger
  deriving DecidableEq, Repr

/-- The text of an arithmetic error. -/
def ArithmeticError.message : ArithmeticError → String
  | .integerTooLarge => "int too large to convert to float"
  | .powerTooLarge => "(34, 'Numerical result out of range')"
  | .zeroToNegativePower => "0.0 cannot be raised to a negative power"
  | .infinityToInteger => "cannot convert float infinity to integer"
  | .nanToInteger => "cannot convert float NaN to integer"

/-- Whether a double is positive or negative infinity. -/
def isInfinite (x : Float) : Bool :=
  match parts x with
  | .infinite _ => true
  | _ => false

/-- The double nearest to an integer, if the integer is in range. -/
def ofInt (i : Int) : Except ArithmeticError Float :=
  let x := nearest (i < 0) i.natAbs 1
  if isInfinite x then .error .integerTooLarge else .ok x

/-- The integer part of a double. -/
def truncate (x : Float) : Except ArithmeticError Int :=
  match parts x with
  | .nan => .error .nanToInteger
  | .infinite _ => .error .infinityToInteger
  | .finite negative m e =>
    let n := if e ≥ 0 then m * twoTo e.toNat else m / twoTo (-e).toNat
    .ok (if negative then -(n : Int) else n)

/-- Whether an integer is less than a double, compared exactly. -/
def intLt (i : Int) (x : Float) : Bool :=
  match parts x with
  | .nan => false
  | .infinite negative => !negative
  | .finite negative m e =>
    let signed : Int := if negative then -(m : Int) else m
    if e ≥ 0 then i < signed * twoTo e.toNat else i * twoTo (-e).toNat < signed

/-- The double for `± s`, or for `± 1 / s` where `inverted`, with a guess for the cases near the
middle between two doubles. -/
def ofScaled (guess : Float) (negative inverted : Bool) (s : Scaled) : Float :=
  let leading := if inverted then -s.leading else s.leading
  if leading > 1100 then infinity negative
  else if leading < -1200 then signedZero negative
  else
    let (num, den) := if inverted then s.quotient.swap else s.quotient
    nearestOrGuess guess negative num den

/-- A double next to `x ^ n`, which is the nearest one unless the power is near the middle between
two doubles; there the power function of the machine decides. The exponent is taken as a double
first. Every number to the power zero is one, also zero and what is not a number. -/
def power (x : Float) (n : Int) : Except ArithmeticError Float := do
  let exponent ← ofInt n
  let n ← truncate exponent
  let odd := n % 2 != 0
  if n = 0 then return 1.0
  match parts x with
  | .nan => return x
  | .infinite negative =>
    return if n > 0 then infinity (negative && odd) else signedZero (negative && odd)
  | .finite negative m e =>
    if m = 0 then
      if n < 0 then throw .zeroToNegativePower else return signedZero (negative && odd)
    let s := (Scaled.mk m e).pow n.natAbs
    let y := ofScaled (Float.pow x exponent) (negative && odd) (n < 0) s
    if isInfinite y then throw .powerTooLarge else return y

/-- The double nearest to the decimal number `digits · 10 ^ exponent`. -/
def ofDecimal (negative : Bool) (digits : Nat) (exponent : Int) : Float :=
  let places : Int := (Nat.toDigits 10 digits).length
  if digits = 0 then signedZero negative
  else if exponent + places > 400 then infinity negative
  else if exponent + places < -400 then signedZero negative
  else if exponent ≥ 0 then nearest negative (digits * tenTo exponent.toNat) 1
  else nearest negative digits (tenTo (-exponent).toNat)

end UtilityCss.Binary64
