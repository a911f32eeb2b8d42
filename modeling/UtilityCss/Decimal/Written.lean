import UtilityCss.Decimal.Binary64
/-!
# Written doubles

A double is written with as few digits as it needs, or with a fixed number of places.
-/

namespace UtilityCss.Decimal

open Binary64

/-! ## Shortest decimal text of a double

A double is written with the fewest significant digits that read back as the same double; among the
decimals of that length the one nearest to its value is taken. The search works on the exact value
`mantissa · 2 ^ exponent` and the interval of reals that round to it: for one digit, two digits and
so on it looks at the two neighbours of the value on that decimal grid. -/

/-- Significant decimal digits `d₁d₂…dₙ` with the meaning `0.d₁d₂…dₙ · 10 ^ point`. -/
structure Digits where
  digits : List Char
  point : Int
  deriving DecidableEq

/-- The digits of `n` without zeros at the end, where the unit of `n` is `10 ^ scale`. -/
def Digits.ofNat (n : Nat) (scale : Int) : Digits :=
  let all := Nat.toDigits 10 n
  ⟨(all.reverse.dropWhile (· == '0')).reverse, scale + all.length⟩

/-- The reals that round to a double, times a common denominator: those between `low` and `high`,
the ends included if `closed`. The double itself is `value / denominator`. -/
structure Interval where
  low : Nat
  value : Nat
  high : Nat
  denominator : Nat
  closed : Bool

/-- The interval around `mantissa · 2 ^ exponent`, whose lower half is narrower at a power of
two. -/
def Interval.around (mantissa : Nat) (exponent : Int) : Interval :=
  let below := if mantissa = twoTo 52 && exponent > -1074 then 1 else 2
  let unit := twoTo (exponent - 2).toNat
  ⟨(4 * mantissa - below) * unit, 4 * mantissa * unit, (4 * mantissa + 2) * unit,
    twoTo (2 - exponent).toNat, mantissa % 2 == 0⟩

/-- Whether `n · 10 ^ scale` lies in the interval. -/
def Interval.contains (i : Interval) (n : Nat) (scale : Int) : Bool :=
  let lhs := n * tenTo scale.toNat * i.denominator
  let unit := tenTo (-scale).toNat
  if i.closed then i.low * unit ≤ lhs && lhs ≤ i.high * unit
  else i.low * unit < lhs && lhs < i.high * unit

/-- The place of the decimal point before the first significant digit of `num / den`. -/
def pointOf (num den : Nat) : Int :=
  if den ≤ num then (Nat.toDigits 10 (num / den)).length
  else
    let places := (Nat.toDigits 10 (den / num)).length
    if den ≤ num * tenTo (places - 1) then 2 - (places : Int) else 1 - (places : Int)

/-- The first grid, from `count` digits on, with a neighbour of the value in the interval. -/
def searchFrom (i : Interval) (point : Int) (count : Nat) : Nat → Digits
  | 0 => ⟨[], point⟩
  | tries + 1 =>
    let scale := point - count
    let num := i.value * tenTo (-scale).toNat
    let den := i.denominator * tenTo scale.toNat
    let below := num / den
    let twice := 2 * (num % den)
    let nearer := if twice < den || (twice == den && below % 2 == 0) then below else below + 1
    let farther := if nearer == below then below + 1 else below
    if nearer != 0 && i.contains nearer scale then Digits.ofNat nearer scale
    else if farther != 0 && i.contains farther scale then Digits.ofNat farther scale
    else searchFrom i point (count + 1) tries

/-- The fewest digits that read back as `mantissa · 2 ^ exponent`, for a mantissa that is not
zero. -/
def shortest (mantissa : Nat) (exponent : Int) : Digits :=
  let i := Interval.around mantissa exponent
  searchFrom i (pointOf i.value i.denominator) 1 18

/-- Positional notation, with at least one digit on both sides of the point. -/
def positional (d : Digits) : List Char :=
  let n := d.digits.length
  if d.point ≤ 0 then
    ['0', '.'] ++ List.replicate (-d.point).toNat '0' ++ d.digits
  else if (n : Int) ≤ d.point then
    d.digits ++ List.replicate (d.point.toNat - n) '0' ++ ['.', '0']
  else d.digits.take d.point.toNat ++ '.' :: d.digits.drop d.point.toNat

/-- Notation with an exponent of at least two digits. -/
def scientific (d : Digits) : List Char :=
  let e := d.point - 1
  let size := Nat.toDigits 10 e.natAbs
  let padded := if size.length < 2 then '0' :: size else size
  let mantissa := match d.digits with
    | [] => ['0']
    | [c] => [c]
    | c :: cs => c :: '.' :: cs
  mantissa ++ ['e', if e < 0 then '-' else '+'] ++ padded

/-- The text of a double: the shortest digits, positional from `0.0001` up to `10 ^ 16`. -/
def floatText (x : Float) : String :=
  match parts x with
  | .nan => "nan"
  | .infinite negative => if negative then "-inf" else "inf"
  | .finite negative m e =>
    let body :=
      if m = 0 then ['0', '.', '0']
      else
        let d := shortest m e
        if -4 < d.point && d.point ≤ 16 then positional d else scientific d
    String.ofList (if negative then '-' :: body else body)

/-! ## Decimals with fixed places

A double is written with a fixed number of decimal places, rounded from its exact value, a tie going
to the even digit. -/

/-- `n · 10 ^ -places` in positional notation. -/
def placeText (places n : Nat) : List Char :=
  let digits := Nat.toDigits 10 n
  let padded := List.replicate (places + 1 - digits.length) '0' ++ digits
  let whole := padded.length - places
  if places = 0 then padded else padded.take whole ++ '.' :: padded.drop whole

/-- The double with `places` decimal places. -/
def fixedText (places : Nat) (x : Float) : String :=
  match parts x with
  | .nan => "nan"
  | .infinite negative => if negative then "-inf" else "inf"
  | .finite negative m e =>
    let n := if e ≥ 0 then m * twoTo e.toNat * tenTo places
      else roundQuotient (m * tenTo places) (twoTo (-e).toNat)
    let body := placeText places n
    String.ofList (if negative then '-' :: body else body)

end UtilityCss.Decimal
