import ScriptCompiler.Number.Binary64
import ScriptCompiler.Text.Rune

/-!
# Decimal texts of doubles

A double is written with the fewest significant digits that read back as the same double; among
those the digits nearest to it are taken, and a tie goes to the even last digit.  Numbers of
moderate size are written positionally, others with an exponent of at least two digits and its sign.
-/

namespace ScriptCompiler

/-- The decimal number `digits * 10 ^ exponent`. -/
structure Decimal where
  /-- The significant digits. -/
  digits : Nat
  /-- The power of ten. -/
  exponent : Int
  deriving DecidableEq, Repr

namespace Decimal

/-- The numerator and denominator of a decimal. -/
def ratio (decimal : Decimal) : Nat × Nat :=
  (decimal.digits * Nat.pow 10 decimal.exponent.toNat, Nat.pow 10 (-decimal.exponent).toNat)

/-- The same number without zeros at the end of its digits; the bound is a number of zeros. -/
def strip : Nat → Decimal → Decimal
  | 0, decimal => decimal
  | zeros + 1, decimal =>
      if decimal.digits != 0 && decimal.digits % 10 == 0 then
        strip zeros ⟨decimal.digits / 10, decimal.exponent + 1⟩
      else decimal

/-- The largest power of ten that is at most `numerator / denominator`, searched upward from a
guess that is not too large. -/
def magnitudeFrom (numerator denominator : Nat) : Nat → Int → Int
  | 0, guess => guess
  | steps + 1, guess =>
      let next := guess + 1
      if denominator * Nat.pow 10 next.toNat ≤ numerator * Nat.pow 10 (-next).toNat then
        magnitudeFrom numerator denominator steps next
      else guess

/-- The largest power of ten that is at most a positive ratio. -/
def magnitude (numerator denominator : Nat) : Int :=
  let binary : Int := (Nat.log2 numerator : Int) - Nat.log2 denominator - 1
  magnitudeFrom numerator denominator 8 (binary * 30103 / 100000 - 2)

/-- The interval of ratios that round to a double, as numerators over one denominator, with the
double itself in the middle. -/
structure Neighbourhood where
  /-- Numerator of the lower end. -/
  lower : Nat
  /-- Numerator of the double. -/
  middle : Nat
  /-- Numerator of the upper end. -/
  upper : Nat
  /-- The common denominator. -/
  denominator : Nat
  /-- Whether the ends belong to the interval. -/
  closed : Bool

/-- The interval of ratios that round to `mantissa * 2 ^ exponent`. -/
def Neighbourhood.ofDouble (mantissa : Nat) (exponent : Int) : Neighbourhood :=
  let scale := Nat.pow 2 exponent.toNat
  let gap := if mantissa == Binary64.hiddenBit && Binary64.leastExponent < exponent then 1 else 2
  ⟨(4 * mantissa - gap) * scale, 4 * mantissa * scale, (4 * mantissa + 2) * scale,
    4 * Nat.pow 2 (-exponent).toNat, mantissa % 2 == 0⟩

/-- Whether a decimal lies in the interval. -/
def Neighbourhood.holds (interval : Neighbourhood) (decimal : Decimal) : Bool :=
  let ratio := decimal.ratio
  let value := ratio.1 * interval.denominator
  if interval.closed then interval.lower * ratio.2 ≤ value && value ≤ interval.upper * ratio.2
  else interval.lower * ratio.2 < value && value < interval.upper * ratio.2

/-- The decimal with a digit at `exponent` as its last one that lies in the interval and is nearest
to its middle, if there is one. -/
def Neighbourhood.onGrid? (interval : Neighbourhood) (exponent : Int) : Option Decimal :=
  let numerator := interval.middle * Nat.pow 10 (-exponent).toNat
  let denominator := interval.denominator * Nat.pow 10 exponent.toNat
  let below : Decimal := ⟨numerator / denominator, exponent⟩
  let above : Decimal := ⟨numerator / denominator + 1, exponent⟩
  match interval.holds below, interval.holds above with
  | true, true =>
      let nearest := Binary64.roundQuotient numerator denominator
      if nearest == below.digits then some below else some above
  | true, false => some below
  | false, true => some above
  | false, false => none

/-- The first decimal found on grids that become finer, from `digits` to seventeen digits. -/
def Neighbourhood.search (interval : Neighbourhood) (magnitude : Int) : Nat → Decimal
  | 0 => ⟨Binary64.roundQuotient (interval.middle * Nat.pow 10 (16 - magnitude).toNat)
      (interval.denominator * Nat.pow 10 (magnitude - 16).toNat), magnitude - 16⟩
  | remaining + 1 =>
      match interval.onGrid? (magnitude - (16 - remaining : Nat)) with
      | some decimal => decimal
      | none => interval.search magnitude remaining

/-- The decimal with the fewest digits that reads back as `mantissa * 2 ^ exponent`. -/
def shortest (mantissa : Nat) (exponent : Int) : Decimal :=
  if mantissa == 0 then ⟨0, 0⟩
  else
    let interval := Neighbourhood.ofDouble mantissa exponent
    strip 20 (interval.search (magnitude interval.middle interval.denominator) 17)

/-- Whether a decimal is exactly `mantissa * 2 ^ exponent`. -/
def isExactly (decimal : Decimal) (mantissa : Nat) (exponent : Int) : Bool :=
  let ratio := decimal.ratio
  ratio.1 * Nat.pow 2 (-exponent).toNat == mantissa * Nat.pow 2 exponent.toNat * ratio.2

/-- How decimals are laid out: positionally while the exponent of the first digit is at least
`least` and below `beyond`, and with an exponent otherwise. -/
structure Layout where
  /-- The least exponent written positionally. -/
  least : Int := -4
  /-- The first exponent that is too large to be written positionally. -/
  beyond : Int

/-- The exponent mark: a sign and at least two digits. -/
def exponentText (exponent : Int) : Bytes :=
  let digits := Bytes.ofNat exponent.natAbs
  (if exponent < 0 then "e-" else "e+") ++ (if digits.length < 2 then 0x30 :: digits else digits)

/-- The text of a decimal in a layout. -/
def text (layout : Layout) (decimal : Decimal) : Bytes :=
  let digits := Bytes.ofNat decimal.digits
  let first : Int := if decimal.digits == 0 then 0 else decimal.exponent + (digits.length - 1 : Nat)
  if first < layout.least || layout.beyond ≤ first then
    match digits with
    | [] => []
    | [digit] => digit :: exponentText first
    | digit :: others => digit :: 0x2E :: (others ++ exponentText first)
  else if first < 0 then
    "0." ++ Bytes.filled (-first - 1).toNat 0x30 ++ digits
  else
    let whole := first.toNat + 1
    if digits.length ≤ whole then digits ++ Bytes.filled (whole - digits.length) 0x30
    else digits.take whole ++ 0x2E :: digits.drop whole

end Decimal

namespace Binary64

/-- The text of a double in a layout: shortest digits, `-0` for the negative zero, signed
infinities. -/
def text (layout : Decimal.Layout) (value : Float) : Bytes :=
  match shape value with
  | .undefined => "NaN"
  | .infinite negative => if negative then "-Inf" else "+Inf"
  | .finite negative mantissa exponent =>
      (if negative then "-" else "") ++ (Decimal.shortest mantissa exponent).text layout

end Binary64

end ScriptCompiler
