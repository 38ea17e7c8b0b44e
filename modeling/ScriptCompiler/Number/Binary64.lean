/-!
# Binary floating-point numbers

A double is taken apart into a sign, a natural mantissa and a power of two, and a ratio of natural
numbers is rounded to the nearest double, a tie going to the even mantissa.  The remainder of two
doubles is computed on mantissas and is therefore exact.
-/

namespace ScriptCompiler.Binary64

/-- What a double denotes. -/
inductive Shape where
  /-- Not a number. -/
  | undefined
  /-- An infinity. -/
  | infinite (negative : Bool)
  /-- The number `mantissa * 2 ^ exponent`, negated if `negative`. -/
  | finite (negative : Bool) (mantissa : Nat) (exponent : Int)
  deriving DecidableEq, Repr

/-- The mantissa of the smallest double with a full-width mantissa. -/
def hiddenBit : Nat := Nat.pow 2 52

/-- The exponent of the smallest doubles. -/
def leastExponent : Int := -1074

/-- What a double denotes. -/
def shape (value : Float) : Shape :=
  let bits := value.toBits.toNat
  let negative := bits / Nat.pow 2 63 == 1
  let biased := bits / hiddenBit % 2048
  let fraction := bits % hiddenBit
  if biased == 2047 then if fraction == 0 then .infinite negative else .undefined
  else if biased == 0 then .finite negative fraction leastExponent
  else .finite negative (hiddenBit + fraction) (biased - 1075)

/-- The double with the given sign and magnitude bits. -/
def ofMagnitude (negative : Bool) (bits : Nat) : Float :=
  Float.ofBits (UInt64.ofNat (if negative then Nat.pow 2 63 + bits else bits))

/-- The magnitude bits of an infinity. -/
def infinityBits : Nat := 2047 * hiddenBit

/-- A quotient rounded to the nearest natural number, a tie going to the even one. -/
def roundQuotient (numerator denominator : Nat) : Nat :=
  let quotient := numerator / denominator
  let doubled := numerator % denominator * 2
  if denominator < doubled || (doubled == denominator && quotient % 2 == 1) then quotient + 1
  else quotient

/-- The numerator and denominator of `numerator / denominator / 2 ^ exponent`. -/
def scaled (numerator denominator : Nat) (exponent : Int) : Nat × Nat :=
  (numerator * Nat.pow 2 (-exponent).toNat, denominator * Nat.pow 2 exponent.toNat)

/-- The bits of the double nearest to a ratio with a positive denominator; a ratio beyond the
largest double gives at least `infinityBits`. -/
def nearestBits (numerator denominator : Nat) : Nat :=
  if numerator == 0 then 0
  else
    let low : Int := (Nat.log2 numerator : Int) - Nat.log2 denominator - 53
    let trial := scaled numerator denominator low
    let exponent := max (if trial.1 / trial.2 < Nat.pow 2 53 then low else low + 1) leastExponent
    let ratio := scaled numerator denominator exponent
    let mantissa := roundQuotient ratio.1 ratio.2
    if mantissa < hiddenBit then mantissa
    else (exponent + 1075).toNat * hiddenBit + (mantissa - hiddenBit)

/-- The double nearest to a ratio, unless the ratio is too large. -/
def ofRatio? (negative : Bool) (numerator denominator : Nat) : Option Float :=
  let bits := nearestBits numerator denominator
  if bits < infinityBits then some (ofMagnitude negative bits) else none

/-- The remainder of a division truncated toward zero, with the sign of the dividend.  It is
undefined for a zero divisor and an infinite dividend; an infinite divisor leaves the dividend. -/
def remainder (dividend divisor : Float) : Float :=
  match shape dividend, shape divisor with
  | .finite negative left leftExponent, .finite _ right rightExponent =>
      if right == 0 then Float.ofBits 0x7FF8000000000000
      else
        let exponent := min leftExponent rightExponent
        let rest := left * Nat.pow 2 (leftExponent - exponent).toNat %
          (right * Nat.pow 2 (rightExponent - exponent).toNat)
        let ratio := scaled rest 1 (-exponent)
        ofMagnitude negative (nearestBits ratio.1 ratio.2)
  | .finite _ _ _, .infinite _ => dividend
  | _, _ => Float.ofBits 0x7FF8000000000000

end ScriptCompiler.Binary64
