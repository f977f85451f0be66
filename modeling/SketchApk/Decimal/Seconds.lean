import SketchApk.Text.Number

/-!
# Durations in seconds with three places

A duration is a number of nanoseconds. It is shown in seconds with three places after the point.
The number of seconds is first formed in binary arithmetic with a significand of fifty-three bits:
the whole seconds and the fraction are rounded separately, then their sum is rounded. The result
is rounded once more, exactly, to thousandths. Every rounding is to the nearest value, and a tie
goes to the even neighbour.

Nonnegative rational numbers are pairs of a numerator and a positive denominator.
-/

namespace SketchApk.Decimal

/-- A quotient rounded to the nearest whole number, ties to even. -/
def roundHalfEven (numerator denominator : Nat) : Nat :=
  let quotient := numerator / denominator
  let remainder := numerator % denominator
  if 2 * remainder < denominator then quotient
  else if denominator < 2 * remainder then quotient + 1
  else if quotient % 2 = 0 then quotient
  else quotient + 1

/-- A nonnegative rational number. -/
structure Ratio where
  numerator : Nat
  denominator : Nat

/-- The ratio times a power of two. -/
def Ratio.scale (r : Ratio) : Int → Ratio
  | .ofNat n => ⟨r.numerator <<< n, r.denominator⟩
  | .negSucc n => ⟨r.numerator, r.denominator <<< (n + 1)⟩

/-- The sum of two ratios. -/
def Ratio.add (r s : Ratio) : Ratio :=
  ⟨r.numerator * s.denominator + s.numerator * r.denominator, r.denominator * s.denominator⟩

/-- The nearest ratio whose significand has at most fifty-three bits. -/
def Ratio.toBinary (r : Ratio) : Ratio :=
  if r.numerator = 0 then ⟨0, 1⟩
  else
    let guess : Int := Nat.log2 r.numerator - Nat.log2 r.denominator - 53
    let scaled := r.scale (-guess)
    let exponent := if 1 <<< 53 ≤ scaled.numerator / scaled.denominator then guess + 1 else guess
    let significand := r.scale (-exponent)
    Ratio.scale ⟨roundHalfEven significand.numerator significand.denominator, 1⟩ exponent

/-- The number of nanoseconds in a second. -/
def nanosPerSecond : Nat := 1000000000

/-- The number of seconds of a duration, as binary arithmetic forms it. -/
def seconds (nanos : Nat) : Ratio :=
  let whole := (Ratio.mk (nanos / nanosPerSecond) 1).toBinary
  let fraction := (Ratio.mk (nanos % nanosPerSecond) nanosPerSecond).toBinary
  (whole.add fraction).toBinary

/-- A ratio written with three places after the point. -/
def threePlaces (r : Ratio) : List Char :=
  let thousandths := roundHalfEven (r.numerator * 1000) r.denominator
  Text.decimal (thousandths / 1000) ++ '.' :: Text.decimalPadded 3 (thousandths % 1000)

/-- A duration in seconds with three places, at least nine characters wide. -/
def secondsColumn (nanos : Nat) : List Char :=
  Text.padStart ' ' 9 (threePlaces (seconds nanos))

end SketchApk.Decimal
