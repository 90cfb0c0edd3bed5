/-!
# The shortest decimal of a binary number

A floating-point number stands for the reals that are rounded to it. Among the decimals with the
fewest digits of which one lies in that interval, the one nearest to the number is its shortest
decimal. Two of them can be equally near, and which one is taken then is a matter of convention. All
comparisons are made between natural numbers, over a common denominator.
-/

namespace PlanChart

/-- A decimal: its digits, read as a number, times a power of ten. -/
structure Decimal where
  digits : Nat
  exponent : Int
  deriving DecidableEq, Repr, Inhabited

/-- Which of two decimals that are equally near to a number is taken. -/
inductive TieBreak
  /-- The one whose last digit is even. -/
  | even
  /-- The one that is farther from zero. -/
  | up
  deriving DecidableEq, Repr

/-- Whether the lower of two neighbouring multiples of a unit is taken, given how many units it
is. -/
def TieBreak.takesLower (tie : TieBreak) (below : Nat) : Bool :=
  match tie with
  | .even => below % 2 == 0
  | .up => false

/-- What a floating-point number is, apart from its sign. -/
inductive Magnitude
  /-- A multiple of a power of two. -/
  | finite (significand : Nat) (exponent : Int)
  | infinite
  | notANumber
  deriving DecidableEq, Repr

namespace Decimal

/-- The number of decimal digits of a number; zero has none. -/
def digitCount (n : Nat) : Nat :=
  if n = 0 then 0 else (Nat.toDigits 10 n).length

/-- The fraction in which a power of a base multiplies a number. -/
def scale (base : Nat) (exponent : Int) (n : Nat) : Nat × Nat :=
  if 0 ≤ exponent then (n * Nat.pow base exponent.toNat, 1)
  else (n, Nat.pow base (-exponent).toNat)

/-- The exponent of the highest power of ten that is not above a positive fraction. -/
def leadingExponent (numerator denominator : Nat) : Int :=
  if denominator ≤ numerator then (digitCount (numerator / denominator) : Int) - 1
  else -(digitCount ((denominator + numerator - 1) / numerator - 1) : Int)

/-- Give up the zeros at the end of the digits, at most the given number of them. -/
def trimZeros : Nat → Decimal → Decimal
  | 0, decimal => decimal
  | limit + 1, decimal =>
    if decimal.digits % 10 = 0 then trimZeros limit ⟨decimal.digits / 10, decimal.exponent + 1⟩
    else decimal

/-- The reals that are rounded to a number, as numerators over a common denominator. The ends belong
to them when the number's significand is even. -/
structure Interval where
  low : Nat
  value : Nat
  high : Nat
  denominator : Nat
  closed : Bool

/-- Whether a multiple of a power of ten is rounded to the number. -/
def Interval.holds (interval : Interval) (digits : Nat) (exponent : Int) : Bool :=
  let (n, d) := scale 10 exponent digits
  let point := n * interval.denominator
  if interval.closed then interval.low * d ≤ point && point ≤ interval.high * d
  else interval.low * d < point && point < interval.high * d

/-- The multiple of a power of ten that is rounded to the number, if there is one; of two the
nearer. -/
def Interval.nearest? (interval : Interval) (tie : TieBreak) (exponent : Int) : Option Nat :=
  let (n, d) := scale 10 exponent 1
  let unit := n * interval.denominator
  let below := interval.value * d / unit
  let rest := interval.value * d % unit
  let candidates :=
    if 2 * rest < unit || (2 * rest = unit && tie.takesLower below) then [below, below + 1]
    else [below + 1, below]
  candidates.find? fun digits => 0 < digits && interval.holds digits exponent

/-- The shortest decimal with at least the given number of digits, of which there is one with at
most as many more as the limit says. -/
def search (tie : TieBreak) (interval : Interval) (lead : Int) : Nat → Nat → Decimal
  | 0, _ => ⟨0, 0⟩
  | limit + 1, count =>
    let exponent := lead - (count : Int) + 1
    match interval.nearest? tie exponent with
    | some digits => trimZeros count ⟨digits, exponent⟩
    | none => search tie interval lead limit (count + 1)

/-- The shortest decimal of a multiple of a power of two with 53 binary digits. The numbers below a
power of two lie twice as close as those above it. -/
def shortest (tie : TieBreak) (significand : Nat) (exponent : Int) : Decimal :=
  if significand = 0 then ⟨0, 0⟩
  else
    let halved := significand == Nat.pow 2 52 && decide (-1074 < exponent)
    let (n, d) := scale 2 (exponent - 2) 1
    let interval : Interval :=
      { low := (4 * significand - if halved then 1 else 2) * n
        value := 4 * significand * n
        high := (4 * significand + 2) * n
        denominator := d
        closed := significand % 2 == 0 }
    search tie interval (leadingExponent interval.value d) 17 1

/-- The exponent of the first digit. -/
def lead (decimal : Decimal) : Int :=
  (digitCount decimal.digits : Int) - 1 + decimal.exponent

/-- The decimal without an exponent, with at least one digit on each side of the point. -/
def plain (decimal : Decimal) : String :=
  let digits := Nat.toDigits 10 decimal.digits
  if 0 ≤ decimal.exponent then
    String.ofList (digits ++ List.replicate decimal.exponent.toNat '0') ++ ".0"
  else
    let places := (-decimal.exponent).toNat
    let padded := List.replicate (places + 1 - digits.length) '0' ++ digits
    let whole := padded.length - places
    String.ofList (padded.take whole) ++ "." ++ String.ofList (padded.drop whole)

/-- The decimal with one digit before the point and an exponent with its sign. -/
def scientific (decimal : Decimal) : String :=
  let (first, others) := (Nat.toDigits 10 decimal.digits).splitAt 1
  let fraction := if others.isEmpty then "" else "." ++ String.ofList others
  let sign := if 0 ≤ decimal.lead then "+" else "-"
  String.ofList first ++ fraction ++ "e" ++ sign ++ toString decimal.lead.natAbs

/-- The decimal without an exponent unless its first digit stands far from the point. -/
def concise (decimal : Decimal) : String :=
  if -5 ≤ decimal.lead ∧ decimal.lead ≤ 15 then decimal.plain else decimal.scientific

end Decimal

/-- The parts of a floating-point number: whether it is negative, and its magnitude. -/
def Magnitude.ofFloat (x : Float) : Bool × Magnitude :=
  let bits : Nat := x.toBits.toNat
  let negative := bits / Nat.pow 2 63 % 2 == 1
  let biased : Nat := bits / Nat.pow 2 52 % Nat.pow 2 11
  let fraction : Nat := bits % Nat.pow 2 52
  let magnitude :=
    if biased = 2047 then if fraction = 0 then .infinite else .notANumber
    else if biased = 0 then .finite fraction (-1074)
    else .finite (Nat.pow 2 52 + fraction) ((biased : Int) - 1075)
  (negative, magnitude)

/-- A floating-point number as text: its shortest decimal, written as the given function writes
it. -/
def Decimal.showFloat (tie : TieBreak) (write : Decimal → String) (x : Float) : String :=
  match Magnitude.ofFloat x with
  | (_, .notANumber) => "NaN"
  | (negative, .infinite) => if negative then "-inf" else "inf"
  | (negative, .finite significand exponent) =>
    (if negative then "-" else "") ++ write (Decimal.shortest tie significand exponent)

end PlanChart
