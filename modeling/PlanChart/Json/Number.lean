import PlanChart.Json.Scanner

/-!
# Numbers of a JSON text

A number without a fraction and an exponent that fits into 64 bits is an integer; all others are
floating-point numbers. Their digits are taken as far as they fit into 64 bits. The digits and the
power of ten are then combined by one floating-point operation, which need not give the number
nearest to the text.
-/

namespace PlanChart.Json

/-- The value of a decimal digit. -/
def digitValue (c : Char) : Nat :=
  c.toNat - '0'.toNat

/-- The digits at the start of a text as far as they fit into 64 bits together with a value before
them. The result is the new value, the number of digits and what is left. -/
def takeDigits (value count : Nat) : List Char → Nat × Nat × List Char
  | [] => (value, count, [])
  | c :: rest =>
    if c.isDigit && value * 10 + digitValue c < Nat.pow 2 64 then
      takeDigits (value * 10 + digitValue c) (count + 1) rest
    else (value, count, c :: rest)

/-- A text without the digits at its start. -/
def dropDigits (text : List Char) : List Char :=
  text.dropWhile Char.isDigit

/-- Whether a text starts with a digit. -/
def startsWithDigit : List Char → Bool
  | [] => false
  | c :: _ => c.isDigit

/-! ### Floating-point numbers -/

/-- A power of ten as a floating-point number. -/
def tenTo (exponent : Nat) : Float :=
  Float.ofScientific 1 false exponent

/-- A floating-point number times a power of ten, unless it grows out of range. Powers below the
smallest are applied in several steps, of which the given number is enough. -/
def timesTenTo (value : Float) : Nat → Int → Option Float
  | 0, _ => some value
  | limit + 1, exponent =>
    if exponent.natAbs ≤ 308 then
      if 0 ≤ exponent then
        let product := value * tenTo exponent.natAbs
        if product.isInf then none else some product
      else some (value / tenTo exponent.natAbs)
    else if value == 0 then some value
    else if 0 ≤ exponent then none
    else timesTenTo (value / tenTo 308) limit (exponent + 308)

/-- The number with the given sign, digits and exponent, read up to the given rest. -/
def composeReal (negative : Bool) (digits : Nat) (exponent : Int) (rest : List Char) :
    Reading Found :=
  match timesTenTo (UInt64.ofNat digits).toFloat 8 exponent with
  | none => .error (.before .numberOutOfRange rest)
  | some value => .ok (.real (if negative then -value else value), rest)

/-- Read the digits of an exponent after the first of them. An exponent that does not fit into 32
bits makes the number zero or takes it out of range. -/
def scanExponentDigits (negative : Bool) (digits : Nat) (start : Int) (negativeExponent : Bool)
    (value : Nat) : List Char → Reading Found
  | [] =>
    composeReal negative digits (if negativeExponent then start - value else start + value) []
  | c :: rest =>
    if c.isDigit then
      let value := value * 10 + digitValue c
      if value < Nat.pow 2 31 then
        scanExponentDigits negative digits start negativeExponent value rest
      else if digits ≠ 0 ∧ !negativeExponent then .error (.before .numberOutOfRange rest)
      else .ok (.real (if negative then -0.0 else 0.0), dropDigits rest)
    else
      composeReal negative digits (if negativeExponent then start - value else start + value)
        (c :: rest)

/-- Read an exponent after its letter. The digits before it and their own exponent are given. -/
def scanExponent (negative : Bool) (digits : Nat) (start : Int) (text : List Char) :
    Reading Found :=
  let (negativeExponent, text) : Bool × List Char :=
    match text with
    | '+' :: rest => (false, rest)
    | '-' :: rest => (true, rest)
    | _ => (false, text)
  match text with
  | [] => .error (.before .endInValue [])
  | c :: rest =>
    if c.isDigit then
      scanExponentDigits negative digits start negativeExponent (digitValue c) rest
    else .error (.here .invalidNumber (c :: rest))

/-- Read what may follow the digits of a floating-point number. -/
def scanAfterFraction (negative : Bool) (digits : Nat) (exponent : Int) (text : List Char) :
    Reading Found :=
  match text with
  | 'e' :: rest => scanExponent negative digits exponent rest
  | 'E' :: rest => scanExponent negative digits exponent rest
  | _ => composeReal negative digits exponent text

/-- Read a fraction after its point. -/
def scanFraction (negative : Bool) (digits : Nat) (exponent : Int) (text : List Char) :
    Reading Found :=
  let (digits, count, rest) := takeDigits digits 0 text
  if startsWithDigit rest then
    scanAfterFraction negative digits (exponent - count) (dropDigits rest)
  else if count = 0 then
    .error (.here (if rest.isEmpty then .endInValue else .invalidNumber) rest)
  else scanAfterFraction negative digits (exponent - count) rest

/-- The integer with the given sign and digits. A negative number beyond 64 bits and the negative
zero are floating-point numbers. -/
def composeInteger (negative : Bool) (digits : Nat) : Found :=
  if !negative then .integer digits
  else if digits = 0 ∨ Nat.pow 2 63 < digits then .real (-(UInt64.ofNat digits).toFloat)
  else .integer (-(digits : Int))

/-- Read what may follow the digits in front of the point. -/
def scanAfterInteger (negative : Bool) (digits : Nat) (text : List Char) : Reading Found :=
  match text with
  | '.' :: rest => scanFraction negative digits 0 rest
  | 'e' :: rest => scanExponent negative digits 0 rest
  | 'E' :: rest => scanExponent negative digits 0 rest
  | _ => .ok (composeInteger negative digits, text)

/-- Read what may follow the first digits that fit into 64 bits, more digits among it. -/
def scanLongInteger (negative : Bool) (digits : Nat) (text : List Char) : Reading Found :=
  let rest := dropDigits text
  let exponent : Int := ((text.takeWhile Char.isDigit).length : Nat)
  match rest with
  | '.' :: rest => scanFraction negative digits exponent rest
  | _ => scanAfterFraction negative digits exponent rest

/-- Read a number after its sign. -/
def scanNumber (negative : Bool) : List Char → Reading Found
  | [] => .error (.before .endInValue [])
  | c :: rest =>
    if c = '0' then
      if startsWithDigit rest then .error (.here .invalidNumber rest)
      else scanAfterInteger negative 0 rest
    else if c.isDigit then
      let (digits, _, rest) := takeDigits (digitValue c) 0 rest
      if startsWithDigit rest then scanLongInteger negative digits rest
      else scanAfterInteger negative digits rest
    else .error (.here .invalidNumber (c :: rest))

/-! ### Passing over numbers -/

/-- Pass over an exponent after its letter. -/
def skipExponent (text : List Char) : Except Failure (List Char) :=
  let text :=
    match text with
    | '+' :: rest => rest
    | '-' :: rest => rest
    | _ => text
  if startsWithDigit text then .ok (dropDigits text) else .error (.here .invalidNumber text)

/-- Pass over what may follow the digits of a fraction. -/
def skipAfterFraction (text : List Char) : Except Failure (List Char) :=
  match text with
  | 'e' :: rest => skipExponent rest
  | 'E' :: rest => skipExponent rest
  | _ => .ok text

/-- Pass over what may follow the digits in front of the point. -/
def skipAfterInteger (text : List Char) : Except Failure (List Char) :=
  match text with
  | '.' :: rest =>
    if startsWithDigit rest then skipAfterFraction (dropDigits rest)
    else .error (.here .invalidNumber rest)
  | _ => skipAfterFraction text

/-- Pass over a number after its sign. -/
def skipNumber : List Char → Except Failure (List Char)
  | [] => .error (.before .invalidNumber [])
  | c :: rest =>
    if c = '0' then
      if startsWithDigit rest then .error (.here .invalidNumber rest) else skipAfterInteger rest
    else if c.isDigit then skipAfterInteger (dropDigits rest)
    else .error (.here .invalidNumber (c :: rest))

end PlanChart.Json
