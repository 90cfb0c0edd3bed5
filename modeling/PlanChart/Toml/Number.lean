import PlanChart.Toml.Basic
import PlanChart.Toml.Scanner

/-!
# Numbers and dates of a TOML text

Integers have at most 64 bits. They are written in decimal or, without a sign, in one of three other
bases. Digits may be grouped by underscores. Dates and times must exist, but which one is written is
not kept.
-/

namespace PlanChart.Toml

/-! ### Numbers -/

/-- Read the digits that follow a digit, leaving out the underscores between them. -/
def scanMoreDigits (isDigit : Char → Bool) : Scan (List Char)
  | [] => some ([], [])
  | ['_'] => none
  | '_' :: c :: rest =>
    if isDigit c then (scanMoreDigits isDigit rest).map fun (digits, rest) => (c :: digits, rest)
    else none
  | c :: rest =>
    if isDigit c then (scanMoreDigits isDigit rest).map fun (digits, rest) => (c :: digits, rest)
    else some ([], c :: rest)

/-- Read digits, of which there must be at least one. -/
def scanDigits (isDigit : Char → Bool) : Scan (List Char)
  | [] => none
  | c :: rest =>
    if isDigit c then (scanMoreDigits isDigit rest).map fun (digits, rest) => (c :: digits, rest)
    else none

/-- Read decimal digits without zeros in front. -/
def scanWhole : Scan (List Char)
  | '0' :: rest => some (['0'], rest)
  | text => scanDigits Char.isDigit text

/-- The value of digits in a base of at most sixteen. -/
def digitsValue (base : Nat) (digits : List Char) : Nat :=
  digits.foldl (fun value c => value * base + (Hex.value? c).getD 0) 0

/-- An integer, if it has at most 64 bits. -/
def integer? (value : Int) : Option Toml :=
  if -(Nat.pow 2 63 : Int) ≤ value ∧ value < Nat.pow 2 63 then some (.integer value) else none

/-- Read the digits of an integer that is not negative, in a base of at most sixteen. -/
def scanBase (base : Nat) (text : List Char) : Option (Toml × List Char) := do
  let isDigit (c : Char) : Bool := (Hex.value? c).any fun value => value < base
  let (digits, rest) ← scanDigits isDigit text
  let value ← integer? (digitsValue base digits)
  some (value, rest)

/-- A number of floating point, from its digits and the power of ten that multiplies them. What lies
far outside the range needs no calculation. -/
def compose (digits : List Char) (exponent : Int) : Float :=
  let value := digitsValue 10 digits
  let magnitude := exponent + digits.length
  if value = 0 || magnitude < -400 then 0.0
  else if 400 + digits.length < magnitude then 1.0 / 0.0
  else Float.ofScientific value (exponent < 0) exponent.natAbs

/-- Read the digits after a point, if there is one. Without a point there are none. -/
def scanFraction : Scan (List Char)
  | '.' :: rest => scanDigits Char.isDigit rest
  | text => some ([], text)

/-- Read a number without a sign and without a limit. -/
def scanNatural (text : List Char) : Option (Nat × List Char) :=
  (scanDigits Char.isDigit text).map fun (digits, rest) => (digitsValue 10 digits, rest)

/-- Read a number that may have a sign. -/
def scanSigned : Scan Int
  | '-' :: rest => (scanNatural rest).map fun (value, rest) => (-(value : Int), rest)
  | '+' :: rest => (scanNatural rest).map fun (value, rest) => (value, rest)
  | rest => (scanNatural rest).map fun (value, rest) => (value, rest)

/-- Read an exponent, if there is one. -/
def scanExponent : Scan (Option Int)
  | 'e' :: rest => (scanSigned rest).map fun (value, rest) => (some value, rest)
  | 'E' :: rest => (scanSigned rest).map fun (value, rest) => (some value, rest)
  | text => some (none, text)

/-- A number of floating point with its sign. It must not grow out of range above. -/
def signedReal? (negative : Bool) (value : Float) : Option Toml :=
  if negative then some (.real (-value))
  else if value.isInf then none
  else some (.real value)

/-- Read a decimal number after its sign. It is an integer if it has neither a fraction nor an
exponent. -/
def scanDecimal (negative : Bool) (text : List Char) : Option (Toml × List Char) := do
  let (whole, rest) ← scanWhole text
  let (fraction, rest) ← scanFraction rest
  let (exponent, rest) ← scanExponent rest
  if fraction.isEmpty && exponent.isNone then
    let value : Int := digitsValue 10 whole
    let value ← integer? (if negative then -value else value)
    some (value, rest)
  else
    let value := compose (whole ++ fraction) (exponent.getD 0 - fraction.length)
    let value ← signedReal? negative value
    some (value, rest)

/-- Read a number after its sign, or a word in place of one. -/
def scanUnsigned (negative : Bool) : Scan Toml
  | 'i' :: 'n' :: 'f' :: rest => some (.real (if negative then -1.0 / 0.0 else 1.0 / 0.0), rest)
  | 'n' :: 'a' :: 'n' :: rest => some (.real (0.0 / 0.0), rest)
  | text => scanDecimal negative text

/-- Read a number. -/
def scanNumber : Scan Toml
  | '-' :: rest => scanUnsigned true rest
  | '+' :: rest => scanUnsigned false rest
  | '0' :: 'x' :: rest => scanBase 16 rest
  | '0' :: 'o' :: rest => scanBase 8 rest
  | '0' :: 'b' :: rest => scanBase 2 rest
  | text => scanUnsigned false text

/-! ### Dates and times -/

/-- Read a number of so many digits that lies between two others. -/
def scanField (count low high : Nat) (text : List Char) : Option (Nat × List Char) :=
  let digits := text.take count
  let value := digitsValue 10 digits
  if digits.length = count ∧ digits.all Char.isDigit ∧ low ≤ value ∧ value ≤ high then
    some (value, text.drop count)
  else none

/-- Pass over a character that must be there. -/
def skipChar (expected : Char) : List Char → Option (List Char)
  | c :: rest => if c = expected then some rest else none
  | [] => none

/-- The number of days of a month. -/
def monthLength (year month : Nat) : Nat :=
  if month = 2 then
    if year % 4 = 0 ∧ (year % 100 ≠ 0 ∨ year % 400 = 0) then 29 else 28
  else if month = 4 ∨ month = 6 ∨ month = 9 ∨ month = 11 then 30
  else 31

/-- Pass over a date. -/
def skipDate (text : List Char) : Option (List Char) := do
  let (year, rest) ← scanField 4 0 9999 text
  let (month, rest) ← scanField 2 1 12 (← skipChar '-' rest)
  let (_, rest) ← scanField 2 1 (monthLength year month) (← skipChar '-' rest)
  some rest

/-- Pass over the fraction of a second, if there is one. -/
def skipFraction : List Char → List Char
  | '.' :: c :: rest => if c.isDigit then rest.dropWhile Char.isDigit else '.' :: c :: rest
  | text => text

/-- Pass over a time. -/
def skipTime (text : List Char) : Option (List Char) := do
  let (_, rest) ← scanField 2 0 23 text
  let (_, rest) ← scanField 2 0 59 (← skipChar ':' rest)
  let (_, rest) ← scanField 2 0 60 (← skipChar ':' rest)
  some (skipFraction rest)

/-- Pass over the distance of a time from that of the zero meridian, if there is one. -/
def skipOffset (text : List Char) : Option (List Char) :=
  match text with
  | [] => some []
  | c :: rest =>
    if c = 'Z' || c = 'z' then some rest
    else if c = '+' || c = '-' then do
      let (_, rest) ← scanField 2 0 23 rest
      let (_, rest) ← scanField 2 0 59 (← skipChar ':' rest)
      some rest
    else some text

/-- Pass over a date, a time or both. -/
def skipMoment (text : List Char) : Option (List Char) :=
  match skipDate text with
  | none => skipTime text
  | some [] => some []
  | some (c :: rest) =>
    if c = 'T' || c = 't' || c = ' ' then
      match skipTime rest with
      | none => some (c :: rest)
      | some rest => skipOffset rest
    else some (c :: rest)

/-- Read a number, a date or a time. -/
def scanQuantity (text : List Char) : Option (Toml × List Char) :=
  match skipMoment text with
  | some rest => some (.moment, rest)
  | none => scanNumber text

end PlanChart.Toml
