import PlanChart.Json.Fault
import PlanChart.Text.Hex

/-!
# Scanning JSON

The smallest parts of a JSON text: blank space, words, strings and numbers. A reader takes what is
left of the text and gives the value it has read together with what is left after it.

A string is scanned character by character. What a character means depends on those before it, so
the scan remembers which part of an escape it stands in.
-/

namespace PlanChart.Json

/-- What reading the start of a text gives: a value and the rest of the text, or a failure. -/
abbrev Reading (α : Type) := Except Failure (α × List Char)

/-- A way to read a value at the start of a text. The number is a bound on the length of the text;
what a reader repeats it repeats at most so often. -/
abbrev Reader (α : Type) := Nat → List Char → Reading α

/-- The characters that may stand between the parts of a JSON text. -/
def isBlank (c : Char) : Bool :=
  c = ' ' || c = '\t' || c = '\n' || c = '\r'

/-- A text without the blank characters at its start. -/
def skipBlank (text : List Char) : List Char :=
  text.dropWhile isBlank

/-- Read the rest of a word. -/
def scanWord : List Char → List Char → Except Failure (List Char)
  | [], rest => .ok rest
  | _ :: _, [] => .error (.before .endInValue [])
  | expected :: word, c :: rest =>
    if c = expected then scanWord word rest else .error (.here .expectedWord (c :: rest))

/-! ### Strings -/

/-- The character an escape of one letter stands for. -/
def letterEscape? : Char → Option Char
  | '"' => some '"'
  | '\\' => some '\\'
  | '/' => some '/'
  | 'b' => some '\x08'
  | 'f' => some '\x0c'
  | 'n' => some '\n'
  | 'r' => some '\r'
  | 't' => some '\t'
  | _ => none

/-- The first halves of the pairs that stand for code points above `0xFFFF`. -/
def isHighSurrogate (n : Nat) : Bool :=
  0xD800 ≤ n && n ≤ 0xDBFF

/-- The second halves of the pairs that stand for code points above `0xFFFF`. -/
def isLowSurrogate (n : Nat) : Bool :=
  0xDC00 ≤ n && n ≤ 0xDFFF

/-- The character of a pair of surrogates. -/
def surrogatePair (high low : Nat) : Char :=
  Char.ofNat (0x10000 + (high - 0xD800) * 0x400 + (low - 0xDC00))

/-- Where a scan stands inside a string. -/
inductive StringState
  /-- Between characters. -/
  | plain
  /-- After a backslash. -/
  | escape
  /-- After some of the four digits of a code unit, whose value they make up so far. The first half
  of a pair may stand before it. -/
  | unit (high : Option Nat) (digits value : Nat)
  /-- After the first half of a pair, before the backslash of the second. -/
  | pairBackslash (high : Nat)
  /-- After the first half of a pair, before the letter of the second. -/
  | pairLetter (high : Nat)
  deriving DecidableEq, Repr

/-- The failure at a character that is no digit of a code unit, after some of its four digits. The
four bytes of a code unit are taken together, whatever they are. -/
def badUnit (digits : Nat) (rest : List Char) : Failure :=
  if digits + byteCount rest < 4 then .before .endInString []
  else ⟨.invalidEscape, rest, 4 - digits⟩

/-- Read the rest of a string whose characters so far are given, the last one first. -/
def scanString (state : StringState) (read : List Char) : List Char → Reading String
  | [] => .error (.before .endInString [])
  | c :: rest =>
    match state with
    | .plain =>
      if c = '"' then .ok (String.ofList read.reverse, rest)
      else if c = '\\' then scanString .escape read rest
      else if c < ' ' then .error (.here .controlCharacter (c :: rest))
      else scanString .plain (c :: read) rest
    | .escape =>
      if c = 'u' then scanString (.unit none 0 0) read rest
      else
        match letterEscape? c with
        | some character => scanString .plain (character :: read) rest
        | none => .error (.here .invalidEscape (c :: rest))
    | .unit high digits value =>
      match Hex.value? c with
      | none => .error (badUnit digits (c :: rest))
      | some digit =>
        let value := value * 16 + digit
        if digits < 3 then scanString (.unit high (digits + 1) value) read rest
        else
          match high with
          | some high =>
            if isLowSurrogate value then
              scanString .plain (surrogatePair high value :: read) rest
            else .error (.before .loneSurrogate rest)
          | none =>
            if isLowSurrogate value then .error (.before .loneSurrogate rest)
            else if isHighSurrogate value then scanString (.pairBackslash value) read rest
            else scanString .plain (Char.ofNat value :: read) rest
    | .pairBackslash high =>
      if c = '\\' then scanString (.pairLetter high) read rest
      else .error (.here .unfinishedSurrogate (c :: rest))
    | .pairLetter high =>
      if c = 'u' then scanString (.unit (some high) 0 0) read rest
      else .error (.here .unfinishedSurrogate (c :: rest))

/-- Where a scan stands inside a string whose characters do not matter. -/
inductive SkipState
  /-- Between characters. -/
  | plain
  /-- After a backslash. -/
  | escape
  /-- After some of the four digits of a code unit. -/
  | unit (digits : Nat)
  deriving DecidableEq, Repr

/-- Pass over the rest of a string. Its escapes must be well formed, but code units need not make up
characters. -/
def skipString (state : SkipState) : List Char → Except Failure (List Char)
  | [] => .error (.before .endInString [])
  | c :: rest =>
    match state with
    | .plain =>
      if c = '"' then .ok rest
      else if c = '\\' then skipString .escape rest
      else if c < ' ' then .error (.before .controlCharacter (c :: rest))
      else skipString .plain rest
    | .escape =>
      if c = 'u' then skipString (.unit 0) rest
      else if (letterEscape? c).isSome then skipString .plain rest
      else .error (.here .invalidEscape (c :: rest))
    | .unit digits =>
      if (Hex.value? c).isNone then .error (badUnit digits (c :: rest))
      else if digits < 3 then skipString (.unit (digits + 1)) rest
      else skipString .plain rest

end PlanChart.Json
