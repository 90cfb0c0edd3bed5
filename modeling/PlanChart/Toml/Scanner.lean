import PlanChart.Text.Hex

/-!
# Scanning TOML

The smallest parts of a TOML text: space, comments, strings and keys. A scan takes what is left of
the text and gives what it has read together with what is left after it. A text that is not valid
has no meaning at all, so a scan that fails tells nothing more.
-/

namespace PlanChart.Toml

/-- A way to read the start of a text: a value and the rest of the text, or a failure. -/
abbrev Scan (α : Type) := List Char → Option (α × List Char)

/-- The characters that may stand between the parts of a line. -/
def isSpace (c : Char) : Bool :=
  c = ' ' || c = '\t'

/-- A text without the space at its start. -/
def skipSpace (text : List Char) : List Char :=
  text.dropWhile isSpace

/-- The characters that may stand for themselves in a line: all but the control characters. The tab
is none of these. -/
def isPlain (c : Char) : Bool :=
  c = '\t' || (' ' ≤ c && c ≠ '\x7f')

/-- The text with every line break written as one character. A carriage return that stays is no part
of a valid text. -/
def joinBreaks : List Char → List Char
  | [] => []
  | '\r' :: '\n' :: rest => '\n' :: joinBreaks rest
  | c :: rest => c :: joinBreaks rest

/-- Pass over a comment, if there is one, up to the end of the line. -/
def skipComment : List Char → List Char
  | '#' :: rest => rest.dropWhile isPlain
  | text => text

/-- Pass over the end of a line, in front of which there may be a comment. -/
def skipLineEnd (text : List Char) : Option (List Char) :=
  match skipComment (skipSpace text) with
  | [] => some []
  | '\n' :: rest => some rest
  | _ => none

/-- Pass over space, line breaks and comments. The flag tells whether the text starts in the midst
of a comment. -/
def skipFiller (inComment : Bool) : List Char → List Char
  | [] => []
  | c :: rest =>
    if c = '\n' then skipFiller false rest
    else if inComment then if isPlain c then skipFiller true rest else c :: rest
    else if isSpace c then skipFiller false rest
    else if c = '#' then skipFiller true rest
    else c :: rest

/-! ### Strings -/

/-- How far an escape has been read. -/
inductive Escape
  /-- Up to the backslash. -/
  | start
  /-- Up to some digits of a code point. How many are left is given, and the value of the others. -/
  | codePoint (left value : Nat)
  deriving DecidableEq, Repr

/-- The character an escape of one letter stands for. -/
def letterEscape? : Char → Option Char
  | 'b' => some '\x08'
  | 't' => some '\t'
  | 'n' => some '\n'
  | 'f' => some '\x0c'
  | 'r' => some '\r'
  | '"' => some '"'
  | '\\' => some '\\'
  | _ => none

/-- What an escape is with one character more: the character it stands for, or an escape that is not
complete yet. -/
def Escape.step : Escape → Char → Option (Char ⊕ Escape)
  | .start, 'u' => some (.inr (.codePoint 4 0))
  | .start, 'U' => some (.inr (.codePoint 8 0))
  | .start, c => (letterEscape? c).map .inl
  | .codePoint left value, c =>
    match Hex.value? c with
    | none => none
    | some digit =>
      let value := value * 16 + digit
      if 1 < left then some (.inr (.codePoint (left - 1) value))
      else if value.isValidChar then some (.inl (Char.ofNat value))
      else none

/-- Read the rest of a string in double quotes whose characters so far are given, the last one
first. They may end in the midst of an escape. -/
def scanBasic (escape : Option Escape) (read : List Char) : Scan String
  | [] => none
  | c :: rest =>
    match escape with
    | some escape =>
      match escape.step c with
      | none => none
      | some (.inl character) => scanBasic none (character :: read) rest
      | some (.inr escape) => scanBasic (some escape) read rest
    | none =>
      if c = '"' then some (String.ofList read.reverse, rest)
      else if c = '\\' then scanBasic (some .start) read rest
      else if isPlain c then scanBasic none (c :: read) rest
      else none

/-- Read the rest of a string in single quotes, where no character has a meaning of its own. -/
def scanLiteral (text : List Char) : Option (String × List Char) :=
  let isInside (c : Char) : Bool := isPlain c && c ≠ '\x27'
  match text.dropWhile isInside with
  | '\x27' :: rest => some (String.ofList (text.takeWhile isInside), rest)
  | _ => none

/-- Where a scan stands inside a string of several lines in double quotes. -/
inductive LongState
  /-- Between characters. -/
  | plain
  /-- Inside an escape. -/
  | escape (escape : Escape)
  /-- After a backslash and space, before the end of the line. -/
  | beforeBreak
  /-- After a backslash and a line break. Blank characters are passed over. -/
  | afterBreak
  deriving DecidableEq, Repr

/-- The state after a character that belongs to an escape, with the character that the escape stands
for if it is complete. A backslash at the end of a line stands for no character. -/
def LongState.step (escape : Escape) (c : Char) : Option (LongState × List Char) :=
  match escape.step c with
  | some (.inl character) => some (.plain, [character])
  | some (.inr escape) => some (.escape escape, [])
  | none =>
    if escape ≠ .start then none
    else if isSpace c then some (.beforeBreak, [])
    else if c = '\n' then some (.afterBreak, [])
    else none

/-- Read the rest of a string of several lines in double quotes. Three of them end it, and one or
two more in front of these belong to it. -/
def scanLongBasic (state : LongState) (read : List Char) : Scan String
  | [] => none
  | c :: rest =>
    match state with
    | .escape escape =>
      match LongState.step escape c with
      | none => none
      | some (state, characters) => scanLongBasic state (characters ++ read) rest
    | .beforeBreak =>
      if isSpace c then scanLongBasic .beforeBreak read rest
      else if c = '\n' then scanLongBasic .afterBreak read rest
      else none
    | state =>
      if c = '"' then
        match rest with
        | '"' :: '"' :: '"' :: '"' :: rest =>
          some (String.ofList ('"' :: '"' :: read).reverse, rest)
        | '"' :: '"' :: '"' :: rest => some (String.ofList ('"' :: read).reverse, rest)
        | '"' :: '"' :: rest => some (String.ofList read.reverse, rest)
        | rest => scanLongBasic .plain ('"' :: read) rest
      else if c = '\\' then scanLongBasic (.escape .start) read rest
      else if c = '\n' || isSpace c then
        if state = .afterBreak then scanLongBasic .afterBreak read rest
        else scanLongBasic .plain (c :: read) rest
      else if isPlain c then scanLongBasic .plain (c :: read) rest
      else none

/-- Read the rest of a string of several lines in single quotes. Three of them end it, and one or
two more in front of these belong to it. -/
def scanLongLiteral (read : List Char) : Scan String
  | [] => none
  | '\x27' :: '\x27' :: '\x27' :: '\x27' :: '\x27' :: rest =>
    some (String.ofList ('\x27' :: '\x27' :: read).reverse, rest)
  | '\x27' :: '\x27' :: '\x27' :: '\x27' :: rest =>
    some (String.ofList ('\x27' :: read).reverse, rest)
  | '\x27' :: '\x27' :: '\x27' :: rest => some (String.ofList read.reverse, rest)
  | c :: rest => if c = '\n' || isPlain c then scanLongLiteral (c :: read) rest else none

/-- A text without the line break at its start, if there is one. A string of several lines may start
with one that does not belong to it. -/
def dropBreak : List Char → List Char
  | '\n' :: rest => rest
  | text => text

/-- Read a string of any of the four kinds. -/
def scanString : Scan String
  | '"' :: '"' :: '"' :: rest => scanLongBasic .plain [] (dropBreak rest)
  | '"' :: rest => scanBasic none [] rest
  | '\x27' :: '\x27' :: '\x27' :: rest => scanLongLiteral [] (dropBreak rest)
  | '\x27' :: rest => scanLiteral rest
  | _ => none

/-! ### Keys -/

/-- The characters of a key without quotes. -/
def isKeyPart (c : Char) : Bool :=
  c.isAlphanum || c = '_' || c = '-'

/-- Read a part of a dotted key. -/
def scanKeyPart : Scan String
  | '"' :: rest => scanBasic none [] rest
  | '\x27' :: rest => scanLiteral rest
  | text =>
    let part := text.takeWhile isKeyPart
    if part.isEmpty then none else some (String.ofList part, text.dropWhile isKeyPart)

/-- Read a dotted key with the space around its parts. It has at most as many parts as the limit
says. -/
def scanKeyParts : Nat → Scan (List String)
  | 0, _ => none
  | limit + 1, text => do
    let (part, rest) ← scanKeyPart (skipSpace text)
    match skipSpace rest with
    | '.' :: rest =>
      let (parts, rest) ← scanKeyParts limit rest
      some (part :: parts, rest)
    | rest => some ([part], rest)

/-- How deep brackets may be nested, and how many parts a key may have. -/
def depthLimit : Nat := 79

/-- Read a dotted key. -/
def scanKey : Scan (List String) :=
  scanKeyParts depthLimit

end PlanChart.Toml
