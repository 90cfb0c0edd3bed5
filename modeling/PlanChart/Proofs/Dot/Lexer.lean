import PlanChart.Text.Identifier
import PlanChart.Text.Markup
import PlanChart.Text.Quoted
import Mathlib

/-!
# Words of a document

A document is first cut into the words of its language. This is done character by character: what a
character means depends on where it stands, between words or inside one, and inside which kind of
word. Only words that plan documents are made of are known; at any other text the reading fails.
-/

namespace PlanChart.Dot

/-- The words that cannot be used as names. -/
inductive Keyword
  | node | edge | graph | digraph | subgraph | strict
  deriving DecidableEq, Repr

namespace Keyword

def word : Keyword → String
  | node     => "node"
  | edge     => "edge"
  | graph    => "graph"
  | digraph  => "digraph"
  | subgraph => "subgraph"
  | strict   => "strict"

def all : List Keyword := [node, edge, graph, digraph, subgraph, strict]

/-- The keyword that a word is, in some letter case. -/
def find? (word : List Char) : Option Keyword :=
  all.find? fun keyword => keyword.word.toList == word.map Char.toLower

end Keyword

inductive Token
  | name (text : String)
  | number (text : String)
  | keyword (keyword : Keyword)
  /-- A text between double quotes, after its escapes are undone. -/
  | quoted (text : String)
  /-- A text between angle brackets, which may hold further ones that match. -/
  | html (text : String)
  | openBrace | closeBrace | openBracket | closeBracket | equals | semicolon | arrow
  deriving DecidableEq, Repr

/-- Where the next character stands. The texts are those read so far. -/
inductive Mode
  | blank
  | word (text : List Char)
  | dash
  | quoted (text : List Char)
  | escaped (text : List Char)
  /-- Inside an HTML string, with a number of brackets open besides the outermost ones. -/
  | html (depth : Nat) (text : List Char)
  deriving DecidableEq, Repr

def isBlank (c : Char) : Bool :=
  c == ' ' || c == '\n' || c == '\r' || c == '\t'

def isWordPart (c : Char) : Bool :=
  c.isAlphanum || c == '_'

def ofMark? : Char → Option Token
  | '{' => some .openBrace
  | '}' => some .closeBrace
  | '[' => some .openBracket
  | ']' => some .closeBracket
  | '=' => some .equals
  | ';' => some .semicolon
  | _   => none

/-- The token of a word without quotes. One that starts with a digit must be a number. -/
def ofWord? (word : List Char) : Option Token :=
  match Keyword.find? word with
  | some keyword => some (.keyword keyword)
  | none =>
    if word.head?.any Char.isDigit then
      if word.all Char.isDigit then some (.number (String.ofList word)) else none
    else some (.name (String.ofList word))

/-- Read a character that stands between words. -/
def start (c : Char) : Option (List Token × Mode) :=
  if isBlank c then some ([], .blank)
  else if isWordPart c then some ([], .word [c])
  else if c = '"' then some ([], .quoted [])
  else if c = '<' then some ([], .html 0 [])
  else if c = '-' then some ([], .dash)
  else (ofMark? c).map fun token => ([token], .blank)

/-- Read a character: the tokens that end before it or with it, and where the next one stands. -/
def step : Mode → Char → Option (List Token × Mode)
  | .blank, c => start c
  | .word text, c =>
    if isWordPart c then some ([], .word (text ++ [c]))
    else (ofWord? text).bind fun token =>
      (start c).map fun (tokens, mode) => (token :: tokens, mode)
  | .dash, c => if c = '>' then some ([.arrow], .blank) else none
  | .quoted text, c =>
    if c = '"' then some ([.quoted (String.ofList text)], .blank)
    else if c = '\\' then some ([], .escaped text)
    else some ([], .quoted (text ++ [c]))
  | .escaped text, c =>
    if c = '"' || c = '\\' then some ([], .quoted (text ++ [c]))
    else some ([], .quoted (text ++ ['\\', c]))
  | .html depth text, c =>
    if c = '<' then some ([], .html (depth + 1) (text ++ [c]))
    else if c = '>' then
      match depth with
      | 0 => some ([.html (String.ofList text)], .blank)
      | depth + 1 => some ([], .html depth (text ++ [c]))
    else some ([], .html depth (text ++ [c]))

def run : Mode → List Char → Option (List Token × Mode)
  | mode, [] => some ([], mode)
  | mode, c :: chars =>
    (step mode c).bind fun (tokens, next) =>
      (run next chars).map fun (others, last) => (tokens ++ others, last)

/-- The tokens of a document, which must not end inside a word. -/
def lex (document : String) : Option (List Token) :=
  match run .blank document.toList with
  | some (tokens, .blank) => some tokens
  | _ => none

/-! ### Reading piece by piece -/

/-- Reading a text from one mode yields tokens and ends in another mode. -/
def Reads (mode : Mode) (text : String) (tokens : List Token) (last : Mode) : Prop :=
  run mode text.toList = some (tokens, last)

instance (mode : Mode) (text : String) (tokens : List Token) (last : Mode) :
    Decidable (Reads mode text tokens last) :=
  inferInstanceAs (Decidable (run mode text.toList = some (tokens, last)))

lemma run_append {mode next last : Mode} {chars chars' : List Char} {tokens tokens' : List Token}
    (h : run mode chars = some (tokens, next)) (h' : run next chars' = some (tokens', last)) :
    run mode (chars ++ chars') = some (tokens ++ tokens', last) := by
  induction chars generalizing mode tokens with
  | nil =>
    cases h
    exact h'
  | cons c chars ih =>
    rw [run] at h
    obtain ⟨⟨first, between⟩, hstep, h⟩ := Option.bind_eq_some_iff.mp h
    obtain ⟨⟨others, after⟩, hrun, h⟩ := Option.map_eq_some_iff.mp h
    cases h
    simp [run, hstep, ih hrun]

lemma Reads.append {mode next last : Mode} {text text' : String} {tokens tokens' : List Token}
    (h : Reads mode text tokens next) (h' : Reads next text' tokens' last) :
    Reads mode (text ++ text') (tokens ++ tokens') last := by
  rw [Reads, String.toList_append]
  exact run_append h h'

lemma Reads.lex_eq {text : String} {tokens : List Token} (h : Reads .blank text tokens .blank) :
    lex text = some tokens := by
  rw [lex, h]

lemma reads_empty (mode : Mode) : Reads mode "" [] mode := rfl

lemma run_replicate_space (n : Nat) : run .blank (List.replicate n ' ') = some ([], .blank) := by
  induction n with
  | zero => rfl
  | succ n ih =>
    have hstep : step .blank ' ' = some ([], .blank) := rfl
    simp [List.replicate_succ, run, hstep, ih]

/-! ### Names -/

/-- The texts that are names. -/
structure IsName (text : String) : Prop where
  parts : ∀ c ∈ text.toList, isWordPart c = true
  head : text.toList.head?.any Char.isDigit = false
  ne_empty : text ≠ ""
  not_keyword : Keyword.find? text.toList = none

lemma IsName.ofWord?_eq {text : String} (h : IsName text) :
    ofWord? text.toList = some (.name text) := by
  simp [ofWord?, h.not_keyword, h.head]

lemma run_word {chars : List Char} (h : ∀ c ∈ chars, isWordPart c = true) (text : List Char) :
    run (.word text) chars = some ([], .word (text ++ chars)) := by
  induction chars generalizing text with
  | nil => simp [run]
  | cons c chars ih =>
    obtain ⟨hc, hchars⟩ := List.forall_mem_cons.mp h
    simp [run, step, hc, ih hchars]

lemma not_isBlank_of_isWordPart {c : Char} (h : isWordPart c = true) : isBlank c = false := by
  by_contra hblank
  simp only [Bool.not_eq_false, isBlank, Bool.or_eq_true, beq_iff_eq] at hblank
  obtain ((rfl | rfl) | rfl) | rfl := hblank <;> cases h

lemma reads_word {text : String} (h : ∀ c ∈ text.toList, isWordPart c = true) (hne : text ≠ "") :
    Reads .blank text [] (.word text.toList) := by
  rw [Reads]
  cases hchars : text.toList with
  | nil => exact absurd (String.toList_eq_nil_iff.mp hchars) hne
  | cons c chars =>
    rw [hchars] at h
    obtain ⟨hc, hrest⟩ := List.forall_mem_cons.mp h
    simp [run, step, start, hc, not_isBlank_of_isWordPart hc, run_word hrest]

/-- A name ends at a character that is no part of one. -/
lemma IsName.reads_before {name following : String} {tokens : List Token} {last : Mode} {c : Char}
    {chars : List Char} (hname : IsName name) (hfollowing : following.toList = c :: chars)
    (hc : isWordPart c = false) (h : Reads .blank following tokens last) :
    Reads .blank (name ++ following) (.name name :: tokens) last := by
  refine (reads_word hname.parts hname.ne_empty).append ?_
  rw [Reads, hfollowing, run] at h ⊢
  obtain ⟨⟨first, between⟩, hstep, h⟩ := Option.bind_eq_some_iff.mp h
  obtain ⟨⟨others, after⟩, hrun, h⟩ := Option.map_eq_some_iff.mp h
  cases h
  have hstart : start c = some (first, between) := hstep
  simp [step, hc, hname.ofWord?_eq, hstart, hrun]

/-! ### Texts in quotes and in angle brackets -/

lemma run_escapeChar (c : Char) (text : List Char) :
    run (.quoted text) (Quoted.escapeChar c) = some ([], .quoted (text ++ [c])) := by
  unfold Quoted.escapeChar
  by_cases hslash : c = '\\'
  · subst hslash
    rfl
  · by_cases hquote : c = '"'
    · subst hquote
      rfl
    · simp [hslash, hquote, run, step]

lemma reads_escape (text : List Char) (inner : String) :
    Reads (.quoted text) (Quoted.escape inner) [] (.quoted (text ++ inner.toList)) := by
  rw [Reads, Quoted.escape, String.toList_ofList]
  generalize inner.toList = chars
  induction chars generalizing text with
  | nil => simp [run]
  | cons c chars ih =>
    rw [List.flatMap_cons]
    have happend := run_append (run_escapeChar c text) (ih (text ++ [c]))
    simpa using happend

lemma reads_quoted (inner : String) :
    Reads .blank ("\"" ++ Quoted.escape inner ++ "\"") [.quoted inner] .blank := by
  have hopen : Reads .blank "\"" [] (.quoted []) := rfl
  have hclose : Reads (.quoted inner.toList) "\"" [.quoted (String.ofList inner.toList)] .blank :=
    rfl
  rw [String.ofList_toList] at hclose
  exact (hopen.append (reads_escape [] inner)).append hclose

/-- A text whose angle brackets match, so that it may stand inside an HTML string. -/
def Balanced (inner : String) : Prop :=
  ∀ depth text, Reads (.html depth text) inner [] (.html depth (text ++ inner.toList))

lemma Balanced.append {inner inner' : String} (h : Balanced inner) (h' : Balanced inner') :
    Balanced (inner ++ inner') := by
  intro depth text
  rw [String.toList_append, ← List.append_assoc]
  exact (h depth text).append (h' depth (text ++ inner.toList))

lemma balanced_of_not_mem {inner : String} (h : ∀ c ∈ inner.toList, c ≠ '<' ∧ c ≠ '>') :
    Balanced inner := by
  intro depth text
  rw [Reads]
  generalize inner.toList = chars at h
  induction chars generalizing text with
  | nil => simp [run]
  | cons c chars ih =>
    obtain ⟨⟨hopen, hclose⟩, hchars⟩ := List.forall_mem_cons.mp h
    simp [run, step, hopen, hclose, ih (text ++ [c]) hchars]

lemma ne_of_mem_escape {text : String} {c : Char} (h : c ∈ (Markup.escape text).toList) :
    c ≠ '<' ∧ c ≠ '>' := by
  rw [Markup.escape, String.toList_ofList, List.mem_flatMap] at h
  obtain ⟨d, -, h⟩ := h
  revert c
  unfold Markup.escapeChar
  split <;> simp_all

lemma balanced_escape (text : String) : Balanced (Markup.escape text) :=
  balanced_of_not_mem fun _ h => ne_of_mem_escape h

lemma balanced_tag (inner : String) {tag : String} (htag : tag = "<" ++ inner ++ ">")
    (h : ∀ c ∈ inner.toList, c ≠ '<' ∧ c ≠ '>') : Balanced tag := by
  intro depth text
  have hopen : Reads (.html depth text) "<" [] (.html (depth + 1) (text ++ ['<'])) := rfl
  have hclose : Reads (.html (depth + 1) (text ++ ['<'] ++ inner.toList)) ">" []
      (.html depth (text ++ ['<'] ++ inner.toList ++ ['>'])) := rfl
  have hall := (hopen.append (balanced_of_not_mem h (depth + 1) (text ++ ['<']))).append hclose
  simpa [htag, String.toList_append] using hall

lemma Balanced.reads {inner : String} (h : Balanced inner) :
    Reads .blank ("<" ++ inner ++ ">") [.html inner] .blank := by
  have hopen : Reads .blank "<" [] (.html 0 []) := rfl
  have hclose : Reads (.html 0 inner.toList) ">" [.html (String.ofList inner.toList)] .blank := rfl
  rw [String.ofList_toList] at hclose
  exact (hopen.append (h 0 [])).append hclose

end PlanChart.Dot
