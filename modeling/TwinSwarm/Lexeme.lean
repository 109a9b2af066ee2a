import TwinSwarm.Diagnostic
import TwinSwarm.Text.Blank
import TwinSwarm.Text.Excerpt
import TwinSwarm.Token

/-!
# Lexemes

A source text is cut into lexemes from left to right.  At each place the first
pattern of an ordered table that matches decides how much is taken; where none
matches, one unexpected character is taken.  Nothing is lost: the texts of the
lexemes follow each other without a gap.  Tokens and lexical faults are two views
of the list of lexemes.
-/

namespace TwinSwarm

/-- A letter from `a` to `z` or `A` to `Z`, or the underscore. -/
def startsWord (character : Char) : Bool :=
  character.isAlpha || character = '_'

/-- A character of which the rest of a word may consist. -/
def continuesWord (character : Char) : Bool :=
  character.isAlphanum || character = '_'

/-- The classes of text that the language knows. -/
inductive Pattern where
  | blanks
  | lineComment
  | blockComment
  | word
  | decimal
  | integer
  | doubleQuoted
  | singleQuoted
  | operator
  | punctuation
  deriving Repr, DecidableEq, Inhabited

namespace Pattern

/-- The patterns in the order in which they are tried. -/
def table : List Pattern :=
  [.blanks, .lineComment, .blockComment, .word, .decimal, .integer, .doubleQuoted,
    .singleQuoted, .operator, .punctuation]

/-- The operators, each before those that begin it. -/
def operators : List (List Char) :=
  [['=', '='], ['!', '='], ['<', '='], ['>', '='], ['&', '&'], ['|', '|'], ['<'], ['>'], ['+'],
    ['-'], ['*'], ['/'], ['='], ['!']]

/-- The characters that stand for themselves. -/
def punctuationMarks : List Char :=
  ['{', '}', '(', ')', '[', ']', ',', ';', ':', '.']

/-- A length, unless it is zero. -/
def positive? (length : Nat) : Option Nat :=
  if length = 0 then none else some length

/-- The length of the longest start of a text that satisfies a test throughout. -/
def runLength (accept : Char → Bool) (text : List Char) : Nat :=
  (text.takeWhile accept).length

/-- The length of a text up to and including the first `*/`. -/
def closedCommentLength? : List Char → Option Nat
  | [] => none
  | '*' :: '/' :: _ => some 2
  | _ :: rest => (closedCommentLength? rest).map (· + 1)

/-- The length of a text up to and including the first quote that no backslash
protects. -/
def closedQuoteLength? (quote : Char) : List Char → Option Nat
  | [] => none
  | ['\\'] => none
  | '\\' :: _ :: rest => (closedQuoteLength? quote rest).map (· + 2)
  | character :: rest =>
      if character = quote then some 1 else (closedQuoteLength? quote rest).map (· + 1)

/-- The length of a quoted text. -/
def quotedLength? (quote : Char) : List Char → Option Nat
  | [] => none
  | character :: rest =>
      if character = quote then (closedQuoteLength? quote rest).map (· + 1) else none

/-- The length of digits, a point and further digits. -/
def decimalLength? (text : List Char) : Option Nat :=
  let whole := runLength Char.isDigit text
  match text.drop whole with
  | '.' :: rest =>
      let fraction := runLength Char.isDigit rest
      if whole = 0 ∨ fraction = 0 then none else some (whole + 1 + fraction)
  | _ => none

/-- The length that a pattern takes from the start of a text, if it matches. -/
def length? : Pattern → List Char → Option Nat
  | .blanks, text => positive? (runLength Text.isBlank text)
  | .lineComment, '/' :: '/' :: rest => some (2 + runLength (· ≠ '\n') rest)
  | .lineComment, _ => none
  | .blockComment, '/' :: '*' :: rest => (closedCommentLength? rest).map (2 + ·)
  | .blockComment, _ => none
  | .word, character :: rest =>
      if startsWord character then some (1 + runLength continuesWord rest) else none
  | .word, [] => none
  | .decimal, text => decimalLength? text
  | .integer, text => positive? (runLength Char.isDigit text)
  | .doubleQuoted, text => quotedLength? '"' text
  | .singleQuoted, text => quotedLength? '\'' text
  | .operator, text =>
      operators.findSome? fun operator =>
        if operator.isPrefixOf text then some operator.length else none
  | .punctuation, character :: _ => if character ∈ punctuationMarks then some 1 else none
  | .punctuation, [] => none

/-- The first pattern of the table that matches, with the length it takes. -/
def first? (text : List Char) : Option (Pattern × Nat) :=
  table.findSome? fun pattern => (pattern.length? text).map (pattern, ·)

/-- The kind of the tokens that a pattern gives, before words are told apart.  Blanks
and comments give none. -/
def kind? : Pattern → Option Token.Kind
  | .blanks | .lineComment | .blockComment => none
  | .word => some .identifier
  | .decimal | .integer => some .number
  | .doubleQuoted | .singleQuoted => some .string
  | .operator => some .operator
  | .punctuation => some .punctuation

end Pattern

/-- A piece of a source text, with the offset and the location at which it starts.
Where no pattern matches it is a single unexpected character. -/
structure Lexeme where
  pattern : Option Pattern
  text : List Char
  offset : Nat
  location : Location
  deriving Repr, DecidableEq, Inhabited

namespace Lexeme

/-- The lexemes of a text whose first character stands at the given offset and
location.  Each takes at least the first character. -/
def ofTextFrom (offset : Nat) (location : Location) : List Char → List Lexeme
  | [] => []
  | character :: rest =>
      let (pattern, length) :=
        match Pattern.first? (character :: rest) with
        | some (pattern, length) => (some pattern, length)
        -- An unexpected character is a lexeme of its own, and the next one is tried behind it.
        | none => (none, 1)
      let text := character :: rest.take (length - 1)
      ⟨pattern, text, offset, location⟩ ::
        ofTextFrom (offset + text.length) (location.afterText text) (rest.drop (length - 1))
  termination_by text => text.length
  decreasing_by simp only [List.length_drop, List.length_cons]; omega

/-- The lexemes of a source text. -/
def ofText (text : List Char) : List Lexeme :=
  ofTextFrom 0 .start text

/-- The token that the lexeme gives. -/
def token? (lexeme : Lexeme) : Option Token :=
  match lexeme.pattern with
  | none => none
  | some pattern =>
      let text := String.ofList lexeme.text
      match pattern.kind? with
      | none => none
      | some .identifier => some ⟨Token.kindOfWord text, text, lexeme.location⟩
      | some kind => some ⟨kind, text, lexeme.location⟩

/-- The fault that the lexeme is, if no pattern matched. -/
def diagnostic? (source : List Char) (radius : Nat) (lexeme : Lexeme) : Option Diagnostic :=
  match lexeme.pattern with
  | some _ => none
  | none => some
      { kind := .lexical
        message := "Unexpected character: '" ++ String.ofList lexeme.text ++ "'"
        location := lexeme.location
        context := Text.excerpt source lexeme.offset radius }

end Lexeme

/-- What is found in a source text: its tokens, closed by one that marks the end,
and the unexpected characters. -/
structure Lexing where
  tokens : List Token
  diagnostics : List Diagnostic
  deriving Repr, DecidableEq, Inhabited

namespace Lexing

/-- The token that marks the end of a text. -/
def endToken (text : List Char) : Token :=
  ⟨.endOfFile, "", Location.start.afterText text⟩

/-- The tokens and faults of a source text. -/
def ofText (text : List Char) (radius : Nat) : Lexing :=
  let lexemes := Lexeme.ofText text
  { tokens := lexemes.filterMap Lexeme.token? ++ [endToken text]
    diagnostics := lexemes.filterMap (Lexeme.diagnostic? text radius) }

/-- The findings of several runs over one text.  The first run uses the text up, so
each further run finds only its end. -/
def runs (text : List Char) (radius : Nat) : Nat → List Lexing
  | 0 => []
  | times + 1 => ofText text radius :: List.replicate times ⟨[endToken text], []⟩

end Lexing

end TwinSwarm
