import TwinSwarm.Location

/-!
# Tokens

A token is a classified piece of source text with its place.  Its text is exactly
what the source holds there; a string token keeps its quotes.
-/

namespace TwinSwarm

/-- The class of a token.  A lexer never emits comments, white space or unknown
tokens, but a hand-made token list may hold them. -/
inductive Token.Kind where
  | identifier
  | number
  | string
  | boolean
  | keyword
  | operator
  | punctuation
  | comment
  | whitespace
  | endOfFile
  | unknown
  deriving Repr, DecidableEq, Inhabited

/-- A classified piece of source text. -/
structure Token where
  kind : Token.Kind
  text : String
  location : Location
  deriving Repr, DecidableEq, Inhabited

namespace Token

/-- Every kind. -/
def Kind.all : List Kind :=
  [.identifier, .number, .string, .boolean, .keyword, .operator, .punctuation, .comment,
    .whitespace, .endOfFile, .unknown]

/-- The name under which a kind is written. -/
def Kind.name : Kind → String
  | .identifier => "identifier"
  | .number => "number"
  | .string => "string"
  | .boolean => "boolean"
  | .keyword => "keyword"
  | .operator => "operator"
  | .punctuation => "punctuation"
  | .comment => "comment"
  | .whitespace => "whitespace"
  | .endOfFile => "eof"
  | .unknown => "unknown"

/-- The kind that is written under a name. -/
def Kind.ofName? (name : String) : Option Kind :=
  Kind.all.find? fun kind => kind.name = name

theorem Kind.ofName?_name (kind : Kind) : Kind.ofName? kind.name = some kind := by
  cases kind <;> decide

/-- The token has this kind and this text. -/
def is (token : Token) (kind : Kind) (text : String) : Bool :=
  token.kind = kind && token.text = text

/-- How messages speak of a place behind the last token. -/
def endDescription : String := "end of file"

/-- How messages speak of the token. -/
def describe (token : Token) : String :=
  match token.kind with
  | .endOfFile => endDescription
  | .string => "string " ++ token.text
  | .number => "number " ++ token.text
  | .identifier => "identifier '" ++ token.text ++ "'"
  | .keyword => "keyword '" ++ token.text ++ "'"
  | _ => "'" ++ token.text ++ "'"

/-- The words with a meaning of their own. -/
def keywords : List String :=
  ["twin", "extends", "property", "sensor", "actuator", "state", "entry", "exit", "transition",
    "when", "swarm", "as", "rule", "then", "event", "action", "import", "from", "if", "else",
    "for", "in", "log", "alert", "notify", "null"]

/-- The word is `true` in any mixture of small and capital letters. -/
def spellsTrue (word : String) : Bool :=
  word.toList.map Char.toLower = ['t', 'r', 'u', 'e']

/-- The word is `false` in any mixture of small and capital letters. -/
def spellsFalse (word : String) : Bool :=
  word.toList.map Char.toLower = ['f', 'a', 'l', 's', 'e']

/-- The kind of a token that is spelled like an identifier. -/
def kindOfWord (word : String) : Kind :=
  if spellsTrue word || spellsFalse word then .boolean
  else if word ∈ keywords then .keyword
  else .identifier

end Token

end TwinSwarm
