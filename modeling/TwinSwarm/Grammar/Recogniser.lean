import TwinSwarm.Grammar.Complaint
import TwinSwarm.Token

/-!
# Recognisers

A recogniser takes a node from the front of a list of tokens and leaves the rest, or
fails with a complaint about the first token that it did not consume.  The list holds
no token for the end of the text: there it is simply empty.  Lists of nodes are read
by three combinators, so that no grammar function has a loop of its own.
-/

namespace TwinSwarm.Grammar

/-- A complaint, and the tokens from the refused one on. -/
structure Failure where
  complaint : Complaint
  rest : List Token
  deriving Repr, DecidableEq, Inhabited

/-- A way to take a node from the front of a list of tokens. -/
def Recogniser (α : Type) : Type := List Token → Except Failure (α × List Token)

namespace Recogniser

variable {α β : Type}

instance : Monad Recogniser where
  pure value tokens := .ok (value, tokens)
  bind recogniser next tokens :=
    match recogniser tokens with
    | .ok (value, rest) => next value rest
    | .error failure => .error failure

@[simp] theorem pure_apply (value : α) (tokens : List Token) :
    (pure value : Recogniser α) tokens = .ok (value, tokens) := rfl

@[simp] theorem bind_apply (recogniser : Recogniser α) (next : α → Recogniser β)
    (tokens : List Token) :
    (recogniser >>= next) tokens =
      match recogniser tokens with
      | .ok (value, rest) => next value rest
      | .error failure => .error failure := rfl

theorem bind_eq_ok {recogniser : Recogniser α} {next : α → Recogniser β}
    {tokens rest : List Token} {result : β} :
    (recogniser >>= next) tokens = .ok (result, rest) ↔
      ∃ value middle, recogniser tokens = .ok (value, middle) ∧
        next value middle = .ok (result, rest) := by
  rw [bind_apply]
  cases recogniser tokens with
  | ok first =>
      constructor
      · intro continued
        exact ⟨first.1, first.2, rfl, continued⟩
      · rintro ⟨value, middle, equal, continued⟩
        cases equal
        exact continued
  | error failure => simp

end Recogniser

variable {α : Type}

/-! ## Single tokens -/

/-- Refuse the next token. -/
def fail (complaint : Complaint) : Recogniser α :=
  fun tokens => .error ⟨complaint, tokens⟩

/-- The next token, which stays where it is. -/
def peek : Recogniser (Option Token) :=
  fun tokens => .ok (tokens.head?, tokens)

/-- Pass over the next token. -/
def advance : Recogniser Unit :=
  fun tokens => .ok ((), tokens.tail)

/-- The place of the next token.  At the end of the text there is none, and nothing
that could carry it is read there. -/
def here : Recogniser Location :=
  fun tokens => .ok ((tokens.head?.map Token.location).getD .nowhere, tokens)

/-- The list starts with a token of this kind and text. -/
def startsWith (kind : Token.Kind) (text : String) (tokens : List Token) : Bool :=
  tokens.head?.any fun token => token.is kind text

/-- Whether the next token has this kind and text. -/
def isNext (kind : Token.Kind) (text : String) : Recogniser Bool :=
  fun tokens => .ok (startsWith kind text tokens, tokens)

/-- Take the next token if it has this kind and text. -/
def accept (kind : Token.Kind) (text : String) : Recogniser Bool :=
  fun tokens =>
    if startsWith kind text tokens then .ok (true, tokens.tail) else .ok (false, tokens)

/-- Take a token of this kind and text. -/
def demand (kind : Token.Kind) (text : String) (wanted : Expectation) : Recogniser Unit :=
  fun tokens =>
    if startsWith kind text tokens then .ok ((), tokens.tail)
    else .error ⟨.expected wanted, tokens⟩

/-- Take a punctuation mark. -/
def mark (text place : String) : Recogniser Unit :=
  demand .punctuation text (.symbol text place)

/-- Take a keyword. -/
def keyword (text place : String) : Recogniser Unit :=
  demand .keyword text (.symbol text place)

/-- Take the semicolon that ends a clause. -/
def semicolon (place : String) : Recogniser Unit := mark ";" place

/-- Take a token of this kind, whatever its text. -/
def tokenOf (kind : Token.Kind) (wanted : Expectation) : Recogniser String
  | token :: rest =>
      if token.kind = kind then .ok (token.text, rest)
      else .error ⟨.expected wanted, token :: rest⟩
  | [] => .error ⟨.expected wanted, []⟩

/-- Take an identifier. -/
def identifier (place : String) : Recogniser String :=
  tokenOf .identifier (.identifier place)

/-- A text without its quotes, if it has one at either end. -/
def unquoted (text : String) : String :=
  match text.toList with
  | first :: rest =>
      if rest ≠ [] ∧ rest.getLast? = some first ∧ (first = '"' ∨ first = '\'') then
        String.ofList rest.dropLast
      else text
  | [] => text

/-- Take a string, without its quotes. -/
def string (place : String) : Recogniser String := do
  let text ← tokenOf .string (.string place)
  return unquoted text

/-! ## Lists of nodes -/

/-- One or more items with commas between them. -/
def separated (item : Recogniser α) : Recogniser (List α)
  | tokens =>
    match item tokens with
    | .error failure => .error failure
    | .ok (first, rest) =>
        -- No item of the grammar gives tokens back, so the length only serves the recursion.
        if _shorter : startsWith .punctuation "," rest ∧ rest.tail.length < tokens.length then
          match separated item rest.tail with
          | .error failure => .error failure
          | .ok (others, rest) => .ok (first :: others, rest)
        else .ok ([first], rest)
  termination_by tokens => tokens.length
  decreasing_by exact _shorter.2

/-- Items with commas between them, up to a closing mark that is left in place. -/
def separatedUpTo (close : String) (item : Recogniser α) : Recogniser (List α) := do
  if ← isNext .punctuation close then return []
  separated item

/-- Items with commas between them and perhaps one at the end, up to a closing mark
that is left in place. -/
def listedUpTo (close : String) (item : Recogniser α) : Recogniser (List α)
  | tokens =>
    if startsWith .punctuation close tokens then .ok ([], tokens)
    else
      match item tokens with
      | .error failure => .error failure
      | .ok (first, rest) =>
          if _shorter : startsWith .punctuation "," rest ∧ rest.tail.length < tokens.length then
            match listedUpTo close item rest.tail with
            | .error failure => .error failure
            | .ok (others, rest) => .ok (first :: others, rest)
          else .ok ([first], rest)
  termination_by tokens => tokens.length
  decreasing_by exact _shorter.2

/-- Items up to a closing mark that is left in place, or up to the end of the text. -/
def repeatedUpTo (close : String) (item : Recogniser α) : Recogniser (List α)
  | tokens =>
    if tokens = [] ∨ startsWith .punctuation close tokens then .ok ([], tokens)
    else
      match item tokens with
      | .error failure => .error failure
      | .ok (first, rest) =>
          if _shorter : rest.length < tokens.length then
            match repeatedUpTo close item rest with
            | .error failure => .error failure
            | .ok (others, rest) => .ok (first :: others, rest)
          else .ok ([first], rest)
  termination_by tokens => tokens.length
  decreasing_by exact _shorter

end TwinSwarm.Grammar
