import TwinSwarm.Grammar.Declaration
import TwinSwarm.Text.Excerpt

/-!
# The grammar of programs

A program is a list of declarations.  Where a declaration cannot be read, the reading
goes on behind the next semicolon or at the next keyword that begins a declaration,
and at least one token is passed over.  The attempts to read a declaration form a
list; the program, the diagnostics and the places where reading went on are views of
this list.
-/

namespace TwinSwarm.Grammar

/-- The keywords that begin a declaration. -/
def declarationKeywords : List String :=
  ["twin", "swarm", "event", "action", "rule", "import"]

/-- The token begins a declaration. -/
def beginsDeclaration (token : Token) : Bool :=
  token.kind = .keyword && token.text ∈ declarationKeywords

/-- Where the reading goes on after a failure. -/
inductive Resumption where
  | atEnd
  | afterSemicolon (line : Nat)
  | atKeyword (word : String) (line : Nat)
  deriving Repr, DecidableEq, Inhabited

/-- Pass over the first token, and over further ones until a semicolon has been passed
or a declaration may begin. -/
def resume : List Token → Resumption × List Token
  | [] => (.atEnd, [])
  | [_] => (.atEnd, [])
  | passed :: next :: rest =>
      -- The passed token may itself begin a declaration; only those behind it are tested.
      if passed.is .punctuation ";" then
        (.afterSemicolon passed.location.line, next :: rest)
      else if beginsDeclaration next then
        (.atKeyword next.text next.location.line, next :: rest)
      else resume (next :: rest)

/-- The outcome of an attempt to read a declaration. -/
inductive Attempt where
  | read (declaration : Declaration)
  | skipped (failure : Failure) (resumption : Resumption)
  deriving Repr, DecidableEq, Inhabited

namespace Attempt

/-- The declaration that was read. -/
def declaration? : Attempt → Option Declaration
  | .read declaration => some declaration
  | .skipped .. => none

/-- What kept the declaration from being read. -/
def failure? : Attempt → Option Failure
  | .read _ => none
  | .skipped failure _ => some failure

/-- Where the reading went on after a failure. -/
def resumption? : Attempt → Option Resumption
  | .read _ => none
  | .skipped _ resumption => some resumption

end Attempt

/-- Read one declaration, or pass over what cannot be read. -/
def attempt (limit : Nat) (tokens : List Token) : Attempt × List Token :=
  match declaration limit tokens with
  | .ok (declaration, rest) => (.read declaration, rest)
  | .error failure => (.skipped failure (resume failure.rest).1, (resume failure.rest).2)

/-- The attempts to read declarations from a list of tokens until it is used up. -/
def attempts (limit : Nat) (tokens : List Token) : List Attempt :=
  if tokens = [] then []
  else
    let (outcome, rest) := attempt limit tokens
    if _shorter : rest.length < tokens.length then outcome :: attempts limit rest
    else [outcome]
  termination_by tokens.length
  decreasing_by exact _shorter

/-- The tokens before the first one that marks the end of the text. -/
def beforeEnd (tokens : List Token) : List Token :=
  tokens.takeWhile fun token => token.kind ≠ .endOfFile

/-- The place of the first token that marks the end.  A list without such a token ends
at its last token. -/
def endLocation (tokens : List Token) : Location :=
  match tokens.find? fun token => token.kind = .endOfFile with
  | some token => token.location
  | none => (tokens.getLast?.map Token.location).getD .start

/-- The place of the token that a failure is about. -/
def Failure.location (failure : Failure) (endLocation : Location) : Location :=
  match failure.rest with
  | [] => endLocation
  | token :: _ => token.location

/-- A description of the token that a failure is about. -/
def Failure.found (failure : Failure) : String :=
  match failure.rest with
  | [] => Token.endDescription
  | token :: _ => token.describe

/-- The failure as it is reported. -/
def Failure.diagnostic (failure : Failure) (source : SourceText) (endLocation : Location)
    (limit radius : Nat) : Diagnostic :=
  { kind := failure.complaint.kind
    message := failure.complaint.message failure.found limit
    location := failure.location endLocation
    context := source.excerptAt (failure.location endLocation) radius }

end TwinSwarm.Grammar

namespace TwinSwarm

/-- What is read from a list of tokens. -/
structure Parsing where
  attempts : List Grammar.Attempt
  endLocation : Location
  limit : Nat
  deriving Repr, DecidableEq, Inhabited

namespace Parsing

/-- The nesting that is allowed unless told otherwise. -/
def defaultLimit : Nat := 32

/-- Read a list of tokens.  What follows the first token that marks the end of the text
is not looked at. -/
def ofTokens (limit : Nat) (tokens : List Token) : Parsing :=
  { attempts := Grammar.attempts limit (Grammar.beforeEnd tokens)
    endLocation := Grammar.endLocation tokens
    limit }

/-- The declarations that were read. -/
def program (parsing : Parsing) : Program :=
  ⟨parsing.attempts.filterMap Grammar.Attempt.declaration?⟩

/-- The places where reading went on after a failure. -/
def resumptions (parsing : Parsing) : List Grammar.Resumption :=
  parsing.attempts.filterMap Grammar.Attempt.resumption?

/-- The failures as they are reported, with excerpts from a source text. -/
def diagnostics (parsing : Parsing) (source : SourceText) (radius : Nat) : List Diagnostic :=
  (parsing.attempts.filterMap Grammar.Attempt.failure?).map fun failure =>
    failure.diagnostic source parsing.endLocation parsing.limit radius

end Parsing

end TwinSwarm
