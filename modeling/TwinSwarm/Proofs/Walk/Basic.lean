import TwinSwarm.Grammar.Program

/-!
# Walks over a list of tokens

A recogniser takes tokens from the front of a list, and its budget says how much nesting is
left.  A walk does the same work with less to rely on.  It keeps all of the tokens and moves a
position along them, and it counts the levels of nesting in use in a counter that has to be
given back by hand.  A position outside the list and a level that was never taken break a walk.
Walks that repeat something have fuel for it, and come to nothing when it runs out.
-/

namespace TwinSwarm

namespace Walk

/-- The position of the next token, and the levels of nesting in use. -/
structure Cursor where
  position : Nat
  depth : Nat
  deriving Repr, DecidableEq, Inhabited

/-- The cursor at the first token, with no level in use. -/
def Cursor.start : Cursor := ⟨0, 0⟩

/-- What breaks a walk: a position outside the tokens, a counter above the limit, or a level that
is given back without having been taken. -/
inductive Fault where
  | outside
  | overdrawn
  | unbalanced
  deriving Repr, DecidableEq, Inhabited

/-- What becomes of a walk. -/
inductive Outcome (α : Type) where
  | found (value : α) (cursor : Cursor)
  | refused (diagnostic : Diagnostic) (cursor : Cursor)
  | broken (fault : Fault)
  | unfinished
  deriving Repr, DecidableEq, Inhabited

/-- What a walk is given and does not change.  Some token marks the end. -/
structure Input where
  tokens : List Token
  source : SourceText
  limit : Nat
  radius : Nat
  ends : ∃ token ∈ tokens, token.kind = .endOfFile

/-- The tokens, with an end mark at the last place if there is none. -/
def closed (tokens : List Token) : List Token :=
  if tokens.getLast?.map Token.kind = some .endOfFile then tokens
  else tokens ++ [⟨.endOfFile, "", (tokens.getLast?.map Token.location).getD .start⟩]

theorem closed_ends (tokens : List Token) : ∃ token ∈ closed tokens, token.kind = .endOfFile := by
  unfold closed
  split
  next isClosed =>
    rcases Option.map_eq_some_iff.mp isClosed with ⟨token, isLast, isEnd⟩
    exact ⟨token, List.mem_of_getLast? isLast, isEnd⟩
  next =>
    exact ⟨_, List.mem_append_right _ (List.mem_singleton.mpr rfl), rfl⟩

/-- The input of a walk over any list of tokens. -/
def Input.ofTokens (tokens : List Token) (source : SourceText) (limit radius : Nat) : Input :=
  { tokens := closed tokens, source, limit, radius, ends := closed_ends tokens }

end Walk

/-- A way to move a cursor over tokens. -/
def Walk (α : Type) : Type := Walk.Input → Walk.Cursor → Walk.Outcome α

namespace Walk

open Grammar

variable {α β : Type}

instance : Monad Walk where
  pure value _ cursor := .found value cursor
  bind walk next input cursor :=
    match walk input cursor with
    | .found value cursor => next value input cursor
    | .refused diagnostic cursor => .refused diagnostic cursor
    | .broken fault => .broken fault
    | .unfinished => .unfinished

@[simp] theorem pure_apply (value : α) (input : Input) (cursor : Cursor) :
    (pure value : Walk α) input cursor = .found value cursor := rfl

theorem bind_apply (walk : Walk α) (next : α → Walk β) (input : Input) (cursor : Cursor) :
    (walk >>= next) input cursor =
      match walk input cursor with
      | .found value cursor => next value input cursor
      | .refused diagnostic cursor => .refused diagnostic cursor
      | .broken fault => .broken fault
      | .unfinished => .unfinished := rfl

theorem bind_of_found {walk : Walk α} {next : α → Walk β} {input : Input} {cursor after : Cursor}
    {value : α} (found : walk input cursor = .found value after) :
    (walk >>= next) input cursor = next value input after := by
  rw [bind_apply, found]

/-- The walk is refused. -/
def refused (diagnostic : Diagnostic) : Walk α := fun _ cursor => .refused diagnostic cursor

/-- What a walk finds, or the report of its refusal. -/
def attempted (walk : Walk α) : Walk (Except Diagnostic α) := fun input cursor =>
  match walk input cursor with
  | .found value cursor => .found (.ok value) cursor
  | .refused diagnostic cursor => .found (.error diagnostic) cursor
  | .broken fault => .broken fault
  | .unfinished => .unfinished

/-- The fuel has run out. -/
def unfinished : Walk α := fun _ _ => .unfinished

/-! ## Looking at tokens -/

/-- The token at a position, which must be there. -/
def tokenAt (position : Nat) : Walk Token := fun input cursor =>
  match input.tokens[position]? with
  | some token => .found token cursor
  | none => .broken .outside

/-- The next token. -/
def peek : Walk Token := fun input cursor => tokenAt cursor.position input cursor

/-- The token before the next one, or the first one. -/
def previous : Walk Token := fun input cursor => tokenAt (cursor.position - 1) input cursor

/-- A token further on, if there is one. -/
def peekAhead (count : Nat) : Walk (Option Token) := fun input cursor =>
  .found input.tokens[cursor.position + count]? cursor

/-- The next token marks the end. -/
def isAtEnd : Walk Bool := do
  let token ← peek
  return token.kind = .endOfFile

/-- Whether the next token has this kind. -/
def checkKind (kind : Token.Kind) : Walk Bool := do
  let token ← peek
  return token.kind = kind

/-- Whether the next token has this kind and text. -/
def check (kind : Token.Kind) (text : String) : Walk Bool := do
  let token ← peek
  return token.is kind text

/-- The place of the next token. -/
def here : Walk Location := do
  let token ← peek
  return token.location

/-- Report a fault of a token. -/
def refuseToken (complaint : Complaint) (token : Token) : Walk α := fun input =>
  refused
    { kind := complaint.kind
      message := complaint.message token.describe input.limit
      location := token.location
      context := input.source.excerptAt token.location input.radius } input

/-- Refuse the next token. -/
def refuse (complaint : Complaint) : Walk α := do
  let token ← peek
  refuseToken complaint token

/-! ## Moving on -/

/-- Move to the next position. -/
def step : Walk Unit := fun _ cursor =>
  .found () { cursor with position := cursor.position + 1 }

/-- Pass over the next token, but stay at the end.  The token passed over is given back. -/
def advance : Walk Token := do
  if ← isAtEnd then previous
  else
    step
    previous

/-- Take the next token if it has this kind and text. -/
def accept (kind : Token.Kind) (text : String) : Walk Bool := do
  if ← check kind text then
    let _ ← advance
    return true
  else return false

/-- Take the next token if it is one of these operators, which are tried one after the other. -/
def acceptAny {operator : Type} (symbol : operator → String) :
    List operator → Walk (Option operator)
  | [] => return none
  | first :: others => do
      if ← accept .operator (symbol first) then return some first
      else acceptAny symbol others

/-- Take a token of this kind and text. -/
def demand (kind : Token.Kind) (text : String) (wanted : Expectation) : Walk Unit := do
  if ← check kind text then
    let _ ← advance
    return ()
  else refuse (.expected wanted)

/-- Take a punctuation mark. -/
def mark (text place : String) : Walk Unit := demand .punctuation text (.symbol text place)

/-- Take a keyword. -/
def keyword (text place : String) : Walk Unit := demand .keyword text (.symbol text place)

/-- Take the semicolon that ends a clause. -/
def semicolon (place : String) : Walk Unit := mark ";" place

/-- Take a token of this kind, whatever its text. -/
def tokenOf (kind : Token.Kind) (wanted : Expectation) : Walk String := do
  if ← checkKind kind then
    let token ← advance
    return token.text
  else refuse (.expected wanted)

/-- Take an identifier. -/
def identifier (place : String) : Walk String := tokenOf .identifier (.identifier place)

/-- Take a string, without its quotes. -/
def string (place : String) : Walk String := do
  let text ← tokenOf .string (.string place)
  return unquoted text

/-! ## Levels of nesting -/

/-- Set the counter, which never exceeds the limit. -/
def setDepth (depth : Nat) : Walk Unit := fun input cursor =>
  if depth ≤ input.limit then .found () { cursor with depth } else .broken .overdrawn

/-- Take one level, if there is one left. -/
def deepen : Walk Unit := fun input cursor =>
  if input.limit ≤ cursor.depth then refuse .nestedTooDeeply input cursor
  else setDepth (cursor.depth + 1) input cursor

/-- Give one level back. -/
def giveBack : Walk Unit := fun input cursor =>
  match cursor.depth with
  | 0 => .broken .unbalanced
  | depth + 1 => setDepth depth input cursor

/-- Do something else on the way out, whether the walk finds something or is refused. -/
def leaving (walk : Walk α) (exit : Walk Unit) : Walk α := fun input cursor =>
  match walk input cursor with
  | .found value cursor => (exit >>= fun _ => pure value) input cursor
  | .refused diagnostic cursor =>
      (exit >>= fun _ => refused diagnostic) input cursor
  | .broken fault => .broken fault
  | .unfinished => .unfinished

/-- Walk one level deeper. -/
def nested (walk : Walk α) : Walk α := do
  deepen
  walk.leaving giveBack

/-- Set the counter back to what it is now after a walk. -/
def balanced (walk : Walk α) : Walk α := fun input cursor =>
  walk.leaving (setDepth cursor.depth) input cursor

/-! ## Lists of nodes -/

/-- An item behind a token of this kind and text, if the token is there. -/
def optionally (kind : Token.Kind) (text : String) (item : Walk α) : Walk (Option α) := do
  if ← accept kind text then
    let value ← item
    return some value
  else return none

/-- One or more items with commas between them. -/
def separated (item : Walk α) : Nat → Walk (List α)
  | 0 => unfinished
  | fuel + 1 => do
      let first ← item
      if ← accept .punctuation "," then
        let others ← separated item fuel
        return first :: others
      else return [first]

/-- Items with commas between them, up to a closing mark that is left in place. -/
def separatedUpTo (close : String) (item : Walk α) (fuel : Nat) : Walk (List α) := do
  if ← check .punctuation close then return []
  else separated item fuel

/-- Items with commas between them and perhaps one at the end, up to a closing mark that is left
in place. -/
def listedUpTo (close : String) (item : Walk α) : Nat → Walk (List α)
  | 0 => unfinished
  | fuel + 1 => do
      if ← check .punctuation close then return []
      else
        let first ← item
        if ← accept .punctuation "," then
          let others ← listedUpTo close item fuel
          return first :: others
        else return [first]

/-- Items up to a closing mark that is left in place, or up to the end. -/
def repeatedUpTo (close : String) (item : Walk α) : Nat → Walk (List α)
  | 0 => unfinished
  | fuel + 1 => do
      if ← check .punctuation close then return []
      else if ← isAtEnd then return []
      else
        let first ← item
        let others ← repeatedUpTo close item fuel
        return first :: others

end Walk

end TwinSwarm
