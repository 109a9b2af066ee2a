import TwinSwarm.Json.Fault

/-!
# Reading JSON texts

A reader takes something from a passage of a text and leaves the passage behind it, or
stops with a cause.  It is told how many more levels of nesting are allowed.  Most
stops have a place.  Those that come from a value that has been read and does not fit
are loose: the container that is being read gives them a place when it is left.
-/

namespace TwinSwarm.Json

/-- The rest of a text, the number of bytes before it, and the number of characters in
it. -/
structure Passage where
  rest : List Char
  offset : Nat
  size : Nat
  size_eq : size = rest.length
  deriving DecidableEq

namespace Passage

/-- A whole text. -/
def start (text : List Char) : Passage := ⟨text, 0, text.length, rfl⟩

/-- The passage behind the first character. -/
def advance : Passage → Passage
  | ⟨[], offset, size, size_eq⟩ => ⟨[], offset, size, size_eq⟩
  | ⟨character :: rest, offset, size, size_eq⟩ =>
      ⟨rest, offset + character.utf8Size, size - 1, by rw [size_eq, List.length_cons]; omega⟩

/-- The place of a fault that lies in the next byte; at the end, the end. -/
def nextOffset (passage : Passage) : Nat :=
  if passage.rest = [] then passage.offset else passage.offset + 1

/-- Space between the parts of a JSON text. -/
def isSpace (character : Char) : Bool :=
  character = ' ' || character = '\n' || character = '\t' || character = '\r'

/-- The passage behind the characters that satisfy a test.  All of them are ASCII
characters, of one byte each. -/
def dropAscii (accept : Char → Bool) (passage : Passage) : Passage :=
  let dropped := (passage.rest.takeWhile accept).length
  ⟨passage.rest.dropWhile accept, passage.offset + dropped, passage.size - dropped, by
    have split := congrArg List.length
      (List.takeWhile_append_dropWhile (p := accept) (l := passage.rest))
    rw [List.length_append] at split
    rw [passage.size_eq]
    omega⟩

/-- The passage behind the next four characters, which are ASCII characters. -/
def dropUnit (passage : Passage) : Passage :=
  ⟨passage.rest.drop 4, passage.offset + 4, passage.size - 4, by
    rw [passage.size_eq, List.length_drop]⟩

/-- The passage behind leading space. -/
def dropSpace (passage : Passage) : Passage := passage.dropAscii isSpace

end Passage

/-- Why a reader stops, and where. -/
inductive Stop where
  | placed (cause : Cause) (offset : Nat)
  | loose (cause : Cause) (passage : Passage)
  deriving DecidableEq

/-- The fault that a stop is for a caller. -/
def Stop.fault : Stop → Fault
  | .placed cause offset => ⟨cause, some offset⟩
  | .loose cause _ => ⟨cause, none⟩

/-- A way to take something from a passage, given the levels of nesting that are still
allowed. -/
def Reading (α : Type) : Type := Nat → Passage → Except Stop (α × Passage)

namespace Reading

variable {α β : Type}

instance : Monad Reading where
  pure value _ passage := .ok (value, passage)
  bind reading next levels passage :=
    match reading levels passage with
    | .ok (value, rest) => next value levels rest
    | .error stop => .error stop

@[simp] theorem pure_apply (value : α) (levels : Nat) (passage : Passage) :
    (pure value : Reading α) levels passage = .ok (value, passage) := rfl

@[simp] theorem bind_apply (reading : Reading α) (next : α → Reading β) (levels : Nat)
    (passage : Passage) :
    (reading >>= next) levels passage =
      match reading levels passage with
      | .ok (value, rest) => next value levels rest
      | .error stop => .error stop := rfl

/-- Stop because of the next byte. -/
def refuse (cause : Cause) : Reading α :=
  fun _ passage => .error (.placed cause passage.nextOffset)

/-- Stop before the next byte. -/
def halt (cause : Cause) : Reading α :=
  fun _ passage => .error (.placed cause passage.offset)

/-- Stop without a place of its own. -/
def object (cause : Cause) : Reading α :=
  fun _ passage => .error (.loose cause passage)

/-- The next character, which stays where it is. -/
def peek : Reading (Option Char) :=
  fun _ passage => .ok (passage.rest.head?, passage)

/-- Pass over the next character. -/
def pass : Reading Unit :=
  fun _ passage => .ok ((), passage.advance)

/-- Pass over space. -/
def space : Reading Unit :=
  fun _ passage => .ok ((), passage.dropSpace)

/-- The next character behind space. -/
def peekBehindSpace : Reading (Option Char) := do
  space
  peek

end Reading

end TwinSwarm.Json
