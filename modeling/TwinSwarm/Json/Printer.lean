import TwinSwarm.Json.Basic
import TwinSwarm.Number.Shortest

/-!
# The text of a JSON value

Each item of an array and each member of an object stands on a line of its own, two
spaces further in than the bracket.  A container without parts stays on its line.
Strings escape the quote, the backslash and controls, and nothing else.  Each function
puts its text before the text that follows, which takes time linear in the result; the
text itself does not depend on what follows (`textAt_append`).
-/

namespace TwinSwarm.Json

/-- A digit below sixteen. -/
def hexDigit (value : Nat) : Char := (Nat.toDigits 16 value).headD '0'

/-- A character inside a string. -/
def escapedCharacter (character : Char) : List Char :=
  if character = '"' ∨ character = '\\' then ['\\', character]
  else if character = Char.ofNat 8 then ['\\', 'b']
  else if character = '\t' then ['\\', 't']
  else if character = '\n' then ['\\', 'n']
  else if character = Char.ofNat 12 then ['\\', 'f']
  else if character = '\r' then ['\\', 'r']
  else if character.toNat < 32 then
    ['\\', 'u', '0', '0', hexDigit (character.toNat / 16), hexDigit (character.toNat % 16)]
  else [character]

/-- A string in quotes, before the text that follows it. -/
def stringText (value : String) (after : List Char) : List Char :=
  '"' :: (value.toList.flatMap escapedCharacter ++ '"' :: after)

/-- A whole number, before the text that follows it. -/
def integerText (value : Int) (after : List Char) : List Char :=
  (toString value).toList ++ after

/-- A line that is indented by a number of steps. -/
def lineText (depth : Nat) (after : List Char) : List Char :=
  '\n' :: (List.replicate (2 * depth) ' ' ++ after)

/-- The key of a member, before its value. -/
def keyText (key : String) (after : List Char) : List Char :=
  stringText key (':' :: ' ' :: after)

mutual

/-- The text of a value whose line is indented by a number of steps, before the text
that follows it. -/
def textAt (depth : Nat) : Json → List Char → List Char
  | .null, after => 'n' :: 'u' :: 'l' :: 'l' :: after
  | .boolean true, after => 't' :: 'r' :: 'u' :: 'e' :: after
  | .boolean false, after => 'f' :: 'a' :: 'l' :: 's' :: 'e' :: after
  | .integer value, after => integerText value after
  | .float value, after => value.text ++ after
  | .string value, after => stringText value after
  | .array [], after => '[' :: ']' :: after
  | .array (first :: rest), after =>
      '[' :: lineText (depth + 1)
        (textAt (depth + 1) first (itemsText (depth + 1) rest (lineText depth (']' :: after))))
  | .object [], after => '\x7b' :: '\x7d' :: after
  | .object (⟨key, value⟩ :: rest), after =>
      '\x7b' :: lineText (depth + 1) (keyText key
        (textAt (depth + 1) value
          (membersText (depth + 1) rest (lineText depth ('\x7d' :: after)))))

/-- The items of an array behind the first, before the text that follows them. -/
def itemsText (depth : Nat) : List Json → List Char → List Char
  | [], after => after
  | item :: rest, after =>
      ',' :: lineText depth (textAt depth item (itemsText depth rest after))

/-- The members of an object behind the first, before the text that follows them. -/
def membersText (depth : Nat) : List (Entry Json) → List Char → List Char
  | [], after => after
  | ⟨key, value⟩ :: rest, after =>
      ',' :: lineText depth
        (keyText key (textAt depth value (membersText depth rest after)))

end

theorem stringText_append (value : String) (left right : List Char) :
    stringText value (left ++ right) = stringText value left ++ right := by
  simp [stringText]

theorem lineText_append (depth : Nat) (left right : List Char) :
    lineText depth (left ++ right) = lineText depth left ++ right := by
  simp [lineText]

theorem keyText_append (key : String) (left right : List Char) :
    keyText key (left ++ right) = keyText key left ++ right := by
  rw [keyText, keyText, ← stringText_append]
  rfl

mutual

/-- The text of a value does not depend on what follows it. -/
theorem textAt_append (depth : Nat) (value : Json) (left right : List Char) :
    textAt depth value (left ++ right) = textAt depth value left ++ right := by
  match value with
  | .null | .boolean true | .boolean false | .array [] | .object [] => simp [textAt]
  | .integer value => simp [textAt, integerText]
  | .float value => simp [textAt]
  | .string value => simp [textAt, stringText_append]
  | .array (first :: rest) =>
      simp only [textAt, List.cons_append]
      rw [← lineText_append, ← textAt_append, ← itemsText_append, ← lineText_append]
      rfl
  | .object (⟨key, value⟩ :: rest) =>
      simp only [textAt, List.cons_append]
      rw [← lineText_append, ← keyText_append, ← textAt_append, ← membersText_append,
        ← lineText_append]
      rfl

/-- The text of items does not depend on what follows them. -/
theorem itemsText_append (depth : Nat) (items : List Json) (left right : List Char) :
    itemsText depth items (left ++ right) = itemsText depth items left ++ right := by
  match items with
  | [] => rfl
  | item :: rest =>
      simp only [itemsText, List.cons_append]
      rw [← lineText_append, ← textAt_append, ← itemsText_append]

/-- The text of members does not depend on what follows them. -/
theorem membersText_append (depth : Nat) (members : List (Entry Json))
    (left right : List Char) :
    membersText depth members (left ++ right) = membersText depth members left ++ right := by
  match members with
  | [] => rfl
  | ⟨key, value⟩ :: rest =>
      simp only [membersText, List.cons_append]
      rw [← lineText_append, ← keyText_append, ← textAt_append, ← membersText_append]

end
/-- The text of a value. -/
def text (value : Json) : String := String.ofList (textAt 0 value [])

end TwinSwarm.Json
