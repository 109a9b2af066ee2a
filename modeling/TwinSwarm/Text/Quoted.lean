import TwinSwarm.Text.Invisible

/-!
# Quoted texts

How a message quotes a text that it was given: in double quotes, with a backslash
before quotes, backslashes and the commonest controls, and with the number of every
other character that has no picture of its own.
-/

namespace TwinSwarm.Text

/-- A number with hexadecimal digits in braces. -/
def numberedCharacter (character : Char) : List Char :=
  '\\' :: 'u' :: '\x7b' :: Nat.toDigits 16 character.toNat ++ ['\x7d']

/-- A character inside a quoted text. -/
def quotedCharacter (character : Char) : List Char :=
  if character = Char.ofNat 0 then ['\\', '0']
  else if character = '\t' then ['\\', 't']
  else if character = '\n' then ['\\', 'n']
  else if character = '\r' then ['\\', 'r']
  else if character = '"' ∨ character = '\\' then ['\\', character]
  else if isInvisible character then numberedCharacter character
  else [character]

/-- A text in quotes. -/
def quoted (text : String) : String :=
  String.ofList ('"' :: text.toList.flatMap quotedCharacter ++ ['"'])

end TwinSwarm.Text
