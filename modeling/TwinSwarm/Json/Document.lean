import TwinSwarm.Json.Numeral
import TwinSwarm.Json.Reading

/-!
# Reading JSON values

A value is read either to be kept or to be passed over.  What is passed over only needs
the shape of a value: its numbers may be out of range, its escapes may stand for half
of a surrogate pair, and it may nest without a limit.  The two manners also report some
faults differently.
-/

namespace TwinSwarm.Json

/-- What a value is read for. -/
inductive Manner where
  | keep
  | skip
  deriving Repr, DecidableEq, Inhabited

namespace Manner

/-- The fault of a number that breaks off. -/
def endInNumber : Manner → Cause
  | .keep => .endInValue
  | .skip => .invalidNumber

/-- The fault of a comma behind the last item of a list. -/
def trailingCommaInList : Manner → Cause
  | .keep => .trailingComma
  | .skip => .expectedValue

/-- The fault of a comma behind the last member of an object. -/
def trailingCommaInObject : Manner → Cause
  | .keep => .trailingComma
  | .skip => .keyMustBeString

/-- The fault of an object that breaks off behind a comma. -/
def endBehindMemberComma : Manner → Cause
  | .keep => .endInValue
  | .skip => .endInObject

end Manner

namespace Reading

variable {α β : Type}

/-! ## Words and numbers -/

/-- The rest of a word whose first character has been read. -/
def word : List Char → Reading Unit
  | [] => return ()
  | wanted :: rest => do
      match ← peek with
      | none => halt .endInValue
      | some character =>
          if character = wanted then
            pass
            word rest
          else refuse .expectedWord

/-- Digits, perhaps none. -/
def digits : Reading (List Char) :=
  fun _ passage =>
    .ok (passage.rest.takeWhile Char.isDigit, passage.dropAscii Char.isDigit)

/-- The digits before the point: a zero alone, or digits that do not begin with one. -/
def wholeDigits (manner : Manner) : Reading (List Char) := do
  match ← peek with
  | none => halt manner.endInNumber
  | some character =>
      if character = '0' then
        pass
        if (← peek).any Char.isDigit then refuse .invalidNumber
        return ['0']
      else if character.isDigit then digits
      else refuse .invalidNumber

/-- The digits behind the point, if there is one. -/
def fractionDigits (manner : Manner) : Reading (Option (List Char)) := do
  if (← peek) = some '.' then
    pass
    let found ← digits
    if found = [] then
      match ← peek with
      | none => refuse manner.endInNumber
      | some _ => refuse .invalidNumber
    return some found
  return none

/-- The sign of an exponent: whether it is negative. -/
def exponentSign : Reading Bool := do
  match ← peek with
  | some '+' =>
      pass
      return false
  | some '-' =>
      pass
      return true
  | _ => return false

/-- The exponent, if there is one. -/
def exponentDigits (manner : Manner) : Reading (Option (Bool × List Char)) := do
  match ← peek with
  | some 'e' | some 'E' =>
      pass
      let negative ← exponentSign
      match ← peek with
      | none => halt manner.endInNumber
      | some character =>
          if character.isDigit then return some (negative, ← digits)
          else refuse .invalidNumber
  | _ => return none

/-- The number whose parts have just been read. -/
def valueOf (numeral : Numeral) : Reading Json :=
  fun _ passage =>
    match numeral.value with
    | .ok value => .ok (value, passage)
    | .error unread => .error (.placed .numberOutOfRange (passage.offset - unread))

/-- A number behind its sign. -/
def number (manner : Manner) (negative : Bool) : Reading Json := do
  let whole ← wholeDigits manner
  let fraction ← fractionDigits manner
  let exponent ← exponentDigits manner
  match manner with
  | .keep => valueOf ⟨negative, whole, fraction, exponent⟩
  | .skip => return .null

/-! ## Strings -/

/-- The value of a hexadecimal digit. -/
def hexValue? (digit : Char) : Option Nat :=
  if digit.isDigit then some (digit.toNat - '0'.toNat)
  else if 'a' ≤ digit ∧ digit ≤ 'f' then some (digit.toNat - 'a'.toNat + 10)
  else if 'A' ≤ digit ∧ digit ≤ 'F' then some (digit.toNat - 'A'.toNat + 10)
  else none

/-- The value of hexadecimal digits. -/
def hexNumber? (digits : List Char) : Option Nat :=
  digits.foldlM (fun value digit => (hexValue? digit).map (16 * value + ·)) 0

/-- The number of bytes of a text. -/
def byteCount (text : List Char) : Nat := (String.ofList text).utf8ByteSize

/-- Four hexadecimal digits.  Where fewer than four bytes are left, the text counts as
broken off. -/
def hexUnit : Reading Nat :=
  fun _ passage =>
    let unit := passage.rest.take 4
    match unit.length, hexNumber? unit with
    | 4, some value => .ok (value, passage.dropUnit)
    | _, _ =>
        if 4 ≤ byteCount unit then .error (.placed .invalidEscape (passage.offset + 4))
        else .error (.placed .endInString (passage.offset + byteCount unit))

/-- A character that has to follow half of a surrogate pair. -/
def surrogateMark (mark : Char) : Reading Unit := do
  match ← peek with
  | none => halt .endInString
  | some character => if character = mark then pass else refuse .unfinishedSurrogate

/-- The number is the first half of a surrogate pair. -/
def isHighSurrogate (unit : Nat) : Bool := 0xD800 ≤ unit && unit < 0xDC00

/-- The number is the second half of a surrogate pair. -/
def isLowSurrogate (unit : Nat) : Bool := 0xDC00 ≤ unit && unit < 0xE000

/-- The character that a pair of surrogates stands for. -/
def pairedCharacter (high low : Nat) : Char :=
  Char.ofNat (0x10000 + (high - 0xD800) * 0x400 + (low - 0xDC00))

/-- The character of a numbered escape. -/
def numberedEscape (manner : Manner) : Reading Char := do
  let unit ← hexUnit
  match manner with
  -- Passed over, the halves of a pair are escapes of their own.
  | .skip => return Char.ofNat unit
  | .keep =>
      if isLowSurrogate unit then halt .loneSurrogate
      else if isHighSurrogate unit then
        surrogateMark '\\'
        surrogateMark 'u'
        let low ← hexUnit
        if isLowSurrogate low then return pairedCharacter unit low
        else halt .loneSurrogate
      else return Char.ofNat unit

/-- The character that a letter behind a backslash stands for. -/
def escapedLetter? : Char → Option Char
  | '"' => some '"'
  | '\\' => some '\\'
  | '/' => some '/'
  | 'b' => some (Char.ofNat 8)
  | 'f' => some (Char.ofNat 12)
  | 'n' => some '\n'
  | 'r' => some '\r'
  | 't' => some '\t'
  | _ => none

/-- A character written with a backslash, behind the backslash. -/
def escape (manner : Manner) : Reading Char := do
  match ← peek with
  | none => halt .endInString
  | some letter =>
      if letter = 'u' then
        pass
        numberedEscape manner
      else
        match escapedLetter? letter with
        | some character =>
            pass
            return character
        | none => refuse .invalidEscape

/-- The fault of a control character in a string.  Only a string that is kept counts
the character as read. -/
def controlCharacter (manner : Manner) : Reading Char :=
  match manner with
  | .keep => refuse .controlCharacter
  | .skip => halt .controlCharacter

/-- One character of a string. -/
def stringCharacter (manner : Manner) : Reading Char := do
  match ← peek with
  | none => halt .endInString
  | some character =>
      if character = '\\' then
        pass
        escape manner
      else if character.toNat < 32 then controlCharacter manner
      else
        pass
        return character

/-- The characters of a string up to its closing quote, which is passed. -/
def characters (manner : Manner) : Reading (List Char)
  | levels, passage =>
    if passage.rest.head? = some '"' then .ok ([], passage.advance)
    else
      match stringCharacter manner levels passage with
      | .error stop => .error stop
      | .ok (character, next) =>
          if _shorter : next.size < passage.size then
            match characters manner levels next with
            | .error stop => .error stop
            | .ok (others, last) => .ok (character :: others, last)
          else .ok ([character], next)
  termination_by _ passage => passage.size
  decreasing_by exact _shorter

/-- A string behind its opening quote. -/
def stringBody (manner : Manner) : Reading String := do
  return String.ofList (← characters manner)

/-! ## Lists and objects -/

/-- Move to the next item of a list; false if the list ends here. -/
def nextItem (manner : Manner) (first : Bool) : Reading Bool := do
  match ← peekBehindSpace with
  | none => refuse .endInList
  | some character =>
      if character = ']' then return false
      else if first then return true
      else if character = ',' then
        pass
        match ← peekBehindSpace with
        | none => refuse .endInValue
        | some ']' => refuse manner.trailingCommaInList
        | some _ => return true
      else refuse .expectedListCommaOrEnd

/-- The key of a member. -/
def key (manner : Manner) : Reading String := do
  if (← peek) = some '"' then
    pass
    stringBody manner
  else refuse .keyMustBeString

/-- The key of the next member of an object; none if the object ends here. -/
def nextKey (manner : Manner) (first : Bool) : Reading (Option String) := do
  match ← peekBehindSpace with
  | none => refuse .endInObject
  | some character =>
      if character = '\x7d' then return none
      else if first then return some (← key manner)
      else if character = ',' then
        pass
        match ← peekBehindSpace with
        | none => refuse manner.endBehindMemberComma
        | some '\x7d' => refuse manner.trailingCommaInObject
        | some _ => return some (← key manner)
      else refuse .expectedObjectCommaOrEnd

/-- The colon between a key and its value. -/
def colon : Reading Unit := do
  match ← peekBehindSpace with
  | none => refuse .endInObject
  | some ':' => pass
  | some _ => refuse .expectedColon

/-- The items of a list up to its closing bracket, which is left in place. -/
def items (manner : Manner) (item : Reading α) (first : Bool) : Reading (List α)
  | levels, passage =>
    match nextItem manner first levels passage with
    | .error stop => .error stop
    | .ok (false, next) => .ok ([], next)
    | .ok (true, next) =>
        match item levels next with
        | .error stop => .error stop
        | .ok (value, next) =>
            if _shorter : next.size < passage.size then
              match items manner item false levels next with
              | .error stop => .error stop
              | .ok (others, last) => .ok (value :: others, last)
            else .ok ([value], next)
  termination_by _ passage => passage.size
  decreasing_by exact _shorter

/-- Take the members of an object one by one, up to its closing brace, which is left in
place.  A member is taken behind its key. -/
def foldMembers (manner : Manner) (take : β → String → Reading β) (first : Bool)
    (state : β) : Reading β
  | levels, passage =>
    match nextKey manner first levels passage with
    | .error stop => .error stop
    | .ok (none, next) => .ok (state, next)
    | .ok (some key, next) =>
        match take state key levels next with
        | .error stop => .error stop
        | .ok (state, next) =>
            if _shorter : next.size < passage.size then
              foldMembers manner take false state levels next
            else .ok (state, next)
  termination_by _ passage => passage.size
  decreasing_by exact _shorter

/-- Where a reader stands when it has tried to leave a list, and what kept it from
leaving. -/
def leaveList (passage : Passage) : Passage × Option Cause :=
  let behindSpace := passage.dropSpace
  match behindSpace.rest with
  | [] => (behindSpace, some .endInList)
  | ']' :: _ => (behindSpace.advance, none)
  | ',' :: _ =>
      -- The comma is passed first, so the fault is reported behind it.
      let behindComma := behindSpace.advance.dropSpace
      if behindComma.rest.head? = some ']' then (behindComma, some .trailingComma)
      else (behindComma, some .trailingCharacters)
  | _ => (behindSpace, some .trailingCharacters)

/-- Where a reader stands when it has tried to leave an object, and what kept it from
leaving. -/
def leaveObject (passage : Passage) : Passage × Option Cause :=
  let behindSpace := passage.dropSpace
  match behindSpace.rest with
  | [] => (behindSpace, some .endInObject)
  | '\x7d' :: _ => (behindSpace.advance, none)
  | ',' :: _ => (behindSpace, some .trailingComma)
  | _ => (behindSpace, some .trailingCharacters)

/-- Read the inside of a container whose opening bracket is next, and leave it.  A loose
stop inside is given the place that is reached by leaving. -/
def enclosed (leave : Passage → Passage × Option Cause) (inside : Reading α) : Reading α
  | 0, passage => refuse .nestedTooDeeply 0 passage
  | levels + 1, passage =>
      match inside levels passage.advance with
      | .error (.placed cause offset) => .error (.placed cause offset)
      | .error (.loose cause stand) => .error (.placed cause (leave stand).1.offset)
      | .ok (value, stand) =>
          match leave stand with
          | (next, none) => .ok (value, next)
          | (next, some cause) => .error (.placed cause next.nextOffset)

/-! ## Values -/

/-- A value, given how to read the values inside it. -/
def valueAround (manner : Manner) (inner : Reading Json) : Reading Json := do
  match ← peekBehindSpace with
  | none => refuse .endInValue
  | some 'n' =>
      pass
      word ['u', 'l', 'l']
      return .null
  | some 't' =>
      pass
      word ['r', 'u', 'e']
      return .boolean true
  | some 'f' =>
      pass
      word ['a', 'l', 's', 'e']
      return .boolean false
  | some '-' =>
      pass
      number manner true
  | some '"' =>
      pass
      return .string (← stringBody manner)
  | some '[' => return .array (← enclosed leaveList (items manner inner true))
  | some '\x7b' =>
      return .object (← enclosed leaveObject (foldMembers manner (fun members key => do
        colon
        return members ++ [⟨key, ← inner⟩]) true []))
  | some character =>
      if character.isDigit then number manner false else refuse .expectedValue

/-- A value. -/
def value (manner : Manner) : Reading Json
  | 0, passage => valueAround manner (refuse .nestedTooDeeply) 0 passage
  | levels + 1, passage =>
      valueAround manner (fun _ => value manner levels) (levels + 1) passage

/-- A value that is kept. -/
def kept : Reading Json := value .keep

/-- Pass over a value.  It cannot nest deeper than it is long. -/
def skipped : Reading Unit :=
  fun _ passage =>
    match value .skip passage.size passage with
    | .ok (_, rest) => .ok ((), rest)
    | .error stop => .error stop

/-! ## Whole texts -/

/-- The number of containers that may be open at a time. -/
def levelLimit : Nat := 127

/-- Read a whole text, with nothing but space behind what is read. -/
def wholeText (reading : Reading α) (text : String) : Except Fault α :=
  match reading levelLimit (.start text.toList) with
  | .error stop => .error stop.fault
  | .ok (value, passage) =>
      let rest := passage.dropSpace
      if rest.rest = [] then .ok value
      else .error ⟨.trailingCharacters, some rest.nextOffset⟩

/-- Read a whole text; a fault is reported with its place in the text. -/
def report (reading : Reading α) (text : String) : Except Report α :=
  match wholeText reading text with
  | .ok value => .ok value
  | .error fault => .error (fault.report text.toList)

end Reading

end TwinSwarm.Json
