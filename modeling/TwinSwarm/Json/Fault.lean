import TwinSwarm.Json.Printer
import TwinSwarm.Location
import TwinSwarm.Text.Quoted

/-!
# Faults in JSON documents

Why a document cannot be read, and how that is reported.  A fault is of one of three
categories: the text breaks off, the text is not JSON, or the value does not describe
what was asked for.
-/

namespace TwinSwarm.Json

/-- What was found in place of something else. -/
inductive Found where
  | null
  | boolean (value : Bool)
  | integer (value : Int)
  | float (value : Double)
  | string (value : String)
  | array
  | object
  deriving Repr, DecidableEq, Inhabited

/-- What a value is, without its parts. -/
def found : Json → Found
  | .null => .null
  | .boolean value => .boolean value
  | .integer value => .integer value
  | .float value => .float value
  | .string value => .string value
  | .array _ => .array
  | .object _ => .object

/-- What was found, in words. -/
def Found.describe : Found → String
  | .null => "null"
  | .boolean value => "boolean `" ++ toString value ++ "`"
  | .integer value => "integer `" ++ toString value ++ "`"
  | .float value => "floating point `" ++ String.ofList value.text ++ "`"
  | .string value => "string " ++ Text.quoted value
  | .array => "sequence"
  | .object => "map"

/-- Why a document cannot be read. -/
inductive Cause where
  | endInList
  | endInObject
  | endInString
  | endInValue
  | expectedColon
  | expectedListCommaOrEnd
  | expectedObjectCommaOrEnd
  | expectedWord
  | expectedValue
  | invalidEscape
  | invalidNumber
  | numberOutOfRange
  | controlCharacter
  | keyMustBeString
  | loneSurrogate
  | trailingComma
  | trailingCharacters
  | unfinishedSurrogate
  | nestedTooDeeply
  | wrongType (found : Found) (wanted : String)
  | wrongValue (found : Found) (wanted : String)
  | wrongLength (length : Nat) (wanted : String)
  | missingField (name : String)
  | duplicateField (name : String)
  | unknownVariant (name : String) (known : List String)
  | noLiteral
  deriving Repr, DecidableEq, Inhabited

/-- A category of faults. -/
inductive Category where
  | syntactic
  | ending
  | data
  deriving Repr, DecidableEq, Inhabited

/-- The name under which a category is written. -/
def Category.name : Category → String
  | .syntactic => "syntax"
  | .ending => "eof"
  | .data => "data"

/-- A list of alternatives in words. -/
def alternatives : List String → String
  | [] => "there are no variants"
  | [only] => "expected `" ++ only ++ "`"
  | [first, second] => "expected `" ++ first ++ "` or `" ++ second ++ "`"
  | several => "expected one of " ++ ", ".intercalate (several.map fun name => "`" ++ name ++ "`")

/-- A number of elements in words. -/
def elementCount (count : Nat) : String :=
  if count = 1 then "1 element" else toString count ++ " elements"

namespace Cause

/-- The category of the fault. -/
def category : Cause → Category
  | .endInList | .endInObject | .endInString | .endInValue => .ending
  | .wrongType .. | .wrongValue .. | .wrongLength .. | .missingField _ | .duplicateField _
  | .unknownVariant .. | .noLiteral => .data
  | _ => .syntactic

/-- The fault in words. -/
def message : Cause → String
  | .endInList => "EOF while parsing a list"
  | .endInObject => "EOF while parsing an object"
  | .endInString => "EOF while parsing a string"
  | .endInValue => "EOF while parsing a value"
  | .expectedColon => "expected `:`"
  | .expectedListCommaOrEnd => "expected `,` or `]`"
  | .expectedObjectCommaOrEnd => "expected `,` or `\x7d`"
  | .expectedWord => "expected ident"
  | .expectedValue => "expected value"
  | .invalidEscape => "invalid escape"
  | .invalidNumber => "invalid number"
  | .numberOutOfRange => "number out of range"
  | .controlCharacter =>
      "control character (\\u0000-\\u001F) found while parsing a string"
  | .keyMustBeString => "key must be a string"
  | .loneSurrogate => "lone leading surrogate in hex escape"
  | .trailingComma => "trailing comma"
  | .trailingCharacters => "trailing characters"
  | .unfinishedSurrogate => "unexpected end of hex escape"
  | .nestedTooDeeply => "recursion limit exceeded"
  | .wrongType found wanted => "invalid type: " ++ found.describe ++ ", expected " ++ wanted
  | .wrongValue found wanted => "invalid value: " ++ found.describe ++ ", expected " ++ wanted
  | .wrongLength length wanted =>
      "invalid length " ++ toString length ++ ", expected " ++ wanted
  | .missingField name => "missing field `" ++ name ++ "`"
  | .duplicateField name => "duplicate field `" ++ name ++ "`"
  | .unknownVariant name known =>
      "unknown variant `" ++ name ++ "`, " ++ alternatives known
  | .noLiteral => "data did not match any variant of untagged enum LiteralValue"

end Cause

/-- A fault with the number of bytes that had been read, where that is known. -/
structure Fault where
  cause : Cause
  offset : Option Nat
  deriving Repr, DecidableEq, Inhabited

/-- The line and the column of an offset in bytes, for a text whose first character
stands at `here` on a line that starts at `lineStart`.  Columns count bytes from the
start of the line. -/
def positionFrom (here line lineStart offset : Nat) : List Char → Location
  | [] => ⟨line, offset - lineStart⟩
  | character :: rest =>
      if offset ≤ here then ⟨line, offset - lineStart⟩
      else if character = '\n' then positionFrom (here + 1) (line + 1) (here + 1) offset rest
      else positionFrom (here + character.utf8Size) line lineStart offset rest

/-- The line and the column of an offset in bytes. -/
def positionOf (text : List Char) (offset : Nat) : Location :=
  positionFrom 0 1 0 offset text

/-- A fault as it is reported. -/
structure Report where
  category : Category
  message : String
  location : Option Location
  deriving Repr, DecidableEq, Inhabited

/-- The fault as it is reported for a text. -/
def Fault.report (fault : Fault) (text : List Char) : Report :=
  { category := fault.cause.category
    message := fault.cause.message
    location := fault.offset.map (positionOf text) }

namespace Report

/-- The place of the fault; line zero where it is not known. -/
def place (report : Report) : Location := report.location.getD .nowhere

/-- The report as one text, which ends with the place where that is known. -/
def display (report : Report) : String :=
  match report.location with
  | none => report.message
  | some location =>
      report.message ++ " at line " ++ toString location.line ++ " column " ++
        toString location.column

end Report

end TwinSwarm.Json
