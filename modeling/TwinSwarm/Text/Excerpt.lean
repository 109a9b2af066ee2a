import TwinSwarm.Location

/-!
# Excerpts

A message about a place shows the characters around it and, on a line of its
own, a caret below the place itself.  A source text is indexed by its lines, so
that a location can be turned back into an offset.
-/

namespace TwinSwarm.Text

/-- How many characters an excerpt shows on either side unless told otherwise. -/
def defaultRadius : Nat := 20

/-- Line ends and tabs become spaces, so that the caret stays in its column. -/
def flatten (character : Char) : Char :=
  if character = '\n' ∨ character = '\r' ∨ character = '\t' then ' ' else character

/-- Up to `radius` characters on either side of the offset, and a caret below the
character at the offset.  An offset past the end stands for the end. -/
def excerpt (text : List Char) (offset radius : Nat) : String :=
  let centre := min offset text.length
  let first := centre - radius
  let last := min (centre + radius) text.length
  let shown := ((text.drop first).take (last - first)).map flatten
  String.ofList (shown ++ '\n' :: List.replicate (centre - first) ' ' ++ ['^'])

/-- The offsets that follow the line feeds of a text whose first character stands
at `offset`. -/
def offsetsAfterLineFeeds (offset : Nat) : List Char → List Nat
  | [] => []
  | character :: rest =>
      if character = '\n' then (offset + 1) :: offsetsAfterLineFeeds (offset + 1) rest
      else offsetsAfterLineFeeds (offset + 1) rest

/-- The offset of the first character of each line. -/
def lineStarts (text : List Char) : List Nat :=
  0 :: offsetsAfterLineFeeds 0 text

end TwinSwarm.Text

namespace TwinSwarm

/-- A text together with the offsets at which its lines start. -/
structure SourceText where
  chars : List Char
  lineStarts : List Nat := Text.lineStarts chars

namespace SourceText

/-- The text, indexed by its lines. -/
def ofString (text : String) : SourceText := { chars := text.toList }

/-- The offset of a location.  Line and column zero count as one, and all that
lies past the end of the text counts as the end. -/
def offsetOf (source : SourceText) (location : Location) : Nat :=
  match source.lineStarts[location.line - 1]? with
  | some lineStart => min (lineStart + (location.column - 1)) source.chars.length
  | none => source.chars.length

/-- The excerpt around a location. -/
def excerptAt (source : SourceText) (location : Location) (radius : Nat) : String :=
  Text.excerpt source.chars (source.offsetOf location) radius

end SourceText

end TwinSwarm
