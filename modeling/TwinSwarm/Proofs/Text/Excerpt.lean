import Mathlib.Data.List.DropRight
import TwinSwarm.Text.Excerpt

/-!
# What an excerpt shows

An excerpt has two lines.  The first shows the characters around an offset on one line, up to
the radius on either side, and the second has a caret below the character at the offset.
-/

namespace TwinSwarm.Text

/-- The characters that an excerpt shows as spaces. -/
def flattened : List Char := ['\n', '\r', '\t']

theorem flatten_not_mem (character : Char) : flatten character ∉ flattened := by
  rw [flatten]
  split
  · decide
  next isPlain => simpa [flattened] using isPlain

theorem flatten_of_not_mem {character : Char} (isPlain : character ∉ flattened) :
    flatten character = character := by
  rw [flatten, if_neg]
  simpa [flattened] using isPlain

/-- The characters of a text around an offset, up to a radius on either side. -/
def slice (text : List Char) (offset radius : Nat) : List Char :=
  (text.take offset).rtake radius ++ (text.drop offset).take radius

/-- The context shows what stands around an offset of a text, with a caret in a column of the
line below. -/
structure Shows (text : List Char) (offset radius : Nat) (shown : List Char) (column : Nat)
    (context : String) : Prop where
  /-- What is shown stands on a line of its own, and then a caret behind spaces. -/
  lines : context.toList = shown ++ '\n' :: (List.replicate column ' ' ++ ['^'])
  /-- What is shown is the slice of the text around the offset, with spaces for line ends and
  tabs. -/
  shown_eq : shown = (slice text offset radius).map flatten
  /-- Line ends and tabs are not shown. -/
  flat : ∀ character ∈ shown, character ∉ flattened
  /-- No more is shown than the radius on either side. -/
  short : shown.length ≤ 2 * radius
  /-- In front of the caret's column stands what is shown of the text before the offset. -/
  column_eq : column = ((text.take offset).rtake radius).length

theorem length_rtake_take {text : List Char} {offset : Nat} (inside : offset ≤ text.length)
    (radius : Nat) : ((text.take offset).rtake radius).length = min offset radius := by
  rw [List.rtake, List.length_drop, List.length_take_of_le inside]
  omega

/-- What is cut out of a text around an offset is its slice there. -/
theorem take_drop_eq_slice {text : List Char} {offset : Nat} (inside : offset ≤ text.length)
    (radius : Nat) :
    (text.drop (offset - radius)).take
        (min (offset + radius) text.length - (offset - radius)) = slice text offset radius := by
  have notPast : offset - radius ≤ (text.take offset).length := by
    rw [List.length_take_of_le inside]
    exact Nat.sub_le offset radius
  have dropped : text.drop (offset - radius) =
      (text.take offset).rtake radius ++ text.drop offset := by
    rw [List.rtake, List.length_take_of_le inside, ← List.drop_append_of_le_length notPast,
      List.take_append_drop]
  have front := length_rtake_take inside radius
  rw [dropped, List.take_append, List.take_of_length_le (by omega), slice]
  congr 1
  rw [List.take_eq_take_iff, List.length_drop]
  omega

/-- An excerpt shows what stands around its offset. -/
theorem excerpt_shows {text : List Char} {offset : Nat} (inside : offset ≤ text.length)
    (radius : Nat) :
    Shows text offset radius ((slice text offset radius).map flatten) (min offset radius)
      (excerpt text offset radius) where
  lines := by
    have columnEq : offset - (offset - radius) = min offset radius := by omega
    rw [excerpt, Nat.min_eq_left inside, String.toList_ofList, take_drop_eq_slice inside, columnEq,
      List.append_assoc, List.cons_append]
  shown_eq := rfl
  flat := List.forall_mem_map.mpr fun character _ => flatten_not_mem character
  short := by
    rw [List.length_map, slice, List.length_append, length_rtake_take inside]
    have behind := List.length_take_le radius (text.drop offset)
    omega
  column_eq := (length_rtake_take inside radius).symm

namespace Shows

variable {text shown : List Char} {offset radius column : Nat} {context : String}

/-- The caret stands below the character at the offset. -/
theorem getElem?_column (shows : Shows text offset radius shown column context)
    (positive : 1 ≤ radius) : shown[column]? = text[offset]?.map flatten := by
  rw [shows.shown_eq, shows.column_eq, List.getElem?_map, slice,
    List.getElem?_append_right (Nat.le_refl _), Nat.sub_self, List.getElem?_take_of_lt positive,
    List.getElem?_drop, Nat.add_zero]

/-- At the end of the text the caret stands behind all that is shown. -/
theorem column_at_end (shows : Shows text text.length radius shown column context) :
    column = shown.length := by
  rw [shows.shown_eq, shows.column_eq, slice, List.drop_length, List.take_nil, List.append_nil,
    List.length_map]

end Shows

/-- The excerpt around a character that is neither a line end nor a tab has its caret below it. -/
theorem exists_shown {text : List Char} {offset radius : Nat} {character : Char}
    (positive : 1 ≤ radius) (isHere : text[offset]? = some character)
    (isPlain : character ∉ flattened) :
    ∃ shown column, Shows text offset radius shown column (excerpt text offset radius) ∧
      shown[column]? = some character := by
  rcases List.getElem?_eq_some_iff.mp isHere with ⟨inside, _⟩
  have shows := excerpt_shows (Nat.le_of_lt inside) radius
  refine ⟨_, _, shows, ?_⟩
  rw [shows.getElem?_column positive, isHere, Option.map_some, flatten_of_not_mem isPlain]

end TwinSwarm.Text
