import TwinSwarm.Text.Excerpt

/-!
# The offsets of locations

A walk over a text and the index of its lines keep account of places in different ways.
They agree: the location that is reached behind some characters of a text is turned back
into the number of these characters.
-/

namespace TwinSwarm

namespace Location

/-- A walk over a text moves down one line for each line feed. -/
theorem line_afterText (location : Location) (text : List Char) :
    (location.afterText text).line = location.line + text.count '\n' := by
  induction text generalizing location with
  | nil => rfl
  | cons character rest ih =>
      rw [afterText_cons, ih, after]
      by_cases ends : character = '\n'
      · rw [if_pos ends, ends, List.count_cons_self]
        exact Nat.succ_add_eq_add_succ ..
      · rw [if_neg ends, List.count_cons_of_ne ends]

end Location

namespace Text

/-- The index holds the start of the line that a walk has reached.  The walk and the index
begin at an offset, in a line that starts at `lineStart`. -/
theorem exists_lineStart {offset lineStart : Nat} (location : Location)
    (starts : lineStart ≤ offset) (inLine : lineStart + location.column = offset + 1)
    (before behind : List Char) :
    ∃ reached, (lineStart :: offsetsAfterLineFeeds offset (before ++ behind))[before.count '\n']? =
        some reached ∧ reached ≤ offset + before.length ∧
      reached + (location.afterText before).column = offset + before.length + 1 := by
  induction before generalizing offset lineStart location with
  | nil => exact ⟨lineStart, rfl, starts, inLine⟩
  | cons character rest ih =>
      rw [List.cons_append, offsetsAfterLineFeeds, Location.afterText_cons, Location.after,
        List.length_cons]
      by_cases ends : character = '\n'
      · rcases @ih _ _ ⟨location.line + 1, 1⟩ (Nat.le_refl (offset + 1)) rfl with
          ⟨reached, isReached, notPast, columnEq⟩
        rw [if_pos ends, if_pos ends, ends, List.count_cons_self]
        exact ⟨reached, isReached, by omega, by omega⟩
      · have moved : lineStart + (location.column + 1) = offset + 1 + 1 := by omega
        rcases @ih _ _ ⟨location.line, location.column + 1⟩ (Nat.le_succ_of_le starts) moved
          with ⟨reached, isReached, notPast, columnEq⟩
        rw [if_neg ends, if_neg ends, List.count_cons_of_ne ends]
        exact ⟨reached, isReached, by omega, by omega⟩

end Text

/-- The location behind some characters of a text is turned back into their number. -/
theorem SourceText.offsetOf_afterText {source : String} {before behind : List Char}
    (split : source.toList = before ++ behind) :
    (ofString source).offsetOf (Location.start.afterText before) = before.length := by
  rcases Text.exists_lineStart .start (Nat.le_refl 0) rfl before behind with
    ⟨reached, isReached, notPast, columnEq⟩
  have lineEq : (Location.start.afterText before).line - 1 = before.count '\n' := by
    rw [Location.line_afterText]
    exact Nat.add_sub_cancel_left ..
  have lengthEq : source.toList.length = before.length + behind.length := by
    rw [split, List.length_append]
  rw [offsetOf, lineEq]
  simp only [ofString, Text.lineStarts, split, isReached]
  rw [List.length_append]
  omega

end TwinSwarm
