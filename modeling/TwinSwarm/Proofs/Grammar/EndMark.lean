import TwinSwarm.Grammar.Program

/-!
# The end mark

Only the tokens before the first end mark are read, and that mark gives the place of the end.
Tokens none of which is an end mark can be put in front of others or left out, and neither the end
nor what is read behind them changes.
-/

namespace TwinSwarm.Grammar

variable {tokens : List Token}

theorem kind_of_beforeEnd {token : Token} (isBefore : token ∈ beforeEnd tokens) :
    token.kind ≠ .endOfFile := by
  simpa using List.all_eq_true.mp List.all_takeWhile token isBefore

theorem beforeEnd_cons_end {mark : Token} (isEnd : mark.kind = .endOfFile) (beyond : List Token) :
    beforeEnd (mark :: beyond) = [] :=
  List.takeWhile_cons_of_neg (by simpa using isEnd)

section Used

variable {used behind : List Token} (noEnd : ∀ token ∈ used, token.kind ≠ .endOfFile)

include noEnd

theorem beforeEnd_append : beforeEnd (used ++ behind) = used ++ beforeEnd behind :=
  List.takeWhile_append_of_pos fun token isUsed => by simpa using noEnd token isUsed

theorem find?_end_append :
    (used ++ behind).find? (fun token => token.kind = .endOfFile) =
      behind.find? fun token => token.kind = .endOfFile := by
  have notFound : used.find? (fun token => token.kind = .endOfFile) = none :=
    List.find?_eq_none.mpr fun token isUsed => by simpa using noEnd token isUsed
  rw [List.find?_append, notFound, Option.none_or]

theorem endLocation_append (nonempty : behind ≠ []) :
    endLocation (used ++ behind) = endLocation behind := by
  have sameLast : (used ++ behind).getLast? = behind.getLast? := by
    rw [List.getLast?_append, List.getLast?_eq_some_getLast nonempty, Option.some_or]
  rw [endLocation, endLocation, find?_end_append noEnd, sameLast]

end Used

/-- What stands before the end from a position on, and the end, are the same if the tokens before
the position are left out. -/
theorem drop_beforeEnd {position : Nat} (inFront : position < (beforeEnd tokens).length) :
    beforeEnd (tokens.drop position) = (beforeEnd tokens).drop position ∧
      endLocation (tokens.drop position) = endLocation tokens := by
  have isPrefix : beforeEnd tokens <+: tokens := List.takeWhile_prefix _
  have fits : position < tokens.length := Nat.lt_of_lt_of_le inFront isPrefix.length_le
  have noEnd : ∀ token ∈ tokens.take position, token.kind ≠ .endOfFile := by
    intro token isUsed
    rcases isPrefix with ⟨rest, tokensEq⟩
    rw [← tokensEq, List.take_append_of_le_length (Nat.le_of_lt inFront)] at isUsed
    exact kind_of_beforeEnd (List.mem_of_mem_take isUsed)
  have insideEq : beforeEnd (tokens.take position ++ tokens.drop position) = _ :=
    beforeEnd_append noEnd
  have nonempty : tokens.drop position ≠ [] := by simpa using fits
  have endEq := endLocation_append noEnd nonempty
  have usedLength : (tokens.take position).length = position :=
    List.length_take_of_le (Nat.le_of_lt fits)
  rw [List.take_append_drop] at insideEq endEq
  rw [insideEq, endEq, List.drop_left' usedLength]
  exact ⟨rfl, rfl⟩

/-- A new reading from a position on makes the attempts that are left there. -/
theorem ofTokens_drop {position : Nat} (limit : Nat)
    (inFront : position < (beforeEnd tokens).length) :
    Parsing.ofTokens limit (tokens.drop position) =
      ⟨attempts limit ((beforeEnd tokens).drop position), endLocation tokens, limit⟩ := by
  rcases drop_beforeEnd inFront with ⟨insideEq, endEq⟩
  rw [Parsing.ofTokens, insideEq, endEq]

end TwinSwarm.Grammar
