import TwinSwarm.Proofs.Walk.Ending
import TwinSwarm.Proofs.Walk.Program

/-!
# The counter of levels is balanced

Two ways of handling the counter meet in the grammar.  A walk in brackets takes a level and gives
it back on its way out.  A chain of operators notes the counter, takes a level for each operator
without giving it back, and sets the counter to what was noted.  Every form of the grammar leaves
the counter as it was, wherever it is refused.  On the way it is never raised above the limit,
and no level is given back that was not taken.  So there is nothing to set back between two
declarations.
-/

namespace TwinSwarm.Walk

open Grammar

variable {α β : Type}

/-! ## The counter behind a walk -/

namespace Outcome

/-- The counter behind the walk is allowed, and the walk was not broken for its sake. -/
def LeavesDepth (allowed : Nat → Prop) : Outcome α → Prop
  | .found _ cursor => allowed cursor.depth
  | .refused _ cursor => allowed cursor.depth
  | .broken fault => fault = .outside
  | .unfinished => True

theorem LeavesDepth.imp {allowed allowed' : Nat → Prop} {outcome : Outcome α}
    (leaves : outcome.LeavesDepth allowed) (weaker : ∀ depth, allowed depth → allowed' depth) :
    outcome.LeavesDepth allowed' := by
  cases outcome with
  | found value cursor => exact weaker _ leaves
  | refused diagnostic cursor => exact weaker _ leaves
  | broken fault => exact leaves
  | unfinished => exact leaves

theorem LeavesDepth.of_cursor? {allowed : Nat → Prop} {outcome : Outcome α} {after : Cursor}
    (leaves : outcome.LeavesDepth allowed) (isLast : outcome.cursor? = some after) :
    allowed after.depth := by
  cases outcome with
  | found value cursor => cases isLast; exact leaves
  | refused diagnostic cursor => cases isLast; exact leaves
  | broken fault => cases isLast
  | unfinished => cases isLast

/-- A second walk starts with a counter that the first one may leave. -/
theorem LeavesDepth.bind {middle allowed : Nat → Prop} {walk : Walk α} {next : α → Walk β}
    {input : Input} {cursor : Cursor} (first : (walk input cursor).LeavesDepth middle)
    (refusals : ∀ depth, middle depth → allowed depth)
    (further : ∀ value after, middle after.depth → (next value input after).LeavesDepth allowed) :
    ((walk >>= next) input cursor).LeavesDepth allowed := by
  rw [bind_apply]
  cases walked : walk input cursor with rw [walked] at first
  | found value after => exact further value after first
  | refused diagnostic after => exact refusals _ first
  | broken fault => exact first
  | unfinished => trivial

/-- What is done on the way out decides which counter is left. -/
theorem LeavesDepth.leaving {middle : Nat → Prop} {depth : Nat} {walk : Walk α}
    {exit : Walk Unit} {input : Input} {cursor : Cursor}
    (inner : (walk input cursor).LeavesDepth middle)
    (exits : ∀ after : Cursor, middle after.depth →
      exit input after = .found () { after with depth }) :
    (walk.leaving exit input cursor).LeavesDepth (· = depth) := by
  rw [Walk.leaving]
  cases walked : walk input cursor with rw [walked] at inner
  | found value after =>
      simp only [bind_of_found (exits after inner)]
      rfl
  | refused diagnostic after =>
      simp only [bind_of_found (exits after inner)]
      rfl
  | broken fault => exact inner
  | unfinished => trivial

end Outcome

/-- The walk leaves the counter as it was. -/
def KeepsDepth (walk : Walk α) : Prop :=
  ∀ input cursor, cursor.depth ≤ input.limit →
    (walk input cursor).LeavesDepth (· = cursor.depth)

/-- The walk may raise the counter, but not above the limit. -/
def RaisesDepth (walk : Walk α) : Prop :=
  ∀ input cursor, cursor.depth ≤ input.limit →
    (walk input cursor).LeavesDepth fun depth => cursor.depth ≤ depth ∧ depth ≤ input.limit

theorem KeepsDepth.raises {walk : Walk α} (keeps : KeepsDepth walk) : RaisesDepth walk := by
  intro input cursor fits
  refine (keeps input cursor fits).imp fun depth isSame => ?_
  exact ⟨Nat.le_of_eq isSame.symm, isSame ▸ fits⟩

namespace KeepsDepth

theorem of_bind {walk : Walk α} {next : α → Walk β} (first : KeepsDepth walk)
    (further : ∀ value, KeepsDepth (next value)) : KeepsDepth (walk >>= next) := by
  intro input cursor fits
  refine (first input cursor fits).bind (fun _ isSame => isSame) fun value after isSame => ?_
  have others := further value input after (isSame ▸ fits)
  rwa [isSame] at others

theorem of_tokenAt (position : Nat) : KeepsDepth (tokenAt position) := by
  intro input cursor _
  rw [tokenAt]
  split
  · exact rfl
  · exact rfl

theorem of_peek : KeepsDepth peek := fun input cursor => of_tokenAt cursor.position input cursor

theorem of_previous : KeepsDepth previous :=
  fun input cursor => of_tokenAt (cursor.position - 1) input cursor

theorem of_isAtEnd : KeepsDepth isAtEnd := of_bind of_peek fun _ _ _ _ => rfl

theorem of_advance : KeepsDepth advance := by
  refine of_bind of_isAtEnd fun atEnd => ?_
  cases atEnd with
  | true => exact of_previous
  | false => exact of_bind (fun _ _ _ => rfl) fun _ => of_previous

theorem of_refuse (complaint : Complaint) : KeepsDepth (refuse complaint : Walk α) :=
  of_bind of_peek fun _ _ _ _ => rfl

theorem of_tokenOf (kind : Token.Kind) (wanted : Expectation) :
    KeepsDepth (tokenOf kind wanted) := by
  refine of_bind (of_bind of_peek fun _ _ _ _ => rfl) fun isKind => ?_
  cases isKind with
  | true => exact of_bind of_advance fun _ _ _ _ => rfl
  | false => exact of_refuse _

end KeepsDepth

/-- Behind a refusal nothing is walked. -/
theorem refuse_bind (complaint : Complaint) (next : α → Walk β) :
    ((refuse complaint : Walk α) >>= next) = refuse complaint := by
  funext input cursor
  rw [bind_apply, refuse, refuse, bind_apply, bind_apply]
  cases peek input cursor <;> rfl

/-- Taking a level keeps the counter within the limit, or is refused. -/
theorem deepen_bind {input : Input} {cursor : Cursor} (fits : cursor.depth ≤ input.limit)
    (walk : Walk α) :
    (deepen >>= fun _ => walk) input cursor =
      if cursor.depth = input.limit then refuse .nestedTooDeeply input cursor
      else walk input { cursor with depth := cursor.depth + 1 } := by
  by_cases noneLeft : cursor.depth = input.limit
  · have refuses : deepen input cursor = refuse .nestedTooDeeply input cursor :=
      if_pos (Nat.le_of_eq noneLeft.symm)
    rw [if_pos noneLeft, bind_apply, refuses, ← bind_apply, refuse_bind]
  · have isLeft : cursor.depth + 1 ≤ input.limit := by omega
    have deepens : deepen input cursor = .found () { cursor with depth := cursor.depth + 1 } :=
      (if_neg (Nat.not_le_of_lt isLeft)).trans (if_pos isLeft)
    rw [if_neg noneLeft, bind_of_found deepens]

/-- The walk in brackets gives back the level it has taken. -/
theorem KeepsDepth.of_nested {walk : Walk α} (inner : KeepsDepth walk) :
    KeepsDepth (nested walk) := by
  intro input cursor fits
  rw [nested, deepen_bind fits]
  split
  next => exact of_refuse .nestedTooDeeply input cursor fits
  next isLeft =>
    have below : cursor.depth + 1 ≤ input.limit := by omega
    refine (inner input _ below).leaving fun after isDeeper => ?_
    rw [giveBack, isDeeper]
    exact if_pos fits

/-- Whatever levels the walk has taken, the counter is set back. -/
theorem RaisesDepth.balanced {walk : Walk α} (raises : RaisesDepth walk) :
    KeepsDepth (balanced walk) :=
  fun input cursor fits => (raises input cursor fits).leaving fun _ _ => if_pos fits

theorem RaisesDepth.of_bind {walk : Walk α} {next : α → Walk β} (first : KeepsDepth walk)
    (further : ∀ value, RaisesDepth (next value)) : RaisesDepth (walk >>= next) := by
  intro input cursor fits
  refine (first input cursor fits).bind (fun depth isSame => ?_) fun value after isSame => ?_
  · exact ⟨Nat.le_of_eq isSame.symm, isSame ▸ fits⟩
  · have others := further value input after (isSame ▸ fits)
    rwa [isSame] at others

/-- The level of an operator is still taken at the end of the chain. -/
theorem RaisesDepth.of_deepen {walk : Walk α} (raises : RaisesDepth walk) :
    RaisesDepth (deepen >>= fun _ => walk) := by
  intro input cursor fits
  rw [deepen_bind fits]
  split
  next => exact (KeepsDepth.of_refuse .nestedTooDeeply).raises input cursor fits
  next isLeft =>
    have below : cursor.depth + 1 ≤ input.limit := by omega
    refine (raises input _ below).imp fun depth bounds => ?_
    exact ⟨Nat.le_of_succ_le bounds.1, bounds.2⟩

theorem depth_closed : Closed @KeepsDepth @RaisesDepth where
  of_pure _ _ _ _ := rfl
  of_unfinished _ _ _ := trivial
  of_refuse := .of_refuse
  of_peek := .of_peek
  of_peekAhead _ _ _ _ := rfl
  of_passing walk := .of_bind .of_advance fun _ => walk
  of_tokenOf _ wanted := .of_tokenOf _ wanted
  of_bind := .of_bind
  of_nested := .of_nested
  of_balanced := RaisesDepth.balanced
  strays_of_keeps := KeepsDepth.raises
  strays_of_bind := .of_bind
  strays_of_deepen := .of_deepen

/-! ## Between declarations -/

/-- Read one declaration with the counter as it is, or pass over what cannot be read. -/
def freeTurn (fuel : Nat) : Walk (Except Diagnostic Declaration) := do
  let outcome ← attempted (declaration fuel)
  match outcome with
  | .ok declared => return .ok declared
  | .error diagnostic =>
      synchronize fuel
      return .error diagnostic

/-- One turn after the other up to the end, in which the counter is never reset. -/
def freeTurns : Nat → Walk (List (Except Diagnostic Declaration))
  | 0 => unfinished
  | fuel + 1 => do
      if ← isAtEnd then return []
      else
        let first ← freeTurn fuel
        let others ← freeTurns fuel
        return first :: others

theorem KeepsDepth.of_attempted {walk : Walk α} (keeps : KeepsDepth walk) :
    KeepsDepth (attempted walk) := by
  intro input cursor fits
  have leaves := keeps input cursor fits
  rw [attempted]
  cases walked : walk input cursor with rw [walked] at leaves
  | found value after => exact leaves
  | refused diagnostic after => exact leaves
  | broken fault => exact leaves
  | unfinished => trivial

theorem synchronizeFrom_keepsDepth (fuel : Nat) : KeepsDepth (synchronizeFrom fuel) := by
  have done : KeepsDepth (pure () : Walk Unit) := fun _ _ _ => rfl
  induction fuel with
  | zero => exact fun _ _ _ => trivial
  | succ fuel ih =>
      refine .of_bind .of_isAtEnd fun atEnd => Closed.of_ite done ?_
      refine .of_bind .of_previous fun passed => Closed.of_ite done ?_
      refine .of_bind .of_peek fun next => Closed.of_ite done ?_
      exact .of_bind .of_advance fun _ => ih

theorem freeTurn_keepsDepth (fuel : Nat) : KeepsDepth (freeTurn fuel) := by
  refine .of_bind (.of_attempted (depth_closed.declaration fuel)) fun outcome => ?_
  cases outcome with
  | ok declared => exact fun _ _ _ => rfl
  | error diagnostic =>
      refine .of_bind (.of_bind .of_advance fun _ => ?_) fun _ _ _ _ => rfl
      exact synchronizeFrom_keepsDepth fuel

/-- A turn only resets a counter that is zero already. -/
theorem turn_eq_freeTurn (fuel : Nat) (input : Input) {cursor : Cursor} (fresh : cursor.depth = 0) :
    turn fuel input cursor = freeTurn fuel input cursor := by
  have stays : setDepth 0 input cursor = .found () cursor := by
    rw [setDepth, if_pos (Nat.zero_le _), ← fresh]
  exact bind_of_found stays

/-- Two walks that begin alike are the same if they go on alike behind what is found. -/
theorem bind_congr {walk : Walk α} {next next' : α → Walk β} {input : Input} {cursor : Cursor}
    (further : ∀ value after, walk input cursor = .found value after →
      next value input after = next' value input after) :
    (walk >>= next) input cursor = (walk >>= next') input cursor := by
  rw [bind_apply, bind_apply]
  cases walked : walk input cursor with
  | found value after => exact further value after walked
  | refused diagnostic after => rfl
  | broken fault => rfl
  | unfinished => rfl

/-- The counter is zero again behind each turn. -/
theorem turns_eq_freeTurns (fuel : Nat) (input : Input) {cursor : Cursor}
    (fresh : cursor.depth = 0) : turns fuel input cursor = freeTurns fuel input cursor := by
  have zero_within (cursor : Cursor) (fresh : cursor.depth = 0) : cursor.depth ≤ input.limit :=
    fresh ▸ Nat.zero_le _
  induction fuel generalizing cursor with
  | zero => rfl
  | succ fuel ih =>
      refine bind_congr fun atEnd here looked => ?_
      have still : here.depth = 0 := by
        have leaves := KeepsDepth.of_isAtEnd input cursor (zero_within cursor fresh)
        rw [looked] at leaves
        exact leaves.trans fresh
      cases atEnd with
      | true => rfl
      | false =>
          have turnEq := turn_eq_freeTurn fuel input still
          show (turn fuel >>= _) input here = (freeTurn fuel >>= _) input here
          rw [bind_apply, turnEq, ← bind_apply]
          refine bind_congr fun outcome behind turned => ?_
          have again : behind.depth = 0 := by
            have leaves := freeTurn_keepsDepth fuel input here (zero_within here still)
            rw [turned] at leaves
            exact leaves.trans still
          rw [bind_apply, ih again, ← bind_apply]

/-! ## Balance -/

/-- The last token marks the end. -/
theorem closed_endsLast (tokens : List Token) :
    ∃ before last, closed tokens = before ++ [last] ∧ last.kind = .endOfFile := by
  unfold closed
  split
  next isClosed =>
    rcases Option.map_eq_some_iff.mp isClosed with ⟨last, isLast, isEnd⟩
    rcases List.getLast?_eq_some_iff.mp isLast with ⟨before, tokensEq⟩
    exact ⟨before, last, tokensEq, isEnd⟩
  next => exact ⟨tokens, _, rfl, rfl⟩

theorem endsBehind_ofTokens (tokens : List Token) (source : SourceText) (limit radius : Nat)
    {place : Nat} (inside : place < (Input.ofTokens tokens source limit radius).tokens.length) :
    (Input.ofTokens tokens source limit radius).EndsBehind place := by
  rcases closed_endsLast tokens with ⟨before, last, closedEq, isEnd⟩
  refine ⟨last, ?_, isEnd⟩
  have bound : place ≤ before.length := by
    have within : place < (closed tokens).length := inside
    rw [closedEq, List.length_append, List.length_singleton] at within
    exact Nat.le_of_lt_succ within
  show last ∈ (closed tokens).drop place
  rw [closedEq, List.drop_append_of_le_length bound]
  exact List.mem_append_right _ List.mem_cons_self

/-- Wherever a form of the grammar starts and whatever the tokens are, it finds something or is
refused, and leaves the counter as it was.  No run of it is broken by a counter above the limit
or by a level given back that was not taken.  The rest of a chain keeps the levels it takes, and
stays within the limit as well.  Between two declarations the counter is zero, so that the loop
does the same without the reset. -/
theorem levels_balanced (tokens : List Token) (source : SourceText) (limit radius : Nat) :
    let input := Input.ofTokens tokens source limit radius
    (∀ {α : Type} {walk : Nat → Walk α}, Form walk →
      ∀ cursor : Cursor, cursor.position < input.tokens.length → cursor.depth ≤ limit →
        (∃ outcome after, Settles walk input cursor outcome ∧ outcome.cursor? = some after ∧
          after.depth = cursor.depth) ∧
        ∀ fuel, (walk fuel input cursor).LeavesDepth (· = cursor.depth)) ∧
    (∀ level left, ∀ cursor : Cursor, cursor.position < input.tokens.length →
      cursor.depth ≤ limit →
        Returns (fun fuel => chainFrom fuel level left) input cursor ∧
        ∀ fuel, (chainFrom fuel level left input cursor).LeavesDepth fun depth =>
          cursor.depth ≤ depth ∧ depth ≤ limit) ∧
    ∀ fuel, ∀ cursor : Cursor, cursor.depth = 0 →
      turns fuel input cursor = freeTurns fuel input cursor := by
  intro input
  refine ⟨?_, ?_, fun fuel cursor fresh => turns_eq_freeTurns fuel input fresh⟩
  · intro α walk form cursor inside fits
    have keeps (fuel : Nat) : (walk fuel input cursor).LeavesDepth (· = cursor.depth) :=
      depth_closed.form form fuel input cursor fits
    have behind := endsBehind_ofTokens tokens source limit radius inside
    -- A run that comes to an end has one outcome, whatever the fuel, so `keeps` speaks of it.
    rcases form.ends.returns (sight_closed.form form) fits behind with
      ⟨outcome, after, ⟨enough, walked⟩, isLast⟩
    have leaves := keeps enough
    rw [walked enough (Nat.le_refl _)] at leaves
    exact ⟨⟨outcome, after, ⟨enough, walked⟩, isLast, leaves.of_cursor? isLast⟩, keeps⟩
  · intro level left cursor inside fits
    have behind := endsBehind_ofTokens tokens source limit radius inside
    have blind (fuel : Nat) := (sight_closed.expressions fuel).chainFrom level left
    refine ⟨(chainFrom_ends level left).returns blind fits behind, fun fuel => ?_⟩
    exact (depth_closed.expressions fuel).chainFrom level left input cursor fits

/-- The tokens of `( - a ] + [ b`. -/
def openBrackets : List Token :=
  [.ofMark "(" ⟨1, 1⟩, ⟨.operator, "-", ⟨1, 3⟩⟩, .ofName "a" ⟨1, 5⟩, .ofMark "]" ⟨1, 7⟩,
    ⟨.operator, "+", ⟨1, 9⟩⟩, .ofMark "[" ⟨1, 11⟩, .ofName "b" ⟨1, 13⟩]

/-- With one of two levels in use there is one left for the bracket and none for the sign.  The
counter is one again behind the expression. -/
theorem levels_balanced_openBrackets :
    let input := Input.ofTokens openBrackets (.ofString "( - a ] + [ b") 2 0
    Form expression ∧ (0 < input.tokens.length ∧ 1 ≤ 2) ∧
      ∃ outcome after, Settles expression input ⟨0, 1⟩ outcome ∧
        outcome.cursor? = some after ∧ after.depth = 1 := by
  intro input
  have form : Form expression := .chain .disjunction
  have balanced := levels_balanced openBrackets (.ofString "( - a ] + [ b") 2 0
  exact ⟨form, by decide, (balanced.1 form ⟨0, 1⟩ (by decide) (by decide)).1⟩

end TwinSwarm.Walk
