import TwinSwarm.Proofs.Walk.Closure
import TwinSwarm.Proofs.Walk.Course

/-!
# The forms of the grammar come to an end

A form of the grammar follows its recogniser from every position before the first end mark, and
so it comes to an end there.  From any other position it does the same as long as some end mark
is to come: it does not look at what stands before the cursor, so what stands there might as
well be tokens that mark no end.
-/

namespace TwinSwarm.Walk

open Grammar

variable {α β : Type}

/-- The cursor behind a walk that has come to an end. -/
def Outcome.cursor? : Outcome α → Option Cursor
  | .found _ cursor => some cursor
  | .refused _ cursor => some cursor
  | .broken _ => none
  | .unfinished => none

theorem Outcome.ahead_of_none {outcome : Outcome α} {place : Nat}
    (isNone : outcome.cursor? = none) :
    ∀ after ∈ outcome.cursor?, place ≤ after.position := by
  intro after isAfter
  rw [isNone] at isAfter
  exact absurd isAfter (Option.not_mem_none after)

/-! ## What stands before the cursor -/

/-- Two inputs that are the same from a place on. -/
structure SameFrom (place : Nat) (input other : Input) : Prop where
  tokens : ∀ position, place ≤ position → input.tokens[position]? = other.tokens[position]?
  source : input.source = other.source
  limit : input.limit = other.limit
  radius : input.radius = other.radius

/-- The walk does not look at what stands before the cursor, and does not go back. -/
def LooksAhead (walk : Walk α) : Prop :=
  ∀ ⦃place : Nat⦄ ⦃input other : Input⦄, SameFrom place input other →
    ∀ cursor, place ≤ cursor.position →
      walk input cursor = walk other cursor ∧
        ∀ after ∈ (walk input cursor).cursor?, place ≤ after.position

/-- A token is passed over unless it marks the end. -/
def Cursor.past (cursor : Cursor) (token : Token) : Cursor :=
  if token.kind = .endOfFile then cursor else { cursor with position := cursor.position + 1 }

theorem Cursor.le_past (cursor : Cursor) (token : Token) :
    cursor.position ≤ (cursor.past token).position := by
  rw [past]
  split
  · exact Nat.le_refl _
  · exact Nat.le_succ _

/-- Which token was passed over last does not matter if it is not asked for. -/
theorem advance_bind (walk : Walk α) (input : Input) (cursor : Cursor) :
    (advance >>= fun _ => walk) input cursor =
      match input.tokens[cursor.position]? with
      | none => .broken .outside
      | some token => walk input (cursor.past token) := by
  rw [bind_apply, advance, bind_apply, isAtEnd, bind_apply, peek, tokenAt]
  cases isHere : input.tokens[cursor.position]? with
  | none => rfl
  | some token =>
      simp only [pure_apply, Cursor.past]
      by_cases isEnd : token.kind = .endOfFile
      · have inside : cursor.position < input.tokens.length :=
          (List.getElem?_eq_some_iff.mp isHere).1
        have before : cursor.position - 1 < input.tokens.length := by omega
        simp only [isEnd, decide_true, if_true, previous, tokenAt,
          List.getElem?_eq_getElem before]
      · simp only [isEnd, decide_false, Bool.false_eq_true, if_false]
        rw [bind_apply, step]
        simp only [previous, tokenAt, Nat.add_sub_cancel, isHere]

/-- The token of a kind is asked for behind a test of the kind. -/
theorem tokenOf_apply {kind : Token.Kind} (notEnd : kind ≠ .endOfFile) (wanted : Expectation)
    (input : Input) (cursor : Cursor) :
    tokenOf kind wanted input cursor =
      match input.tokens[cursor.position]? with
      | none => .broken .outside
      | some token =>
          if token.kind = kind then
            .found token.text { cursor with position := cursor.position + 1 }
          else refuse (.expected wanted) input cursor := by
  rw [tokenOf, bind_apply, checkKind, bind_apply, peek, tokenAt]
  cases isHere : input.tokens[cursor.position]? with
  | none => rfl
  | some token =>
      simp only [pure_apply]
      by_cases isKind : token.kind = kind
      · have goesOn : token.kind ≠ .endOfFile := isKind ▸ notEnd
        simp only [isKind, decide_true, if_true]
        rw [bind_apply, advance, bind_apply, isAtEnd, bind_apply, peek, tokenAt, isHere]
        simp only [pure_apply, goesOn, decide_false, Bool.false_eq_true, if_false]
        rw [bind_apply, step]
        simp only [previous, tokenAt, Nat.add_sub_cancel, isHere]
      · simp only [isKind, decide_false, Bool.false_eq_true, if_false]

namespace LooksAhead

variable {walk : Walk α}

/-- A walk that stays where it is and looks at nothing. -/
theorem of_stays (outcome : Cursor → Outcome α)
    (stays : ∀ cursor, ∀ after ∈ (outcome cursor).cursor?, after = cursor) :
    LooksAhead fun _ cursor => outcome cursor :=
  fun _ _ _ _ cursor ahead => ⟨rfl, fun after isAfter => stays cursor after isAfter ▸ ahead⟩

theorem of_pure (value : α) : LooksAhead (pure value : Walk α) :=
  of_stays (.found value) fun _ _ isAfter => (Option.some.inj isAfter).symm

theorem of_refused (diagnostic : Diagnostic) : LooksAhead (refused diagnostic : Walk α) :=
  of_stays (.refused diagnostic) fun _ _ isAfter => (Option.some.inj isAfter).symm

theorem of_bind {next : α → Walk β} (first : LooksAhead walk)
    (further : ∀ value, LooksAhead (next value)) : LooksAhead (walk >>= next) := by
  intro place input other same cursor ahead
  rcases first same cursor ahead with ⟨walkEq, stays⟩
  rw [bind_apply, bind_apply, ← walkEq]
  cases walked : walk input cursor with rw [walked] at stays
  | found value after => exact further value same after (stays after rfl)
  | refused diagnostic after => exact ⟨rfl, stays⟩
  | broken fault => exact ⟨rfl, Outcome.ahead_of_none rfl⟩
  | unfinished => exact ⟨rfl, Outcome.ahead_of_none rfl⟩

theorem of_peek : LooksAhead peek := by
  intro place input other same cursor ahead
  rw [peek, peek, tokenAt, tokenAt, same.tokens _ ahead]
  cases other.tokens[cursor.position]? with
  | none => exact ⟨rfl, Outcome.ahead_of_none rfl⟩
  | some token => exact ⟨rfl, fun after isAfter => (Option.some.inj isAfter) ▸ ahead⟩

theorem of_peekAhead (count : Nat) : LooksAhead (peekAhead count) := by
  intro place input other same cursor ahead
  rw [peekAhead, peekAhead, same.tokens _ (Nat.le_add_right_of_le ahead)]
  exact ⟨rfl, fun after isAfter => (Option.some.inj isAfter) ▸ ahead⟩

theorem of_refuse (complaint : Complaint) : LooksAhead (refuse complaint : Walk α) := by
  refine of_bind of_peek fun token => ?_
  intro place input other same cursor ahead
  rw [refuseToken, refuseToken, same.source, same.limit, same.radius]
  exact ⟨rfl, fun after isAfter => (Option.some.inj isAfter) ▸ ahead⟩

theorem of_passing (further : LooksAhead walk) : LooksAhead (advance >>= fun _ => walk) := by
  intro place input other same cursor ahead
  rw [advance_bind, advance_bind, same.tokens _ ahead]
  cases other.tokens[cursor.position]? with
  | none => exact ⟨rfl, Outcome.ahead_of_none rfl⟩
  | some token => exact further same _ (Nat.le_trans ahead (cursor.le_past token))

theorem of_tokenOf {kind : Token.Kind} (notEnd : kind ≠ .endOfFile) (wanted : Expectation) :
    LooksAhead (tokenOf kind wanted) := by
  intro place input other same cursor ahead
  rw [tokenOf_apply notEnd, tokenOf_apply notEnd, same.tokens _ ahead]
  cases other.tokens[cursor.position]? with
  | none => exact ⟨rfl, Outcome.ahead_of_none rfl⟩
  | some token =>
      dsimp only
      split
      · exact ⟨rfl, fun after isAfter => (Option.some.inj isAfter) ▸ Nat.le_succ_of_le ahead⟩
      · exact of_refuse _ same cursor ahead

theorem of_setDepth (depth : Nat) : LooksAhead (setDepth depth) := by
  intro place input other same cursor ahead
  rw [setDepth, setDepth, same.limit]
  split
  · exact ⟨rfl, fun after isAfter => (Option.some.inj isAfter) ▸ ahead⟩
  · exact ⟨rfl, Outcome.ahead_of_none rfl⟩

theorem of_deepen : LooksAhead deepen := by
  intro place input other same cursor ahead
  rw [deepen, deepen, same.limit]
  split
  · exact of_refuse _ same cursor ahead
  · exact of_setDepth _ same cursor ahead

theorem of_giveBack : LooksAhead giveBack := by
  intro place input other same cursor ahead
  rw [giveBack, giveBack]
  cases cursor.depth with
  | zero => exact ⟨rfl, Outcome.ahead_of_none rfl⟩
  | succ depth => exact of_setDepth depth same cursor ahead

theorem of_leaving {exit : Walk Unit} (inner : LooksAhead walk) (exits : LooksAhead exit) :
    LooksAhead (walk.leaving exit) := by
  intro place input other same cursor ahead
  rcases inner same cursor ahead with ⟨walkEq, behind⟩
  rw [leaving, leaving, ← walkEq]
  cases walked : walk input cursor with rw [walked] at behind
  | found value after =>
      exact of_bind exits (fun _ => of_pure value) same after (behind after rfl)
  | refused diagnostic after =>
      exact of_bind exits (fun _ => of_refused diagnostic) same after (behind after rfl)
  | broken fault => exact ⟨rfl, Outcome.ahead_of_none rfl⟩
  | unfinished => exact ⟨rfl, Outcome.ahead_of_none rfl⟩

theorem of_balanced (inner : LooksAhead walk) : LooksAhead (balanced walk) :=
  fun _ _ _ same cursor ahead => of_leaving inner (of_setDepth cursor.depth) same cursor ahead

end LooksAhead

theorem sight_closed : Closed @LooksAhead @LooksAhead where
  of_pure := .of_pure
  of_unfinished _ _ _ := ⟨rfl, Outcome.ahead_of_none rfl⟩
  of_refuse := .of_refuse
  of_peek := .of_peek
  of_peekAhead := .of_peekAhead
  of_passing := .of_passing
  of_tokenOf := .of_tokenOf
  of_bind := .of_bind
  of_nested inner := .of_bind .of_deepen fun _ => .of_leaving inner .of_giveBack
  of_balanced := .of_balanced
  strays_of_keeps := id
  strays_of_bind := .of_bind
  strays_of_deepen inner := .of_bind .of_deepen fun _ => inner

/-- Some token at or behind the place marks the end. -/
def Input.EndsBehind (input : Input) (place : Nat) : Prop :=
  ∃ token ∈ input.tokens.drop place, token.kind = .endOfFile

namespace Input.EndsBehind

variable {input : Input} {place : Nat} (ends : input.EndsBehind place)

/-- Tokens that mark no end, up to a place from which on the input is the same. -/
def cleared (ends : input.EndsBehind place) : Input :=
  { input with
    tokens := List.replicate place ⟨.identifier, "", .start⟩ ++ input.tokens.drop place
    ends := ends.imp fun _ isEnd => ⟨List.mem_append_right _ isEnd.1, isEnd.2⟩ }

theorem sameFrom_cleared : SameFrom place input ends.cleared where
  tokens position behind := by
    have padded : (List.replicate place (⟨.identifier, "", .start⟩ : Token)).length ≤ position := by
      rwa [List.length_replicate]
    rw [cleared, List.getElem?_append_right padded, List.length_replicate, List.getElem?_drop,
      Nat.add_sub_cancel' behind]
  source := rfl
  limit := rfl
  radius := rfl

/-- In the cleared input the place stands before the first end mark. -/
theorem exists_cursorAt (depth : Nat) : ∃ tokens, tokens <:+ ends.cleared.inside ∧
    ends.cleared.cursorAt tokens depth = ⟨place, depth⟩ := by
  have noEnd : ∀ token ∈ List.replicate place (⟨.identifier, "", .start⟩ : Token),
      token.kind ≠ .endOfFile := by
    intro token isPadding
    rw [List.eq_of_mem_replicate isPadding]
    decide
  have insideEq : ends.cleared.inside =
      List.replicate place ⟨.identifier, "", .start⟩ ++ beforeEnd (input.tokens.drop place) :=
    beforeEnd_append noEnd
  refine ⟨beforeEnd (input.tokens.drop place), ?_, ?_⟩
  · exact insideEq ▸ List.suffix_append _ _
  · simp [cursorAt, insideEq]

end Input.EndsBehind

/-! ## The walks come to an end -/

/-- The walk finds something or is refused, if it has enough fuel. -/
def Returns (walk : Nat → Walk α) (input : Input) (cursor : Cursor) : Prop :=
  ∃ outcome after, Settles walk input cursor outcome ∧ outcome.cursor? = some after

/-- The walk comes to an end before the first end mark, with any number of levels left. -/
def Ends (walk : Nat → Walk α) : Prop :=
  ∀ (input : Input) (tokens : List Token) (depth : Nat), tokens <:+ input.inside →
    depth ≤ input.limit → Returns walk input (input.cursorAt tokens depth)

theorem exists_cursor? (input : Input) (depth : Nat) (answer : Except Failure (α × List Token)) :
    ∃ after, (input.outcome depth answer).cursor? = some after := by
  cases answer with
  | ok result => exact ⟨_, rfl⟩
  | error failure => exact ⟨_, rfl⟩

theorem Strays.ends {walk : Nat → Walk α} {recogniser : Nat → Recogniser α}
    (strays : ∀ budget, Strays budget walk (recogniser budget)) : Ends walk := by
  intro input tokens depth suffix fits
  rcases (strays (input.limit - depth)).course suffix (Nat.add_sub_cancel' fits) with
    ⟨after, settles⟩
  rcases exists_cursor? input after (recogniser (input.limit - depth) tokens) with ⟨last, isLast⟩
  exact ⟨_, last, settles, isLast⟩

theorem Follows.ends {walk : Nat → Walk α} {recogniser : Nat → Recogniser α}
    (follows : ∀ budget, Follows budget walk (recogniser budget)) : Ends walk :=
  Strays.ends fun budget => (follows budget).strays

/-- A statement that begins with a name is followed behind the test for a name.  Without a name
it is refused. -/
theorem callOrAssignment_ends (place : Location) :
    Ends fun fuel => callOrAssignment fuel place := by
  intro input tokens depth suffix fits
  have tested : checkKind .identifier input (input.cursorAt tokens depth) =
      .found ((tokens.head?.getD input.last).kind = .identifier) (input.cursorAt tokens depth) :=
    bind_of_found (Input.peek_cursorAt suffix)
  have looked : peekAhead 1 input (input.cursorAt tokens depth) =
      .found _ (input.cursorAt tokens depth) := rfl
  by_cases isName : (tokens.head?.getD input.last).kind = .identifier
  · have behind := Follows.ends fun _ => callOrAssignment_follows place
    rcases behind input tokens depth suffix fits with ⟨outcome, after, settles, isLast⟩
    refine ⟨outcome, after, settles.imp fun fuel walked => ?_, isLast⟩
    rwa [bind_of_found tested, if_pos (decide_eq_true isName)] at walked
  · let failure : Failure := ⟨.expected (.identifier "at start of statement"), tokens⟩
    have refuses : identifier "at start of statement" input (input.cursorAt tokens depth) =
        input.outcome depth (.error failure) := by
      rw [identifier, tokenOf, bind_of_found tested, if_neg (by simpa using isName)]
      exact Input.refuse_cursorAt suffix _
    refine ⟨input.outcome depth (.error failure), _, .of_eq fun fuel => ?_, rfl⟩
    rw [callOrAssignment, bind_of_found looked, bind_apply, refuses]
    rfl

/-- Every form comes to an end before the first end mark. -/
theorem Form.ends {walk : Nat → Walk α} (form : Form walk) : Ends walk := by
  cases form with
  | chain level => exact Follows.ends fun budget => walkOf_follows budget (.level level)
  | operand level =>
      exact Follows.ends fun budget => Follows.of_succ (fun fuel => operand_succ fuel level)
        (walkOf_follows budget (.below level))
  | unary => exact Follows.ends fun budget => walkOf_follows budget .unary
  | primary => exact Follows.ends fun budget => walkOf_follows budget .primary
  | opening => exact Follows.ends fun budget => opening_follows fun _ _ => walkOf_follows _
  | named name => exact Follows.ends fun budget => named_follows (fun _ _ => walkOf_follows _) name
  | propertyOf owner => exact Follows.ends fun _ => propertyOf_follows owner
  | objectEntry => exact Follows.ends fun _ => objectEntry_follows expression_follows
  | elements => exact Follows.ends fun _ => .of_separatedUpTo expression_follows _
  | entries =>
      exact Follows.ends fun _ => .of_separatedUpTo (objectEntry_follows expression_follows) _
  | arguments => exact Follows.ends fun _ => arguments_follows
  | furtherArgument => exact Follows.ends fun _ => furtherArgument_follows
  | messageArguments word => exact Follows.ends fun _ => messageArguments_follows word
  | notification place => exact Follows.ends fun _ => notification_follows place
  | callOrAssignment place => exact callOrAssignment_ends place
  | conditional place => exact Follows.ends fun _ => conditional_follows place
  | loop place => exact Follows.ends fun _ => loop_follows place
  | statement => exact Follows.ends fun _ => statement_follows
  | blockStatements =>
      exact Follows.ends fun budget => .of_repeatedUpTo statement_follows
        (shorter_of_finds (statement_finds budget) fun _ forms rest => (forms.begins rest).1 _) _
  | block owner => exact Follows.ends fun _ => block_follows owner
  | propertyItem place => exact Follows.ends fun _ => propertyItem_follows place
  | setting => exact Follows.ends fun _ => setting_follows
  | settings => exact Follows.ends fun _ => .of_listedUpTo setting_follows _
  | device word place => exact Follows.ends fun _ => device_follows place word
  | actionReference place => exact Follows.ends fun _ => actionReference_follows place
  | transition place => exact Follows.ends fun _ => transition_follows place
  | stateClause => exact Follows.ends fun _ => stateClause_follows
  | stateClauses =>
      exact Follows.ends fun budget => .of_repeatedUpTo stateClause_follows
        (shorter_of_finds (stateClause_finds budget) fun _ => IsClause.opensBefore) _
  | stateItem place => exact Follows.ends fun _ => stateItem_follows place
  | twinItem => exact Follows.ends fun _ => twinItem_follows
  | twinItems =>
      exact Follows.ends fun budget => .of_repeatedUpTo twinItem_follows
        (shorter_of_finds (twinItem_finds budget) fun _ => IsTwinItem.opensBefore) _
  | identifierBehind word site => exact Follows.ends fun _ => identifierBehind_follows word site
  | twin place => exact Follows.ends fun _ => twin_follows place
  | instanceCount => exact Follows.ends fun _ => instanceCount_follows
  | bracketedCount => exact Follows.ends fun _ => bracketedCount_follows
  | twinReference place => exact Follows.ends fun _ => twinReference_follows place
  | ruleReference place => exact Follows.ends fun _ => ruleReference_follows place
  | swarmMember => exact Follows.ends fun _ => swarmMember_follows
  | swarmMembers =>
      exact Follows.ends fun budget => .of_repeatedUpTo swarmMember_follows
        (shorter_of_finds (swarmMember_finds budget) fun _ => IsMember.opensBefore) _
  | swarm place => exact Follows.ends fun _ => swarm_follows place
  | parameter => exact Follows.ends fun _ => parameter_follows
  | parameterList => exact Follows.ends fun _ => .of_separatedUpTo parameter_follows _
  | parameters owner => exact Follows.ends fun _ => parameters_follows owner
  | event place => exact Follows.ends fun _ => event_follows place
  | action place => exact Follows.ends fun _ => action_follows place
  | rule place => exact Follows.ends fun _ => rule_follows place
  | imported place => exact Follows.ends fun _ => imported_follows place
  | declaration => exact Follows.ends declaration_follows

/-- So does the rest of a chain, although it may leave any counter. -/
theorem chainFrom_ends (level : Precedence) (left : Expression) :
    Ends fun fuel => chainFrom fuel level left :=
  Strays.ends fun _ => chainFrom_strays (fun _ _ => walkOf_follows _) level left

/-- What comes to an end before the first end mark does so before any. -/
theorem Ends.returns {walk : Nat → Walk α} (ends : Ends walk)
    (blind : ∀ fuel, LooksAhead (walk fuel)) {input : Input} {cursor : Cursor}
    (fits : cursor.depth ≤ input.limit) (behind : input.EndsBehind cursor.position) :
    Returns walk input cursor := by
  rcases behind.exists_cursorAt cursor.depth with ⟨tokens, suffix, isHere⟩
  rcases ends behind.cleared tokens cursor.depth suffix fits with
    ⟨outcome, after, ⟨enough, walked⟩, isLast⟩
  rw [isHere] at walked
  refine ⟨outcome, after, ⟨enough, fun fuel le => ?_⟩, isLast⟩
  exact (blind fuel behind.sameFrom_cleared cursor (Nat.le_refl _)).1.trans (walked fuel le)

end TwinSwarm.Walk
