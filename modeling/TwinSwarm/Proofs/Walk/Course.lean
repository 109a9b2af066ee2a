import TwinSwarm.Proofs.Grammar.Congruence
import TwinSwarm.Proofs.Walk.Follows
import TwinSwarm.Proofs.Walk.Grammar

/-!
# The grammar on a cursor follows the grammar

Every form of the grammar on a cursor follows the recogniser of the form.  So it leaves the
counter of levels as it was, whether it finds something or is refused.  The one walk that does
not is the rest of a chain, and the chain around it sets the counter back.
-/

namespace TwinSwarm.Walk

open Grammar Follows

variable {budget : Nat}

/-! ## Operators -/

theorem acceptAny_nil {operator : Type} (symbol : operator → String) (operators : List operator)
    {input : Input} {depth : Nat} :
    acceptAny symbol operators input (input.cursorAt [] depth) =
      .found none (input.cursorAt [] depth) := by
  induction operators with
  | nil => rfl
  | cons first others ih =>
      rw [acceptAny, bind_apply, Input.accept_cursorAt (List.nil_suffix ..) (by decide)]
      exact ih

theorem acceptAny_cons {operator : Type} (symbol : operator → String) (operators : List operator)
    {input : Input} {token : Token} {rest : List Token} {depth : Nat}
    (suffix : token :: rest <:+ input.inside) :
    acceptAny symbol operators input (input.cursorAt (token :: rest) depth) =
      match operators.find? fun operator => token.is .operator (symbol operator) with
      | some operator => .found (some operator) (input.cursorAt rest depth)
      | none => .found none (input.cursorAt (token :: rest) depth) := by
  induction operators with
  | nil => rfl
  | cons first others ih =>
      rw [acceptAny, bind_apply, Input.accept_cursorAt suffix (by decide), accept_cons,
        List.find?_cons]
      cases token.is .operator (symbol first) with
      | true => rfl
      | false => exact ih

/-- The operators are tried one after the other, and the first one that fits is taken. -/
theorem of_acceptAny {operator : Type} {symbol : operator → String} {operators : List operator}
    {operator? : Token → Option operator}
    (tries : ∀ token, operator? token =
      operators.find? fun operator => token.is .operator (symbol operator)) :
    Follows budget (fun _ => acceptAny symbol operators) (acceptOperator operator?) where
  moves := .of_acceptOperator operator?
  course {input tokens depth} suffix left := by
    refine .of_eq fun _ => ?_
    cases tokens with
    | nil => exact acceptAny_nil symbol operators
    | cons token rest =>
        rw [acceptAny_cons symbol operators suffix, acceptOperator, tries]
        cases operators.find? fun operator => token.is .operator (symbol operator) <;> rfl

theorem binaryOperator?_tries (level : Precedence) (token : Token) :
    binaryOperator? level token =
      (operatorsOf level).find? fun operator => token.is .operator operator.symbol := by
  simp [binaryOperator?, operatorsOf, List.find?_filter]

/-! ## Expressions -/

theorem spending_bind {α β : Type} (budget : Nat) (deeper : Nat → Recogniser α)
    (next : α → Recogniser β) :
    (spending budget fun smaller => deeper smaller >>= next) = spending budget deeper >>= next := by
  cases budget <;> rfl

/-- The walk in brackets takes a level and gives it back before the closing bracket. -/
theorem of_bracketed {α β : Type} {walk : Nat → Walk α} {inside : Nat → Recogniser α}
    {close place : String} {make : α → β}
    (below : ∀ smaller, budget = smaller + 1 → Follows smaller walk (inside smaller)) :
    Follows budget
      (fun fuel => nested (walk fuel) >>= fun inner => mark close place >>= fun _ =>
        pure (make inner))
      (bracketed budget close place inside make) := by
  rw [bracketed, spending_bind]
  exact of_bind (of_nested below) fun _ => of_bind (of_mark _ _) fun _ => of_pure _

theorem propertyOf_follows (owner : String) :
    Follows budget (fun _ => propertyOf owner) (Grammar.propertyOf owner) :=
  of_bind (of_identifier _) fun property => of_bind (of_check (by decide) _) fun _ =>
    of_ite (of_refuse (.chainedAccess owner property)) (of_pure _)

theorem objectEntry_follows {walk : Nat → Walk Expression} {value : Recogniser Expression}
    (follows : Follows budget walk value) :
    Follows budget (fun fuel => objectEntry (walk fuel)) (Grammar.objectEntry value) :=
  of_bind (of_string _) fun _ => of_bind (of_mark _ _) fun _ => of_made follows _

/-- The walk of a stratum. -/
def walkOf (fuel : Nat) : Stratum → Walk Expression
  | .level level => chain fuel level
  | .unary => unary fuel
  | .primary => primary fuel

theorem operand_succ (fuel : Nat) (level : Precedence) :
    operand (fuel + 1) level = walkOf fuel (.below level) := by
  cases level <;> rfl

/-- The walks of expressions with a smaller budget follow their recognisers. -/
def Below (budget : Nat) : Prop :=
  ∀ smaller < budget, ∀ stratum,
    Follows smaller (fun fuel => walkOf fuel stratum) (recogniserOf smaller stratum)

section Expressions

variable (below : Below budget)

include below

theorem chain_follows_below (smaller : Nat) (isSucc : budget = smaller + 1) :
    Follows smaller (fun fuel => chain fuel .disjunction) (Grammar.chain smaller .disjunction) :=
  below smaller (by omega) .whole

theorem named_follows (name : String) :
    Follows budget (fun fuel => named fuel name) (Grammar.named budget name) := by
  rw [named_eq]
  refine of_succ (fun fuel => named.eq_2 name fuel) ?_
  refine of_choice (by decide) ?_ (of_choice (by decide) (propertyOf_follows name) (of_pure _))
  exact of_bracketed fun smaller isSucc =>
    of_separatedUpTo (chain_follows_below below smaller isSucc) ")"

/-- Something in brackets. -/
def bracketing (budget : Nat) : Recogniser Expression := do
  if ← Grammar.accept .punctuation "(" then
    bracketed budget ")" "after expression" (Grammar.chain · .disjunction) .grouping
  else if ← Grammar.accept .punctuation "[" then
    bracketed budget "]" "after array elements"
      (fun deeper => Grammar.separatedUpTo "]" (Grammar.chain deeper .disjunction)) .array
  else if ← Grammar.accept .punctuation "\x7b" then
    bracketed budget "\x7d" "after object entries"
      (fun deeper => Grammar.separatedUpTo "\x7d"
        (Grammar.objectEntry (Grammar.chain deeper .disjunction))) .object
  else fail .unexpectedInExpression

omit below in
theorem choice_cons {kind : Token.Kind} {text : String} {yes no : Recogniser Expression}
    (token : Token) (rest : List Token) :
    (Grammar.accept kind text >>= fun taken => if taken = true then yes else no) (token :: rest) =
      if token.is kind text then yes rest else no (token :: rest) := by
  rw [Recogniser.bind_apply, accept_cons]
  cases token.is kind text <;> rfl

omit below in
theorem primary_nil (budget : Nat) : Grammar.primary budget [] = bracketing budget [] := by
  rw [primary_eq]
  rfl

omit below in
theorem primary_of_other (budget : Nat) {token : Token} (rest : List Token)
    (noLiteral : literal? token = none) (noName : token.kind ≠ .identifier) :
    Grammar.primary budget (token :: rest) = bracketing budget (token :: rest) := by
  simp only [primary_cons, noLiteral, noName, if_false, bracketing, choice_cons, fail]

theorem opening_follows : Follows budget (fun fuel => opening fuel) (bracketing budget) := by
  have chains := chain_follows_below below
  refine of_succ opening.eq_2 ?_
  refine of_choice (by decide) (of_bracketed chains) ?_
  refine of_choice (by decide) (of_bracketed fun smaller isSucc => ?_) ?_
  · exact of_separatedUpTo (chains smaller isSucc) _
  refine of_choice (by decide) (of_bracketed fun smaller isSucc => ?_) (of_refuse _)
  exact of_separatedUpTo (objectEntry_follows (chains smaller isSucc)) _

theorem primary_follows :
    Follows budget (fun fuel => primary fuel) (Grammar.primary budget) where
  moves := (Recogniser.MovesForward.congruence.recogniserOf rfl .primary).2
  course {input tokens depth} suffix left := by
    have opens := (opening_follows below).course suffix left
    refine Settles.of_succ (Settles.bind_found (.of_eq fun _ => Input.peek_cursorAt suffix) ?_)
    cases tokens with
    | nil =>
        have noLiteral : literal? input.last = none := by rw [literal?, input.last_kind]
        have noName : input.last.kind ≠ .identifier := by rw [input.last_kind]; decide
        simp only [List.head?_nil, Option.getD_none, noLiteral, noName, if_false, primary_nil]
        exact opens
    | cons token rest =>
        have passes := Input.advance_cons suffix depth
        simp only [List.head?_cons, Option.getD_some]
        cases isLiteral : literal? token with
        | some result =>
            rw [primary_cons, isLiteral]
            cases result with
            | ok value => exact .bind_found (.of_eq fun _ => passes) (.of_eq fun _ => rfl)
            | error complaint => exact .of_eq fun _ => Input.refuse_cursorAt suffix complaint
        | none =>
            by_cases isName : token.kind = .identifier
            · have behind := (List.suffix_cons token rest).trans suffix
              have names := (named_follows below token.text).course behind left
              simp only [primary_cons, isLiteral, isName, if_true]
              exact .bind_found (.of_eq fun _ => passes) names
            · simp only [primary_of_other budget rest isLiteral isName, isName, if_false]
              exact opens

theorem unary_follows : Follows budget (fun fuel => unary fuel) (Grammar.unary budget) := by
  rw [unary_eq]
  refine of_succ unary.eq_2 (of_bind (of_acceptAny fun _ => rfl) fun operator? => ?_)
  cases operator? with
  | none => exact primary_follows below
  | some operator =>
      dsimp only
      rw [spending_bind]
      exact of_made (of_nested fun smaller isSucc => below smaller (by omega) .unary) _

/-- The operators of a chain take levels that are still taken at its end. -/
theorem chainFrom_strays (level : Precedence) (left : Expression) :
    Strays budget (fun fuel => chainFrom fuel level left)
      (Grammar.chainFrom budget level left) := by
  induction budget using Nat.strongRecOn generalizing left with
  | ind budget ih =>
      rw [chainFrom_eq]
      refine Strays.of_succ (chainFrom.eq_2 level left) ?_
      refine Strays.of_bind (of_acceptAny (binaryOperator?_tries level)) fun operator? => ?_
      cases operator? with
      | none => exact (of_pure left).strays
      | some operator =>
          refine Strays.of_deepen fun smaller isSucc => ?_
          rw [operand_eq]
          have operands := below smaller (by omega) (.below level)
          refine Strays.of_bind (of_succ (fun fuel => operand_succ fuel level) operands) ?_
          intro right
          exact ih smaller (by omega) (fun less isLess => below less (by omega)) _

theorem chain_follows_of_operands (level : Precedence)
    (operands : Follows budget (fun fuel => walkOf fuel (.below level))
      (recogniserOf budget (.below level))) :
    Follows budget (fun fuel => chain fuel level) (Grammar.chain budget level) := by
  rw [Grammar.chain.eq_def, operand_eq]
  refine of_succ (chain.eq_2 level) (of_balanced ?_)
  exact Strays.of_bind (of_succ (fun fuel => operand_succ fuel level) operands)
    fun first => chainFrom_strays below level first

theorem walkOf_follows_of_below (stratum : Stratum) :
    Follows budget (fun fuel => walkOf fuel stratum) (recogniserOf budget stratum) := by
  induction stratum using Stratum.outwards with
  | primary => exact primary_follows below
  | unary => exact unary_follows below
  | level level operands => exact chain_follows_of_operands below level operands

end Expressions

/-- The walk of a stratum follows its recogniser. -/
theorem walkOf_follows (budget : Nat) (stratum : Stratum) :
    Follows budget (fun fuel => walkOf fuel stratum) (recogniserOf budget stratum) := by
  induction budget using Nat.strongRecOn generalizing stratum with
  | ind budget ih => exact walkOf_follows_of_below ih stratum

theorem expression_follows :
    Follows budget (fun fuel => expression fuel) (Grammar.expression budget) :=
  walkOf_follows budget .whole

/-! ## Statements -/

theorem furtherArgument_follows :
    Follows budget (fun fuel => furtherArgument fuel) (Grammar.furtherArgument budget) :=
  of_optionally (by decide) expression_follows

theorem messageArguments_follows (word : String) :
    Follows budget (fun fuel => messageArguments fuel word)
      (Grammar.messageArguments budget word) :=
  of_bind (of_mark _ _) fun _ => of_bind expression_follows fun _ =>
    of_bind furtherArgument_follows fun _ => of_bind (of_mark _ _) fun _ =>
    of_made (of_semicolon _) _

theorem notification_follows (place : Location) :
    Follows budget (fun fuel => notification fuel place) (Grammar.notification budget place) :=
  of_bind (of_mark _ _) fun _ => of_bind expression_follows fun _ =>
    of_bind (of_mark _ _) fun _ => of_bind expression_follows fun _ =>
    of_bind furtherArgument_follows fun _ => of_bind (of_mark _ _) fun _ =>
    of_made (of_semicolon _) _

theorem arguments_follows :
    Follows budget (fun fuel => arguments fuel) (Grammar.arguments budget) :=
  of_separatedUpTo expression_follows _

/-- The token behind a name is looked at before the name is taken, and it is there: if nothing
else, it is the end mark. -/
theorem peekAhead_cursorAt {input : Input} {token : Token} {rest : List Token}
    (suffix : token :: rest <:+ input.inside) (depth : Nat) :
    ∃ second, peekAhead 1 input (input.cursorAt (token :: rest) depth) =
        .found (some second) (input.cursorAt (token :: rest) depth) ∧
      second.is .punctuation "(" = startsWith .punctuation "(" rest := by
  have there := Input.getElem?_cursorAt suffix depth 1 (by simp)
  refine ⟨_, congrArg (Outcome.found · (input.cursorAt (token :: rest) depth)) there, ?_⟩
  cases rest with
  | nil => simp [Token.is, input.last_kind]
  | cons second others => rfl

/-- A statement that begins with a name.  The walk decides between a call and an assignment by
looking ahead, and the recogniser behind the name. -/
theorem callOrAssignment_follows (place : Location) :
    Follows budget
      (fun fuel => checkKind .identifier >>= fun isName =>
        if isName = true then callOrAssignment fuel place else refuse (.expected .statement))
      (Grammar.tokenOf .identifier .statement >>= fun name =>
        Grammar.callOrAssignment budget name place) where
  moves := .of_bind (.of_tokenOf _ _) fun name =>
    (Recogniser.MovesForward.congruence.callOrAssignment rfl name place).2
  course {input tokens depth} suffix left := by
    cases tokens with
    | nil =>
        refine Settles.bind_found (.of_eq fun _ => Input.checkKind_nil (by decide)) ?_
        exact .of_eq fun _ => Input.refuse_cursorAt suffix _
    | cons token rest =>
        refine Settles.bind_found (.of_eq fun _ => Input.checkKind_cons suffix _) ?_
        by_cases isName : token.kind = .identifier
        · have behind := (List.suffix_cons token rest).trans suffix
          rcases peekAhead_cursorAt suffix depth with ⟨second, looks, decides⟩
          have taken : identifier "at start of statement" input
              (input.cursorAt (token :: rest) depth) =
                .found token.text (input.cursorAt rest depth) := by
            rw [identifier, Input.tokenOf_cursorAt suffix (by decide), Grammar.tokenOf,
              if_pos isName]
            rfl
          simp only [Recogniser.bind_apply, Grammar.tokenOf, isName, decide_true, if_true]
          refine Settles.bind_found (.of_eq fun _ => looks)
            (Settles.bind_found (.of_eq fun _ => taken) ?_)
          rw [Option.any_some, decides, Grammar.callOrAssignment, Recogniser.bind_apply,
            Grammar.accept]
          -- The walk looks one token ahead where the recogniser takes the name first, and both
          -- decide by the same parenthesis.
          cases starts : startsWith .punctuation "(" rest with
          | true =>
              have opened : mark "(" "after function name" input (input.cursorAt rest depth) =
                  .found () (input.cursorAt rest.tail depth) := by
                rw [mark, Input.demand_cursorAt behind (by decide), Grammar.demand, if_pos starts]
                rfl
              have inner := (List.tail_suffix rest).trans behind
              simp only [if_true]
              refine Settles.bind_found (.of_eq fun _ => opened) (course ?_ inner left)
              exact of_bind arguments_follows fun _ => of_bind (of_mark _ _) fun _ =>
                of_made (of_semicolon _) _
          | false =>
              simp only [Bool.false_eq_true, if_false]
              refine course ?_ behind left
              exact of_bind (of_demand (by decide) _ _) fun _ => of_bind expression_follows fun _ =>
                of_made (of_semicolon _) _
        · simp only [Recogniser.bind_apply, Grammar.tokenOf, isName, decide_false, if_false]
          exact .of_eq fun _ => Input.refuse_cursorAt suffix _

/-- What is found as a phrase that does not begin with a closing mark takes some token. -/
theorem shorter_of_finds {α : Type} {recogniser : Recogniser α} {kind : Phrase α → Prop}
    (finds : recogniser.Finds (Within budget kind))
    (opens : ∀ phrase, kind phrase → OpensBefore "\x7d" phrase) {tokens rest : List Token}
    {value : α} (found : recogniser tokens = .ok (value, rest)) :
    rest.length < tokens.length := by
  rcases finds _ _ _ found with ⟨phrase, ⟨isKind, _⟩, _, rfl⟩
  have nonempty := List.length_pos_iff.mpr (opens phrase isKind).ne_nil
  rw [List.length_append]
  omega

theorem block_follows_of_below (owner : String)
    (below : ∀ smaller, budget = smaller + 1 →
      Follows smaller (fun fuel => statement fuel) (Grammar.statement smaller)) :
    Follows budget (fun fuel => block fuel owner) (Grammar.block budget owner) := by
  rw [block_eq]
  refine of_succ (block.eq_2 owner) (of_bind (of_mark _ _) fun _ => of_bracketed ?_)
  intro smaller isSucc
  refine of_repeatedUpTo (below smaller isSucc) ?_ _
  exact shorter_of_finds (statement_finds smaller) fun _ forms rest => (forms.begins rest).1 _

section Blocks

variable (blocks : ∀ owner, Follows budget (fun fuel => block fuel owner)
  (Grammar.block budget owner))

include blocks

theorem conditional_follows_of_below (place : Location)
    (below : ∀ smaller, budget = smaller + 1 → ∀ place,
      Follows smaller (fun fuel => conditional fuel place) (Grammar.conditional smaller place)) :
    Follows budget (fun fuel => conditional fuel place) (Grammar.conditional budget place) := by
  rw [conditional_eq]
  refine of_succ (conditional.eq_2 place) ?_
  refine of_bind (of_mark _ _) fun _ => of_bind expression_follows fun condition => ?_
  refine of_bind (of_mark _ _) fun _ => of_bind (blocks _) fun thenBranch => ?_
  refine of_choice (by decide) (of_here ?_ fun elsePlace => ?_) (of_pure _)
  · intro elsePlace
    rw [block_eq]
    rfl
  refine of_choice (by decide) ?_ (of_made (blocks _) _)
  rw [spending_bind]
  exact of_made (of_nested fun smaller isSucc => below smaller isSucc elsePlace) _

theorem loop_follows_of_blocks (place : Location) :
    Follows budget (fun fuel => loop fuel place) (Grammar.loop budget place) := by
  rw [Grammar.loop]
  refine of_succ (loop.eq_2 place) ?_
  exact of_bind (of_mark _ _) fun _ => of_bind (of_identifier _) fun _ =>
    of_bind (of_keyword _ _) fun _ => of_bind expression_follows fun _ =>
    of_bind (of_mark _ _) fun _ => of_made (blocks _) _

theorem statement_follows_of_parts
    (conditionals : ∀ place, Follows budget (fun fuel => conditional fuel place)
      (Grammar.conditional budget place)) :
    Follows budget (fun fuel => statement fuel) (Grammar.statement budget) := by
  rw [Grammar.statement]
  refine of_succ statement.eq_2 (of_here (fun _ => rfl) fun place => ?_)
  refine of_choice (by decide) (conditionals place) ?_
  refine of_choice (by decide) (loop_follows_of_blocks blocks place) ?_
  refine of_choice (by decide) (of_made (messageArguments_follows _) _) ?_
  refine of_choice (by decide) (of_made (messageArguments_follows _) _) ?_
  refine of_choice (by decide) (notification_follows place) ?_
  exact callOrAssignment_follows place

end Blocks

/-- The walks of statements and of conditionals follow their recognisers. -/
theorem statement_and_conditional_follow (budget : Nat) :
    Follows budget (fun fuel => statement fuel) (Grammar.statement budget) ∧
      ∀ place, Follows budget (fun fuel => conditional fuel place)
        (Grammar.conditional budget place) := by
  induction budget using Nat.strongRecOn with
  | ind budget ih =>
      have blocks (owner : String) :
          Follows budget (fun fuel => block fuel owner) (Grammar.block budget owner) :=
        block_follows_of_below owner fun smaller isSucc => (ih smaller (by omega)).1
      have conditionals (place : Location) :
          Follows budget (fun fuel => conditional fuel place)
            (Grammar.conditional budget place) :=
        conditional_follows_of_below blocks place fun smaller isSucc =>
          (ih smaller (by omega)).2
      exact ⟨statement_follows_of_parts blocks conditionals, conditionals⟩

theorem statement_follows :
    Follows budget (fun fuel => statement fuel) (Grammar.statement budget) :=
  (statement_and_conditional_follow budget).1

theorem conditional_follows (place : Location) :
    Follows budget (fun fuel => conditional fuel place) (Grammar.conditional budget place) :=
  (statement_and_conditional_follow budget).2 place

theorem block_follows (owner : String) :
    Follows budget (fun fuel => block fuel owner) (Grammar.block budget owner) :=
  block_follows_of_below owner fun _ _ => statement_follows

theorem loop_follows (place : Location) :
    Follows budget (fun fuel => loop fuel place) (Grammar.loop budget place) :=
  loop_follows_of_blocks block_follows place

/-! ## Declarations -/

section Declarations

variable (place : Location)

theorem propertyItem_follows :
    Follows budget (fun fuel => propertyItem fuel place) (Grammar.propertyItem budget place) := by
  rw [propertyItem_eq]
  exact of_bind (of_identifier _) fun _ => of_bind (of_mark _ _) fun _ =>
    of_bind (of_identifier _) fun _ =>
    of_bind (of_optionally (by decide) expression_follows) fun _ => of_made (of_semicolon _) _

theorem setting_follows : Follows budget (fun fuel => setting fuel) (Grammar.setting budget) :=
  of_bind (of_identifier _) fun _ => of_bind (of_mark _ _) fun _ => of_made expression_follows _

theorem device_follows (word : String) :
    Follows budget (fun fuel => device fuel word place) (Grammar.device budget word place) := by
  rw [device_eq]
  refine of_bind (of_identifier _) fun _ => of_bind (of_mark _ _) fun _ =>
    of_bind (of_identifier _) fun _ =>
      of_choice (by decide) ?_ (of_made (of_demand (by decide) _ _) _)
  exact of_bind (of_listedUpTo setting_follows _) fun _ => of_made (of_mark _ _) _

theorem actionReference_follows :
    Follows budget (fun fuel => actionReference fuel place)
      (Grammar.actionReference budget place) :=
  of_bind (of_identifier _) fun _ => of_choice (by decide)
    (of_bind arguments_follows fun _ => of_made (of_mark _ _) _) (of_pure _)

theorem transition_follows :
    Follows budget (fun fuel => transition fuel place) (Grammar.transition budget place) := by
  rw [transition_eq]
  exact of_bind (of_identifier _) fun _ =>
    of_bind (of_optionally (by decide) expression_follows) fun _ => of_made (of_semicolon _) _

theorem stateClause_follows :
    Follows budget (fun fuel => stateClause fuel) (Grammar.stateClause budget) := by
  have references (make : ActionReference → StateClause) (site : String) (place : Location) :
      Follows budget
        (fun fuel => actionReference fuel place >>= fun reference =>
          semicolon site >>= fun _ => pure (make reference))
        (Grammar.actionReference budget place >>= fun reference =>
          Grammar.semicolon site >>= fun _ => pure (make reference)) :=
    of_bind (actionReference_follows place) fun _ => of_made (of_semicolon _) _
  refine of_here (fun _ => rfl) fun place => ?_
  refine of_choice (by decide) (references .entry _ place) ?_
  refine of_choice (by decide) (references .exit _ place) ?_
  exact of_choice (by decide) (of_made (transition_follows place) _) (of_refuse _)

theorem stateItem_follows :
    Follows budget (fun fuel => stateItem fuel place) (Grammar.stateItem budget place) := by
  refine of_bind (of_identifier _) fun _ => of_bind (of_mark _ _) fun _ =>
    of_bind (of_repeatedUpTo stateClause_follows ?_ _) fun _ => of_made (of_mark _ _) _
  exact shorter_of_finds (stateClause_finds budget) fun _ => IsClause.opensBefore

theorem twinItem_follows :
    Follows budget (fun fuel => twinItem fuel) (Grammar.twinItem budget) := by
  refine of_here (fun _ => rfl) fun place => ?_
  refine of_choice (by decide) (of_made (propertyItem_follows place) _) ?_
  refine of_choice (by decide) (of_made (device_follows place _) _) ?_
  refine of_choice (by decide) (of_made (device_follows place _) _) ?_
  exact of_choice (by decide) (of_made (stateItem_follows place) _) (of_refuse _)

theorem identifierBehind_follows (word site : String) :
    Follows budget (fun _ => identifierBehind word site) (Grammar.identifierBehind word site) :=
  of_optionally (by decide) (of_identifier _)

theorem twin_follows :
    Follows budget (fun fuel => twin fuel place) (Grammar.twin budget place) := by
  refine of_bind (of_identifier _) fun _ => of_bind (identifierBehind_follows _ _) fun _ =>
    of_bind (of_mark _ _) fun _ => of_bind (of_repeatedUpTo twinItem_follows ?_ _) fun _ =>
    of_made (of_mark _ _) _
  exact shorter_of_finds (twinItem_finds budget) fun _ => IsTwinItem.opensBefore

theorem instanceCount_follows :
    Follows budget (fun _ => instanceCount) Grammar.instanceCount where
  moves := .of_instanceCount
  course {input tokens depth} suffix left := by
    have refuses (complaint : Complaint) : (refuse complaint : Walk Int64) input
        (input.cursorAt tokens depth) = input.outcome depth (.error ⟨complaint, tokens⟩) :=
      Input.refuse_cursorAt suffix complaint
    refine Settles.bind_found (.of_eq fun _ => Input.peek_cursorAt suffix) ?_
    cases tokens with
    | nil =>
        have noNumber : input.last.kind ≠ .number := by rw [input.last_kind]; decide
        simp only [List.head?_nil, Option.getD_none, noNumber, false_and, if_false]
        exact .of_eq fun _ => refuses _
    | cons token rest =>
        have passes := Input.advance_cons suffix depth
        simp only [List.head?_cons, Option.getD_some, Grammar.instanceCount]
        by_cases isWhole : token.kind = .number ∧ '.' ∉ token.text.toList
        · simp only [isWhole, not_false_eq_true, and_self, if_true]
          cases Numeral.integer? token.text.toList with
          | some count => exact .bind_found (.of_eq fun _ => passes) (.of_eq fun _ => rfl)
          | none => exact .of_eq fun _ => refuses _
        · simp only [isWhole, if_false]
          exact .of_eq fun _ => refuses _

theorem bracketedCount_follows :
    Follows budget (fun _ => bracketedCount) Grammar.bracketedCount :=
  of_choice (by decide) (of_bind instanceCount_follows fun _ => of_made (of_mark _ _) _) (of_pure _)

theorem twinReference_follows :
    Follows budget (fun _ => twinReference place) (Grammar.twinReference place) :=
  of_bind (of_identifier _) fun _ => of_bind (identifierBehind_follows _ _) fun _ =>
    of_bind bracketedCount_follows fun _ => of_made (of_semicolon _) _

theorem ruleReference_follows :
    Follows budget (fun _ => ruleReference place) (Grammar.ruleReference place) :=
  of_bind (of_identifier _) fun _ => of_made (of_semicolon _) _

theorem swarmMember_follows :
    Follows budget (fun _ => swarmMember) Grammar.swarmMember := by
  refine of_here (fun _ => rfl) fun place => ?_
  refine of_choice (by decide) (of_made (twinReference_follows place) _) ?_
  exact of_choice (by decide) (of_made (ruleReference_follows place) _) (of_refuse _)

theorem swarm_follows : Follows budget (fun fuel => swarm fuel place) (Grammar.swarm place) := by
  refine of_bind (of_identifier _) fun _ => of_bind (of_mark _ _) fun _ =>
    of_bind (of_repeatedUpTo swarmMember_follows ?_ _) fun _ => of_made (of_mark _ _) _
  exact shorter_of_finds (swarmMember_finds budget) fun _ => IsMember.opensBefore

theorem parameter_follows : Follows budget (fun _ => parameter) Grammar.parameter := by
  refine of_here (fun _ => rfl) fun place => ?_
  exact of_bind (of_identifier _) fun _ => of_bind (of_mark _ _) fun _ =>
    of_made (of_identifier _) _

theorem parameters_follows (owner : String) :
    Follows budget (fun fuel => parameters fuel owner) (Grammar.parameters owner) :=
  of_choice (by decide)
    (of_bind (of_separatedUpTo parameter_follows _) fun _ => of_made (of_mark _ _) _) (of_pure _)

theorem event_follows : Follows budget (fun fuel => event fuel place) (Grammar.event place) :=
  of_bind (of_identifier _) fun _ => of_bind (parameters_follows _) fun _ =>
    of_made (of_semicolon _) _

theorem action_follows :
    Follows budget (fun fuel => action fuel place) (Grammar.action budget place) :=
  of_bind (of_identifier _) fun _ => of_bind (parameters_follows _) fun _ =>
    of_made (block_follows _) _

theorem rule_follows : Follows budget (fun fuel => rule fuel place) (Grammar.rule budget place) :=
  of_bind (of_identifier _) fun _ => of_bind (of_mark _ _) fun _ =>
    of_bind (of_keyword _ _) fun _ => of_bind expression_follows fun _ =>
    of_bind (of_semicolon _) fun _ => of_bind (of_keyword _ _) fun _ =>
    of_bind (block_follows _) fun _ => of_made (of_mark _ _) _

theorem imported_follows :
    Follows budget (fun _ => imported place) (Grammar.imported place) :=
  of_bind (of_identifier _) fun _ => of_bind (of_optionally (by decide) (of_string _)) fun _ =>
    of_made (of_semicolon _) _

/-- The walk of declarations follows their recogniser. -/
theorem declaration_follows (budget : Nat) :
    Follows budget (fun fuel => declaration fuel) (Grammar.declaration budget) := by
  refine of_here (fun _ => rfl) fun place => ?_
  refine of_choice (by decide) (of_made (twin_follows place) _) ?_
  refine of_choice (by decide) (of_made (swarm_follows place) _) ?_
  refine of_choice (by decide) (of_made (event_follows place) _) ?_
  refine of_choice (by decide) (of_made (action_follows place) _) ?_
  refine of_choice (by decide) (of_made (rule_follows place) _) ?_
  exact of_choice (by decide) (of_made (imported_follows place) _) (of_refuse _)

end Declarations

end TwinSwarm.Walk
