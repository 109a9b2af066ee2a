import TwinSwarm.Proofs.Grammar.Declaration

/-!
# What the grammar makes of single tokens

The grammar is built from recognisers of single tokens by a few ways to combine recognisers.
A relation that holds of the former and is kept by the latter relates two readings of each
form of the grammar.  The two readings may have different budgets, so that a relation can
compare what is read under two limits.  Where the budgets are equal and the readings the same,
it is a property of the grammar.
-/

namespace TwinSwarm.Grammar

open Recogniser

variable {α β : Type}

/-- The recognisers of single tokens are related to themselves, and the ways to combine
recognisers keep the relation.  Where a unit of the budget is spent, the budgets that are left
are related. -/
structure Recogniser.Congruence (budgets : Nat → Nat → Prop)
    (related : {α : Type} → Recogniser α → Recogniser α → Prop) : Prop where
  of_pure {α : Type} (value : α) : related (pure value) (pure value)
  of_fail {α : Type} (complaint : Complaint) :
    related (fail complaint : Recogniser α) (fail complaint)
  of_here : related here here
  of_peek : related peek peek
  of_advance : related advance advance
  of_isNext (kind : Token.Kind) (text : String) : related (isNext kind text) (isNext kind text)
  of_accept (kind : Token.Kind) (text : String) : related (accept kind text) (accept kind text)
  of_acceptOperator {α : Type} (operator? : Token → Option α) :
    related (acceptOperator operator?) (acceptOperator operator?)
  of_demand (kind : Token.Kind) (text : String) (wanted : Expectation) :
    related (demand kind text wanted) (demand kind text wanted)
  of_tokenOf (kind : Token.Kind) (wanted : Expectation) :
    related (tokenOf kind wanted) (tokenOf kind wanted)
  of_instanceCount : related instanceCount instanceCount
  of_bind {α β : Type} {left right : Recogniser α} {leftNext rightNext : α → Recogniser β} :
    related left right → (∀ value, related (leftNext value) (rightNext value)) →
    related (left >>= leftNext) (right >>= rightNext)
  of_spending {α : Type} {small large : Nat} {left right : Nat → Recogniser α} :
    budgets small large →
    (∀ smaller larger, small = smaller + 1 → budgets smaller larger →
      related (left smaller) (right larger)) →
    related (spending small left) (spending large right)
  of_separated {α : Type} {left right : Recogniser α} :
    related left right → related (separated left) (separated right)
  of_listedUpTo {α : Type} {left right : Recogniser α} (close : String) :
    related left right → related (listedUpTo close left) (listedUpTo close right)
  of_repeatedUpTo {α : Type} {left right : Recogniser α} (close : String) :
    related left right → related (repeatedUpTo close left) (repeatedUpTo close right)

/-! ## Forms of the grammar as combinations -/

theorem primary_eq (budget : Nat) :
    primary budget = (do
      match ← peek with
      | none => fail .unexpectedInExpression
      | some token =>
          match literal? token with
          | some (.ok value) =>
              advance
              return .literal value
          | some (.error complaint) => fail complaint
          | none =>
              if token.kind = .identifier then
                advance
                named budget token.text
              else if token.is .punctuation "(" then
                advance
                bracketed budget ")" "after expression" (chain · .disjunction) .grouping
              else if token.is .punctuation "[" then
                advance
                bracketed budget "]" "after array elements"
                  (fun deeper => separatedUpTo "]" (chain deeper .disjunction)) .array
              else if token.is .punctuation "\x7b" then
                advance
                bracketed budget "\x7d" "after object entries"
                  (fun deeper => separatedUpTo "\x7d" (objectEntry (chain deeper .disjunction)))
                  .object
              else fail .unexpectedInExpression) := by
  rw [primary.eq_def]
  cases budget <;> rfl

theorem unary_eq (budget : Nat) :
    unary budget = (do
      match ← acceptOperator unaryOperator? with
      | none => primary budget
      | some operator =>
          spending budget fun deeper => do return .unary operator (← unary deeper)) := by
  rw [unary.eq_def]
  cases budget <;> rfl

theorem chainFrom_eq (budget : Nat) (level : Precedence) (left : Expression) :
    chainFrom budget level left = (do
      match ← acceptOperator (binaryOperator? level) with
      | none => return left
      | some operator =>
          spending budget fun deeper => do
            let right ← operand deeper level
            chainFrom deeper level (.binary operator left right)) := by
  rw [chainFrom.eq_def]
  cases budget <;> rfl

namespace Recogniser.Congruence

variable {budgets : Nat → Nat → Prop}
  {related : {α : Type} → Recogniser α → Recogniser α → Prop}
  (congruence : Congruence budgets @related)

include congruence

/-! ## Combinations -/

theorem of_mark (text place : String) : related (mark text place) (mark text place) :=
  congruence.of_demand _ _ _

theorem of_semicolon (place : String) : related (semicolon place) (semicolon place) :=
  congruence.of_mark _ _

theorem of_keyword (word place : String) : related (keyword word place) (keyword word place) :=
  congruence.of_demand _ _ _

theorem of_identifier (place : String) : related (identifier place) (identifier place) :=
  congruence.of_tokenOf _ _

theorem of_string (place : String) : related (string place) (string place) :=
  congruence.of_bind (congruence.of_tokenOf _ _) fun _ => congruence.of_pure _

omit congruence in
theorem of_ite {condition : Prop} [Decidable condition] {yes yes' no no' : Recogniser α}
    (first : related yes yes') (second : related no no') :
    related (if condition then yes else no) (if condition then yes' else no') := by
  split
  · exact first
  · exact second

/-- A choice by the next token. -/
theorem of_choice {kind : Token.Kind} {text : String} {yes yes' no no' : Recogniser α}
    (first : related yes yes') (second : related no no') :
    related (accept kind text >>= fun taken => if taken = true then yes else no)
      (accept kind text >>= fun taken => if taken = true then yes' else no') :=
  congruence.of_bind (congruence.of_accept kind text) fun _ => of_ite first second

/-- A recogniser of which the tree is used. -/
theorem of_made {left right : Recogniser α} (first : related left right) (make : α → β) :
    related (left >>= fun value => pure (make value)) (right >>= fun value => pure (make value)) :=
  congruence.of_bind first fun _ => congruence.of_pure _

theorem of_optionally {kind : Token.Kind} {text : String} {left right : Recogniser α}
    (first : related left right) :
    related (optionally kind text left) (optionally kind text right) :=
  congruence.of_choice (congruence.of_made first some) (congruence.of_pure _)

theorem of_bracketed {small large : Nat} {close place : String}
    {left right : Nat → Recogniser α} {make : α → β} (paired : budgets small large)
    (deeper : ∀ smaller larger, small = smaller + 1 → budgets smaller larger →
      related (left smaller) (right larger)) :
    related (bracketed small close place left make) (bracketed large close place right make) := by
  apply congruence.of_spending paired
  intro smaller larger isSucc paired'
  exact congruence.of_bind (deeper smaller larger isSucc paired') fun _ =>
    congruence.of_bind (congruence.of_mark _ _) fun _ => congruence.of_pure _

theorem of_separatedUpTo {left right : Recogniser α} (close : String)
    (first : related left right) :
    related (separatedUpTo close left) (separatedUpTo close right) :=
  congruence.of_bind (congruence.of_isNext _ _) fun _ =>
    of_ite (congruence.of_pure _) (congruence.of_separated first)

/-! ## Expressions -/

theorem propertyOf (owner : String) : related (propertyOf owner) (propertyOf owner) :=
  congruence.of_bind (congruence.of_identifier _) fun _ =>
    congruence.of_bind (congruence.of_isNext _ _) fun _ =>
    of_ite (congruence.of_bind (congruence.of_fail _) fun _ => congruence.of_pure _)
      (congruence.of_pure _)

theorem objectEntry {left right : Recogniser Expression} (values : related left right) :
    related (objectEntry left) (objectEntry right) :=
  congruence.of_bind (congruence.of_string _) fun _ =>
    congruence.of_bind (congruence.of_mark _ _) fun _ => congruence.of_made values _

/-- The recognisers of expressions with a smaller budget are related. -/
def Below (_ : Congruence budgets @related) (small : Nat) : Prop :=
  ∀ smaller larger, smaller < small → budgets smaller larger →
    ∀ stratum, related (recogniserOf smaller stratum) (recogniserOf larger stratum)

variable {small large : Nat} (paired : budgets small large) (below : congruence.Below small)

include paired below

theorem named (name : String) : related (named small name) (named large name) := by
  rw [named_eq, named_eq]
  apply congruence.of_choice
  · apply congruence.of_bracketed paired
    intro smaller larger isSucc paired'
    exact congruence.of_separatedUpTo _ (below smaller larger (by omega) paired' .whole)
  · exact congruence.of_choice (congruence.propertyOf name) (congruence.of_pure _)

theorem primary : related (primary small) (primary large) := by
  have chains : ∀ smaller larger, small = smaller + 1 → budgets smaller larger →
      related (chain smaller .disjunction) (chain larger .disjunction) :=
    fun smaller larger isSucc paired' => below smaller larger (by omega) paired' .whole
  rw [primary_eq, primary_eq]
  apply congruence.of_bind congruence.of_peek
  intro token?
  cases token? with
  | none => exact congruence.of_fail _
  | some token =>
      simp only
      cases literal? token with
      | some result =>
          cases result with
          | ok value =>
              exact congruence.of_bind congruence.of_advance fun _ => congruence.of_pure _
          | error complaint => exact congruence.of_fail _
      | none =>
          apply of_ite
          · exact congruence.of_bind congruence.of_advance fun _ =>
              congruence.named paired below _
          apply of_ite
          · exact congruence.of_bind congruence.of_advance fun _ =>
              congruence.of_bracketed paired chains
          apply of_ite
          · exact congruence.of_bind congruence.of_advance fun _ =>
              congruence.of_bracketed paired fun smaller larger isSucc paired' =>
                congruence.of_separatedUpTo _ (chains smaller larger isSucc paired')
          apply of_ite
          · exact congruence.of_bind congruence.of_advance fun _ =>
              congruence.of_bracketed paired fun smaller larger isSucc paired' =>
                congruence.of_separatedUpTo _
                  (congruence.objectEntry (chains smaller larger isSucc paired'))
          · exact congruence.of_fail _

theorem unary : related (unary small) (unary large) := by
  rw [unary_eq, unary_eq]
  apply congruence.of_bind (congruence.of_acceptOperator _)
  intro operator?
  cases operator? with
  | none => exact congruence.primary paired below
  | some operator =>
      apply congruence.of_spending paired
      intro smaller larger isSucc paired'
      exact congruence.of_made (below smaller larger (by omega) paired' .unary) _

theorem chainFrom (level : Precedence) (left : Expression) :
    related (chainFrom small level left) (chainFrom large level left) := by
  induction small using Nat.strongRecOn generalizing large left with
  | ind small ih =>
      rw [chainFrom_eq, chainFrom_eq]
      apply congruence.of_bind (congruence.of_acceptOperator _)
      intro operator?
      cases operator? with
      | none => exact congruence.of_pure _
      | some operator =>
          apply congruence.of_spending paired
          intro smaller larger isSucc paired'
          rw [operand_eq, operand_eq]
          apply congruence.of_bind (below smaller larger (by omega) paired' _)
          intro right
          exact ih smaller (by omega) paired'
            (fun less more isLess paired'' => below less more (by omega) paired'') _

theorem chain_of_operands (level : Precedence)
    (operands : related (recogniserOf small (.below level)) (recogniserOf large (.below level))) :
    related (chain small level) (chain large level) := by
  rw [chain.eq_def, chain.eq_def, operand_eq, operand_eq]
  exact congruence.of_bind operands fun first => congruence.chainFrom paired below level first

theorem recogniserOf_of_below (stratum : Stratum) :
    related (recogniserOf small stratum) (recogniserOf large stratum) := by
  induction stratum using Stratum.outwards with
  | primary => exact congruence.primary paired below
  | unary => exact congruence.unary paired below
  | level level operands => exact congruence.chain_of_operands paired below level operands

omit paired below

/-- The recognisers of expressions are related. -/
theorem recogniserOf (paired : budgets small large) (stratum : Stratum) :
    related (recogniserOf small stratum) (recogniserOf large stratum) := by
  induction small using Nat.strongRecOn generalizing large stratum with
  | ind small ih =>
      apply congruence.recogniserOf_of_below paired
      intro smaller larger less paired' stratum
      exact ih smaller less paired' stratum

theorem expression (paired : budgets small large) :
    related (expression small) (expression large) :=
  congruence.recogniserOf paired .whole

/-! ## Statements -/

section Statements

variable (paired : budgets small large)

include paired

theorem furtherArgument : related (furtherArgument small) (furtherArgument large) :=
  congruence.of_optionally (congruence.expression paired)

theorem messageArguments (word : String) :
    related (messageArguments small word) (messageArguments large word) :=
  congruence.of_bind (congruence.of_mark _ _) fun _ =>
    congruence.of_bind (congruence.expression paired) fun _ =>
    congruence.of_bind (congruence.furtherArgument paired) fun _ =>
    congruence.of_bind (congruence.of_mark _ _) fun _ =>
    congruence.of_made (congruence.of_semicolon _) _

theorem notification (place : Location) :
    related (notification small place) (notification large place) :=
  congruence.of_bind (congruence.of_mark _ _) fun _ =>
    congruence.of_bind (congruence.expression paired) fun _ =>
    congruence.of_bind (congruence.of_mark _ _) fun _ =>
    congruence.of_bind (congruence.expression paired) fun _ =>
    congruence.of_bind (congruence.furtherArgument paired) fun _ =>
    congruence.of_bind (congruence.of_mark _ _) fun _ =>
    congruence.of_made (congruence.of_semicolon _) _

theorem arguments : related (arguments small) (arguments large) :=
  congruence.of_separatedUpTo _ (congruence.expression paired)

theorem callOrAssignment (name : String) (place : Location) :
    related (callOrAssignment small name place) (callOrAssignment large name place) :=
  congruence.of_choice
    (congruence.of_bind (congruence.arguments paired) fun _ =>
      congruence.of_bind (congruence.of_mark _ _) fun _ =>
      congruence.of_made (congruence.of_semicolon _) _)
    (congruence.of_bind (congruence.of_demand _ _ _) fun _ =>
      congruence.of_bind (congruence.expression paired) fun _ =>
      congruence.of_made (congruence.of_semicolon _) _)

theorem block_of_deeper (owner : String)
    (deeper : ∀ smaller larger, small = smaller + 1 → budgets smaller larger →
      related (statement smaller) (statement larger)) :
    related (block small owner) (block large owner) := by
  rw [block_eq, block_eq]
  exact congruence.of_bind (congruence.of_mark _ _) fun _ =>
    congruence.of_bracketed paired fun smaller larger isSucc paired' =>
      congruence.of_repeatedUpTo _ (deeper smaller larger isSucc paired')

section Blocks

variable (blocks : ∀ owner, related (block small owner) (block large owner))

include blocks

theorem conditional_of_deeper (place : Location)
    (deeper : ∀ smaller larger, small = smaller + 1 → budgets smaller larger →
      ∀ place, related (conditional smaller place) (conditional larger place)) :
    related (conditional small place) (conditional large place) := by
  have branches (condition : Expression) (thenBranch : List Statement) :
      related (furtherBranch small place condition thenBranch)
        (furtherBranch large place condition thenBranch) := by
    refine congruence.of_choice (congruence.of_bind congruence.of_here fun elsePlace => ?_)
      (congruence.of_pure _)
    refine congruence.of_choice (congruence.of_spending paired ?_) (congruence.of_made (blocks _) _)
    intro smaller larger isSucc paired'
    exact congruence.of_made (deeper smaller larger isSucc paired' elsePlace) _
  rw [conditional_eq, conditional_eq]
  exact congruence.of_bind (congruence.of_mark _ _) fun _ =>
    congruence.of_bind (congruence.expression paired) fun _ =>
    congruence.of_bind (congruence.of_mark _ _) fun _ =>
    congruence.of_bind (blocks _) fun _ => branches _ _

theorem loop_of_blocks (place : Location) : related (loop small place) (loop large place) := by
  rw [loop, loop]
  exact congruence.of_bind (congruence.of_mark _ _) fun _ =>
    congruence.of_bind (congruence.of_identifier _) fun _ =>
    congruence.of_bind (congruence.of_keyword _ _) fun _ =>
    congruence.of_bind (congruence.expression paired) fun _ =>
    congruence.of_bind (congruence.of_mark _ _) fun _ => congruence.of_made (blocks _) _

theorem statement_of_parts
    (conditionals : ∀ place, related (conditional small place) (conditional large place)) :
    related (statement small) (statement large) := by
  rw [statement, statement]
  apply congruence.of_bind congruence.of_here
  intro place
  apply congruence.of_choice (conditionals place)
  apply congruence.of_choice (congruence.loop_of_blocks paired blocks place)
  apply congruence.of_choice (congruence.of_made (congruence.messageArguments paired _) _)
  apply congruence.of_choice (congruence.of_made (congruence.messageArguments paired _) _)
  apply congruence.of_choice (congruence.notification paired place)
  exact congruence.of_bind (congruence.of_tokenOf _ _) fun _ =>
    congruence.callOrAssignment paired _ place

end Blocks

end Statements

/-- The recognisers of statements are related, and so are those of conditionals. -/
theorem statement_and_conditional (paired : budgets small large) :
    related (statement small) (statement large) ∧
      ∀ place, related (conditional small place) (conditional large place) := by
  induction small using Nat.strongRecOn generalizing large with
  | ind small ih =>
      have blocks (owner : String) : related (block small owner) (block large owner) :=
        congruence.block_of_deeper paired owner fun smaller larger isSucc paired' =>
          (ih smaller (by omega) paired').1
      have conditionals (place : Location) :
          related (conditional small place) (conditional large place) :=
        congruence.conditional_of_deeper paired blocks place fun smaller larger isSucc paired' =>
          (ih smaller (by omega) paired').2
      exact ⟨congruence.statement_of_parts paired blocks conditionals, conditionals⟩

theorem block (paired : budgets small large) (owner : String) :
    related (block small owner) (block large owner) :=
  congruence.block_of_deeper paired owner fun _ _ _ paired' =>
    (congruence.statement_and_conditional paired').1

/-! ## Declarations -/

section Declarations

variable (paired : budgets small large) (place : Location)

theorem identifierBehind (word site : String) :
    related (identifierBehind word site) (identifierBehind word site) :=
  congruence.of_optionally (congruence.of_identifier _)

include paired

theorem propertyItem : related (propertyItem small place) (propertyItem large place) := by
  rw [propertyItem_eq, propertyItem_eq]
  exact congruence.of_bind (congruence.of_identifier _) fun _ =>
    congruence.of_bind (congruence.of_mark _ _) fun _ =>
    congruence.of_bind (congruence.of_identifier _) fun _ =>
    congruence.of_bind (congruence.of_optionally (congruence.expression paired)) fun _ =>
    congruence.of_made (congruence.of_semicolon _) _

theorem setting : related (setting small) (setting large) :=
  congruence.of_bind (congruence.of_identifier _) fun _ =>
    congruence.of_bind (congruence.of_mark _ _) fun _ =>
    congruence.of_made (congruence.expression paired) _

theorem device (word : String) : related (device small word place) (device large word place) := by
  have configurations (name type : String) :
      related (configuration small word name type place)
        (configuration large word name type place) :=
    congruence.of_choice
      (congruence.of_bind (congruence.of_listedUpTo _ (congruence.setting paired)) fun _ =>
        congruence.of_made (congruence.of_mark _ _) _)
      (congruence.of_made (congruence.of_demand _ _ _) _)
  rw [device_eq, device_eq]
  exact congruence.of_bind (congruence.of_identifier _) fun _ =>
    congruence.of_bind (congruence.of_mark _ _) fun _ =>
    congruence.of_bind (congruence.of_identifier _) fun _ => configurations _ _

theorem actionReference : related (actionReference small place) (actionReference large place) :=
  congruence.of_bind (congruence.of_identifier _) fun _ =>
    congruence.of_choice
      (congruence.of_bind (congruence.arguments paired) fun _ =>
        congruence.of_made (congruence.of_mark _ _) _)
      (congruence.of_pure _)

theorem transition : related (transition small place) (transition large place) := by
  rw [transition_eq, transition_eq]
  exact congruence.of_bind (congruence.of_identifier _) fun _ =>
    congruence.of_bind (congruence.of_optionally (congruence.expression paired)) fun _ =>
    congruence.of_made (congruence.of_semicolon _) _

theorem stateClause : related (stateClause small) (stateClause large) := by
  have references (make : ActionReference → StateClause) (site : String) (place : Location) :
      related
        (Grammar.actionReference small place >>= fun reference =>
          semicolon site >>= fun _ => pure (make reference))
        (Grammar.actionReference large place >>= fun reference =>
          semicolon site >>= fun _ => pure (make reference)) :=
    congruence.of_bind (congruence.actionReference paired place) fun _ =>
      congruence.of_made (congruence.of_semicolon _) _
  apply congruence.of_bind congruence.of_here
  intro place
  apply congruence.of_choice (references .entry _ place)
  apply congruence.of_choice (references .exit _ place)
  exact congruence.of_choice (congruence.of_made (congruence.transition paired place) _)
    (congruence.of_fail _)

theorem stateItem : related (stateItem small place) (stateItem large place) :=
  congruence.of_bind (congruence.of_identifier _) fun _ =>
    congruence.of_bind (congruence.of_mark _ _) fun _ =>
    congruence.of_bind (congruence.of_repeatedUpTo _ (congruence.stateClause paired)) fun _ =>
    congruence.of_made (congruence.of_mark _ _) _

theorem twinItem : related (twinItem small) (twinItem large) := by
  apply congruence.of_bind congruence.of_here
  intro place
  apply congruence.of_choice (congruence.of_made (congruence.propertyItem paired place) _)
  apply congruence.of_choice (congruence.of_made (congruence.device paired place _) _)
  apply congruence.of_choice (congruence.of_made (congruence.device paired place _) _)
  exact congruence.of_choice (congruence.of_made (congruence.stateItem paired place) _)
    (congruence.of_fail _)

theorem twin : related (twin small place) (twin large place) :=
  congruence.of_bind (congruence.of_identifier _) fun _ =>
    congruence.of_bind (congruence.identifierBehind _ _) fun _ =>
    congruence.of_bind (congruence.of_mark _ _) fun _ =>
    congruence.of_bind (congruence.of_repeatedUpTo _ (congruence.twinItem paired)) fun _ =>
    congruence.of_made (congruence.of_mark _ _) _

omit paired

theorem twinReference : related (twinReference place) (twinReference place) := by
  have counts : related bracketedCount bracketedCount :=
    congruence.of_choice
      (congruence.of_bind congruence.of_instanceCount fun _ =>
        congruence.of_made (congruence.of_mark _ _) _)
      (congruence.of_pure _)
  exact congruence.of_bind (congruence.of_identifier _) fun _ =>
    congruence.of_bind (congruence.identifierBehind _ _) fun _ =>
    congruence.of_bind counts fun _ => congruence.of_made (congruence.of_semicolon _) _

theorem ruleReference : related (ruleReference place) (ruleReference place) :=
  congruence.of_bind (congruence.of_identifier _) fun _ =>
    congruence.of_made (congruence.of_semicolon _) _

theorem swarmMember : related swarmMember swarmMember := by
  apply congruence.of_bind congruence.of_here
  intro place
  apply congruence.of_choice (congruence.of_made (congruence.twinReference place) _)
  exact congruence.of_choice (congruence.of_made (congruence.ruleReference place) _)
    (congruence.of_fail _)

theorem swarm : related (swarm place) (swarm place) :=
  congruence.of_bind (congruence.of_identifier _) fun _ =>
    congruence.of_bind (congruence.of_mark _ _) fun _ =>
    congruence.of_bind (congruence.of_repeatedUpTo _ congruence.swarmMember) fun _ =>
    congruence.of_made (congruence.of_mark _ _) _

theorem parameter : related parameter parameter :=
  congruence.of_bind congruence.of_here fun _ =>
    congruence.of_bind (congruence.of_identifier _) fun _ =>
    congruence.of_bind (congruence.of_mark _ _) fun _ =>
    congruence.of_made (congruence.of_identifier _) _

theorem parameters (owner : String) : related (parameters owner) (parameters owner) :=
  congruence.of_choice
    (congruence.of_bind (congruence.of_separatedUpTo _ congruence.parameter) fun _ =>
      congruence.of_made (congruence.of_mark _ _) _)
    (congruence.of_pure _)

theorem event : related (event place) (event place) :=
  congruence.of_bind (congruence.of_identifier _) fun _ =>
    congruence.of_bind (congruence.parameters _) fun _ =>
    congruence.of_made (congruence.of_semicolon _) _

theorem imported : related (imported place) (imported place) :=
  congruence.of_bind (congruence.of_identifier _) fun _ =>
    congruence.of_bind (congruence.of_optionally (congruence.of_string _)) fun _ =>
    congruence.of_made (congruence.of_semicolon _) _

include paired

theorem action : related (action small place) (action large place) :=
  congruence.of_bind (congruence.of_identifier _) fun _ =>
    congruence.of_bind (congruence.parameters _) fun _ =>
    congruence.of_made (congruence.block paired _) _

theorem rule : related (rule small place) (rule large place) :=
  congruence.of_bind (congruence.of_identifier _) fun _ =>
    congruence.of_bind (congruence.of_mark _ _) fun _ =>
    congruence.of_bind (congruence.of_keyword _ _) fun _ =>
    congruence.of_bind (congruence.expression paired) fun _ =>
    congruence.of_bind (congruence.of_semicolon _) fun _ =>
    congruence.of_bind (congruence.of_keyword _ _) fun _ =>
    congruence.of_bind (congruence.block paired _) fun _ =>
    congruence.of_made (congruence.of_mark _ _) _

/-- The recognisers of declarations are related. -/
theorem declaration : related (declaration small) (declaration large) := by
  apply congruence.of_bind congruence.of_here
  intro place
  apply congruence.of_choice (congruence.of_made (congruence.twin paired place) _)
  apply congruence.of_choice (congruence.of_made (congruence.swarm place) _)
  apply congruence.of_choice (congruence.of_made (congruence.event place) _)
  apply congruence.of_choice (congruence.of_made (congruence.action paired place) _)
  apply congruence.of_choice (congruence.of_made (congruence.rule paired place) _)
  exact congruence.of_choice (congruence.of_made (congruence.imported place) _)
    (congruence.of_fail _)

end Declarations

end Recogniser.Congruence

end TwinSwarm.Grammar
