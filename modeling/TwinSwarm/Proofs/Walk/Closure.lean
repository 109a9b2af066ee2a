import TwinSwarm.Proofs.Walk.Grammar

/-!
# What the forms of the grammar make of the cursor

Every form of the grammar on a cursor is built from a few walks by a few ways to combine walks.
A property that the former have and the latter keep holds of every form, with any fuel.  Chains
of operators need a second, weaker property, since the operators of a chain take levels that only
the end of the chain gives back.
-/

namespace TwinSwarm.Walk

open Grammar

variable {α β : Type}

/-- The smallest walks have a property, and the ways to combine walks keep it.  A walk that strays
has the weaker property only, until it is balanced.  Which token was passed over last is not to be
asked, except behind a test of its kind. -/
structure Closed (keeps strays : {α : Type} → Walk α → Prop) : Prop where
  of_pure {α : Type} (value : α) : keeps (pure value)
  of_unfinished {α : Type} : keeps (unfinished : Walk α)
  of_refuse {α : Type} (complaint : Complaint) : keeps (refuse complaint : Walk α)
  of_peek : keeps peek
  of_peekAhead (count : Nat) : keeps (peekAhead count)
  of_passing {α : Type} {walk : Walk α} : keeps walk → keeps (advance >>= fun _ => walk)
  of_tokenOf {kind : Token.Kind} (notEnd : kind ≠ .endOfFile) (wanted : Expectation) :
    keeps (tokenOf kind wanted)
  of_bind {α β : Type} {walk : Walk α} {next : α → Walk β} :
    keeps walk → (∀ value, keeps (next value)) → keeps (walk >>= next)
  of_nested {α : Type} {walk : Walk α} : keeps walk → keeps (nested walk)
  of_balanced {α : Type} {walk : Walk α} : strays walk → keeps (balanced walk)
  strays_of_keeps {α : Type} {walk : Walk α} : keeps walk → strays walk
  strays_of_bind {α β : Type} {walk : Walk α} {next : α → Walk β} :
    keeps walk → (∀ value, strays (next value)) → strays (walk >>= next)
  strays_of_deepen {α : Type} {walk : Walk α} : strays walk → strays (deepen >>= fun _ => walk)

namespace Closed

variable {keeps strays : {α : Type} → Walk α → Prop} (closed : Closed @keeps @strays)

/-! ## Combinations -/

theorem of_ite {condition : Prop} [Decidable condition] {yes no : Walk α} (first : keeps yes)
    (second : keeps no) : keeps (if condition then yes else no) := by
  split
  · exact first
  · exact second

include closed

/-- A walk of which the tree is used. -/
theorem of_made {walk : Walk α} (first : keeps walk) (make : α → β) :
    keeps (walk >>= fun value => pure (make value)) :=
  closed.of_bind first fun _ => closed.of_pure _

theorem of_isAtEnd : keeps isAtEnd := closed.of_made closed.of_peek _

theorem of_checkKind (kind : Token.Kind) : keeps (checkKind kind) :=
  closed.of_made closed.of_peek _

theorem of_check (kind : Token.Kind) (text : String) : keeps (check kind text) :=
  closed.of_made closed.of_peek _

theorem of_here : keeps here := closed.of_made closed.of_peek _

theorem of_accept (kind : Token.Kind) (text : String) : keeps (accept kind text) :=
  closed.of_bind (closed.of_check kind text) fun _ =>
    of_ite (closed.of_passing (closed.of_pure _)) (closed.of_pure _)

theorem of_acceptAny {operator : Type} (symbol : operator → String) (operators : List operator) :
    keeps (acceptAny symbol operators) := by
  induction operators with
  | nil => exact closed.of_pure _
  | cons first others ih =>
      exact closed.of_bind (closed.of_accept _ _) fun _ => of_ite (closed.of_pure _) ih

theorem of_demand (kind : Token.Kind) (text : String) (wanted : Expectation) :
    keeps (demand kind text wanted) :=
  closed.of_bind (closed.of_check kind text) fun _ =>
    of_ite (closed.of_passing (closed.of_pure _)) (closed.of_refuse _)

theorem of_mark (text place : String) : keeps (mark text place) := closed.of_demand _ _ _

theorem of_semicolon (place : String) : keeps (semicolon place) := closed.of_mark _ _

theorem of_keyword (word place : String) : keeps (keyword word place) := closed.of_demand _ _ _

theorem of_identifier (place : String) : keeps (identifier place) :=
  closed.of_tokenOf (by decide) _

theorem of_string (place : String) : keeps (string place) :=
  closed.of_made (closed.of_tokenOf (by decide) _) _

/-- A choice by the next token. -/
theorem of_choice {kind : Token.Kind} {text : String} {yes no : Walk α} (first : keeps yes)
    (second : keeps no) :
    keeps (accept kind text >>= fun taken => if taken = true then yes else no) :=
  closed.of_bind (closed.of_accept kind text) fun _ => of_ite first second

theorem of_optionally {kind : Token.Kind} {text : String} {item : Walk α} (first : keeps item) :
    keeps (optionally kind text item) :=
  closed.of_choice (closed.of_made first some) (closed.of_pure _)

section Lists

variable {item : Walk α} (first : keeps item) (close : String) (fuel : Nat)

include first

theorem of_separated : keeps (separated item fuel) := by
  induction fuel with
  | zero => exact closed.of_unfinished
  | succ fuel ih =>
      exact closed.of_bind first fun _ =>
        closed.of_choice (closed.of_made ih _) (closed.of_pure _)

theorem of_separatedUpTo : keeps (separatedUpTo close item fuel) :=
  closed.of_bind (closed.of_check _ _) fun _ =>
    of_ite (closed.of_pure _) (closed.of_separated first fuel)

theorem of_listedUpTo : keeps (listedUpTo close item fuel) := by
  induction fuel with
  | zero => exact closed.of_unfinished
  | succ fuel ih =>
      refine closed.of_bind (closed.of_check _ _) fun _ => of_ite (closed.of_pure _) ?_
      exact closed.of_bind first fun _ =>
        closed.of_choice (closed.of_made ih _) (closed.of_pure _)

theorem of_repeatedUpTo : keeps (repeatedUpTo close item fuel) := by
  induction fuel with
  | zero => exact closed.of_unfinished
  | succ fuel ih =>
      refine closed.of_bind (closed.of_check _ _) fun _ => of_ite (closed.of_pure _) ?_
      refine closed.of_bind closed.of_isAtEnd fun _ => of_ite (closed.of_pure _) ?_
      exact closed.of_bind first fun _ => closed.of_made ih _

end Lists

/-- A walk in brackets, one level deeper. -/
theorem of_bracketed {walk : Walk α} {close place : String} {make : α → β} (inside : keeps walk) :
    keeps (nested walk >>= fun inner => mark close place >>= fun _ => pure (make inner)) :=
  closed.of_bind (closed.of_nested inside) fun _ => closed.of_made (closed.of_mark _ _) _

/-! ## Expressions -/

theorem propertyOf (owner : String) : keeps (propertyOf owner) :=
  closed.of_bind (closed.of_identifier _) fun _ => closed.of_bind (closed.of_check _ _) fun _ =>
    of_ite (closed.of_refuse _) (closed.of_pure _)

theorem objectEntry {value : Walk Expression} (values : keeps value) :
    keeps (objectEntry value) :=
  closed.of_bind (closed.of_string _) fun _ => closed.of_bind (closed.of_mark _ _) fun _ =>
    closed.of_made values _

/-- What holds of the forms of expressions with some fuel. -/
structure Expressions (_ : Closed @keeps @strays) (fuel : Nat) : Prop where
  chain (level : Precedence) : keeps (chain fuel level)
  chainFrom (level : Precedence) (left : Expression) : strays (chainFrom fuel level left)
  operand (level : Precedence) : keeps (operand fuel level)
  unary : keeps (unary fuel)
  primary : keeps (primary fuel)
  opening : keeps (opening fuel)
  named (name : String) : keeps (named fuel name)

section Step

variable {fuel : Nat} (below : closed.Expressions fuel)

include below

theorem chain_succ (level : Precedence) : keeps (chain (fuel + 1) level) :=
  closed.of_balanced (closed.strays_of_bind (below.operand level) fun first =>
    below.chainFrom level first)

theorem chainFrom_succ (level : Precedence) (left : Expression) :
    strays (chainFrom (fuel + 1) level left) := by
  refine closed.strays_of_bind (closed.of_acceptAny _ _) fun operator? => ?_
  cases operator? with
  | none => exact closed.strays_of_keeps (closed.of_pure _)
  | some operator =>
      exact closed.strays_of_deepen (closed.strays_of_bind (below.operand level) fun right =>
        below.chainFrom level (.binary operator left right))

theorem operand_succ (level : Precedence) : keeps (operand (fuel + 1) level) := by
  cases level with
  | product => exact below.unary
  | sum => exact below.chain .product
  | comparison => exact below.chain .sum
  | equality => exact below.chain .comparison
  | conjunction => exact below.chain .equality
  | disjunction => exact below.chain .conjunction

theorem unary_succ : keeps (unary (fuel + 1)) := by
  refine closed.of_bind (closed.of_acceptAny _ _) fun operator? => ?_
  cases operator? with
  | none => exact below.primary
  | some operator => exact closed.of_made (closed.of_nested below.unary) _

theorem primary_succ : keeps (primary (fuel + 1)) := by
  refine closed.of_bind closed.of_peek fun token => ?_
  cases literal? token with
  | some result =>
      cases result with
      | ok value => exact closed.of_passing (closed.of_pure _)
      | error complaint => exact closed.of_refuse _
  | none => exact of_ite (closed.of_passing (below.named _)) below.opening

theorem opening_succ : keeps (opening (fuel + 1)) := by
  have chains := below.chain .disjunction
  refine closed.of_choice (closed.of_bracketed chains) ?_
  refine closed.of_choice (closed.of_bracketed (closed.of_separatedUpTo chains _ _)) ?_
  have entries := closed.of_separatedUpTo (closed.objectEntry chains) "\x7d" fuel
  exact closed.of_choice (closed.of_bracketed entries) (closed.of_refuse _)

theorem named_succ (name : String) : keeps (named (fuel + 1) name) := by
  have arguments := closed.of_separatedUpTo (below.chain .disjunction) ")" fuel
  refine closed.of_choice (closed.of_bracketed arguments) ?_
  exact closed.of_choice (closed.propertyOf name) (closed.of_pure _)

end Step

theorem expressions (fuel : Nat) : closed.Expressions fuel := by
  induction fuel with
  | zero =>
      have none {α : Type} : keeps (unfinished : Walk α) := closed.of_unfinished
      exact ⟨fun _ => none, fun _ _ => closed.strays_of_keeps none, fun _ => none, none, none, none,
        fun _ => none⟩
  | succ fuel ih =>
      exact ⟨closed.chain_succ ih, closed.chainFrom_succ ih, closed.operand_succ ih,
        closed.unary_succ ih, closed.primary_succ ih, closed.opening_succ ih,
        closed.named_succ ih⟩

theorem expression (fuel : Nat) : keeps (expression fuel) :=
  (closed.expressions fuel).chain .disjunction

/-! ## Statements -/

theorem furtherArgument (fuel : Nat) : keeps (furtherArgument fuel) :=
  closed.of_optionally (closed.expression fuel)

theorem messageArguments (fuel : Nat) (word : String) : keeps (messageArguments fuel word) :=
  closed.of_bind (closed.of_mark _ _) fun _ => closed.of_bind (closed.expression fuel) fun _ =>
    closed.of_bind (closed.furtherArgument fuel) fun _ =>
    closed.of_bind (closed.of_mark _ _) fun _ => closed.of_made (closed.of_semicolon _) _

theorem notification (fuel : Nat) (place : Location) : keeps (notification fuel place) :=
  closed.of_bind (closed.of_mark _ _) fun _ => closed.of_bind (closed.expression fuel) fun _ =>
    closed.of_bind (closed.of_mark _ _) fun _ => closed.of_bind (closed.expression fuel) fun _ =>
    closed.of_bind (closed.furtherArgument fuel) fun _ =>
    closed.of_bind (closed.of_mark _ _) fun _ => closed.of_made (closed.of_semicolon _) _

theorem arguments (fuel : Nat) : keeps (arguments fuel) :=
  closed.of_separatedUpTo (closed.expression fuel) _ _

theorem callOrAssignment (fuel : Nat) (place : Location) : keeps (callOrAssignment fuel place) := by
  refine closed.of_bind (closed.of_peekAhead 1) fun _ =>
    closed.of_bind (closed.of_identifier _) fun _ => of_ite ?_ ?_
  · exact closed.of_bind (closed.of_mark _ _) fun _ => closed.of_bind (closed.arguments fuel)
      fun _ => closed.of_bind (closed.of_mark _ _) fun _ => closed.of_made (closed.of_semicolon _) _
  · exact closed.of_bind (closed.of_demand _ _ _) fun _ => closed.of_bind (closed.expression fuel)
      fun _ => closed.of_made (closed.of_semicolon _) _

/-- What holds of the forms of statements with some fuel. -/
structure Statements (_ : Closed @keeps @strays) (fuel : Nat) : Prop where
  block (owner : String) : keeps (block fuel owner)
  conditional (place : Location) : keeps (conditional fuel place)
  loop (place : Location) : keeps (loop fuel place)
  statement : keeps (statement fuel)

section Step

variable {fuel : Nat} (below : closed.Statements fuel)

include below

theorem block_succ (owner : String) : keeps (block (fuel + 1) owner) :=
  closed.of_bind (closed.of_mark _ _) fun _ => closed.of_bracketed
    (closed.of_repeatedUpTo below.statement _ _)

theorem conditional_succ (place : Location) : keeps (conditional (fuel + 1) place) := by
  refine closed.of_bind (closed.of_mark _ _) fun _ => closed.of_bind (closed.expression fuel)
    fun _ => closed.of_bind (closed.of_mark _ _) fun _ => closed.of_bind (below.block _) fun _ => ?_
  refine closed.of_choice (closed.of_bind closed.of_here fun elsePlace => ?_) (closed.of_pure _)
  exact closed.of_choice (closed.of_made (closed.of_nested (below.conditional elsePlace)) _)
    (closed.of_made (below.block _) _)

theorem loop_succ (place : Location) : keeps (loop (fuel + 1) place) :=
  closed.of_bind (closed.of_mark _ _) fun _ => closed.of_bind (closed.of_identifier _) fun _ =>
    closed.of_bind (closed.of_keyword _ _) fun _ => closed.of_bind (closed.expression fuel) fun _ =>
    closed.of_bind (closed.of_mark _ _) fun _ => closed.of_made (below.block _) _

theorem statement_succ : keeps (statement (fuel + 1)) := by
  refine closed.of_bind closed.of_here fun place => ?_
  refine closed.of_choice (below.conditional place) (closed.of_choice (below.loop place) ?_)
  refine closed.of_choice (closed.of_made (closed.messageArguments fuel _) _) ?_
  refine closed.of_choice (closed.of_made (closed.messageArguments fuel _) _) ?_
  refine closed.of_choice (closed.notification fuel place) ?_
  exact closed.of_bind (closed.of_checkKind _) fun _ =>
    of_ite (closed.callOrAssignment fuel place) (closed.of_refuse _)

end Step

theorem statements (fuel : Nat) : closed.Statements fuel := by
  induction fuel with
  | zero =>
      have none {α : Type} : keeps (unfinished : Walk α) := closed.of_unfinished
      exact ⟨fun _ => none, fun _ => none, fun _ => none, none⟩
  | succ fuel ih =>
      exact ⟨closed.block_succ ih, closed.conditional_succ ih, closed.loop_succ ih,
        closed.statement_succ ih⟩

/-! ## Declarations -/

section Declarations

variable (fuel : Nat) (place : Location)

theorem propertyItem : keeps (propertyItem fuel place) :=
  closed.of_bind (closed.of_identifier _) fun _ => closed.of_bind (closed.of_mark _ _) fun _ =>
    closed.of_bind (closed.of_identifier _) fun _ =>
    closed.of_bind (closed.of_optionally (closed.expression fuel)) fun _ =>
    closed.of_made (closed.of_semicolon _) _

theorem setting : keeps (setting fuel) :=
  closed.of_bind (closed.of_identifier _) fun _ => closed.of_bind (closed.of_mark _ _) fun _ =>
    closed.of_made (closed.expression fuel) _

theorem device (word : String) : keeps (device fuel word place) := by
  have settings := closed.of_listedUpTo (closed.setting fuel) "\x7d" fuel
  refine closed.of_bind (closed.of_identifier _) fun _ => closed.of_bind (closed.of_mark _ _)
    fun _ => closed.of_bind (closed.of_identifier _) fun _ => ?_
  exact closed.of_choice (closed.of_bind settings fun _ => closed.of_made (closed.of_mark _ _) _)
    (closed.of_made (closed.of_demand _ _ _) _)

theorem actionReference : keeps (actionReference fuel place) :=
  closed.of_bind (closed.of_identifier _) fun _ => closed.of_choice
    (closed.of_bind (closed.arguments fuel) fun _ => closed.of_made (closed.of_mark _ _) _)
    (closed.of_pure _)

theorem transition : keeps (transition fuel place) :=
  closed.of_bind (closed.of_identifier _) fun _ =>
    closed.of_bind (closed.of_optionally (closed.expression fuel)) fun _ =>
    closed.of_made (closed.of_semicolon _) _

theorem stateClause : keeps (stateClause fuel) := by
  have references (make : ActionReference → StateClause) (site : String) (place : Location) :
      keeps (Walk.actionReference fuel place >>= fun reference =>
        semicolon site >>= fun _ => pure (make reference)) :=
    closed.of_bind (closed.actionReference fuel place) fun _ =>
      closed.of_made (closed.of_semicolon _) _
  refine closed.of_bind closed.of_here fun place => ?_
  refine closed.of_choice (references .entry _ place) ?_
  refine closed.of_choice (references .exit _ place) ?_
  exact closed.of_choice (closed.of_made (closed.transition fuel place) _) (closed.of_refuse _)

theorem stateItem : keeps (stateItem fuel place) :=
  closed.of_bind (closed.of_identifier _) fun _ => closed.of_bind (closed.of_mark _ _) fun _ =>
    closed.of_bind (closed.of_repeatedUpTo (closed.stateClause fuel) _ _) fun _ =>
    closed.of_made (closed.of_mark _ _) _

theorem twinItem : keeps (twinItem fuel) := by
  refine closed.of_bind closed.of_here fun place => ?_
  refine closed.of_choice (closed.of_made (closed.propertyItem fuel place) _) ?_
  refine closed.of_choice (closed.of_made (closed.device fuel place _) _) ?_
  refine closed.of_choice (closed.of_made (closed.device fuel place _) _) ?_
  exact closed.of_choice (closed.of_made (closed.stateItem fuel place) _) (closed.of_refuse _)

theorem identifierBehind (word site : String) : keeps (identifierBehind word site) :=
  closed.of_optionally (closed.of_identifier _)

theorem twin : keeps (twin fuel place) :=
  closed.of_bind (closed.of_identifier _) fun _ =>
    closed.of_bind (closed.identifierBehind _ _) fun _ =>
    closed.of_bind (closed.of_mark _ _) fun _ =>
    closed.of_bind (closed.of_repeatedUpTo (closed.twinItem fuel) _ _) fun _ =>
    closed.of_made (closed.of_mark _ _) _

theorem instanceCount : keeps instanceCount := by
  refine closed.of_bind closed.of_peek fun token => of_ite ?_ (closed.of_refuse _)
  cases Numeral.integer? token.text.toList with
  | some count => exact closed.of_passing (closed.of_pure _)
  | none => exact closed.of_refuse _

theorem bracketedCount : keeps bracketedCount :=
  closed.of_choice (closed.of_bind closed.instanceCount fun _ =>
    closed.of_made (closed.of_mark _ _) _) (closed.of_pure _)

theorem twinReference : keeps (twinReference place) :=
  closed.of_bind (closed.of_identifier _) fun _ =>
    closed.of_bind (closed.identifierBehind _ _) fun _ =>
    closed.of_bind closed.bracketedCount fun _ => closed.of_made (closed.of_semicolon _) _

theorem ruleReference : keeps (ruleReference place) :=
  closed.of_bind (closed.of_identifier _) fun _ => closed.of_made (closed.of_semicolon _) _

theorem swarmMember : keeps swarmMember := by
  refine closed.of_bind closed.of_here fun place => ?_
  refine closed.of_choice (closed.of_made (closed.twinReference place) _) ?_
  exact closed.of_choice (closed.of_made (closed.ruleReference place) _) (closed.of_refuse _)

theorem swarm : keeps (swarm fuel place) :=
  closed.of_bind (closed.of_identifier _) fun _ => closed.of_bind (closed.of_mark _ _) fun _ =>
    closed.of_bind (closed.of_repeatedUpTo closed.swarmMember _ _) fun _ =>
    closed.of_made (closed.of_mark _ _) _

theorem parameter : keeps parameter :=
  closed.of_bind closed.of_here fun _ => closed.of_bind (closed.of_identifier _) fun _ =>
    closed.of_bind (closed.of_mark _ _) fun _ => closed.of_made (closed.of_identifier _) _

theorem parameters (owner : String) : keeps (parameters fuel owner) :=
  closed.of_choice (closed.of_bind (closed.of_separatedUpTo closed.parameter _ _) fun _ =>
    closed.of_made (closed.of_mark _ _) _) (closed.of_pure _)

theorem event : keeps (event fuel place) :=
  closed.of_bind (closed.of_identifier _) fun _ => closed.of_bind (closed.parameters fuel _)
    fun _ => closed.of_made (closed.of_semicolon _) _

theorem action : keeps (action fuel place) :=
  closed.of_bind (closed.of_identifier _) fun _ => closed.of_bind (closed.parameters fuel _)
    fun _ => closed.of_made ((closed.statements fuel).block _) _

theorem rule : keeps (rule fuel place) :=
  closed.of_bind (closed.of_identifier _) fun _ => closed.of_bind (closed.of_mark _ _) fun _ =>
    closed.of_bind (closed.of_keyword _ _) fun _ => closed.of_bind (closed.expression fuel) fun _ =>
    closed.of_bind (closed.of_semicolon _) fun _ => closed.of_bind (closed.of_keyword _ _) fun _ =>
    closed.of_bind ((closed.statements fuel).block _) fun _ => closed.of_made (closed.of_mark _ _) _

theorem imported : keeps (imported place) :=
  closed.of_bind (closed.of_identifier _) fun _ =>
    closed.of_bind (closed.of_optionally (closed.of_string _)) fun _ =>
    closed.of_made (closed.of_semicolon _) _

theorem declaration : keeps (declaration fuel) := by
  refine closed.of_bind closed.of_here fun place => ?_
  refine closed.of_choice (closed.of_made (closed.twin fuel place) _) ?_
  refine closed.of_choice (closed.of_made (closed.swarm fuel place) _) ?_
  refine closed.of_choice (closed.of_made (closed.event fuel place) _) ?_
  refine closed.of_choice (closed.of_made (closed.action fuel place) _) ?_
  refine closed.of_choice (closed.of_made (closed.rule fuel place) _) ?_
  exact closed.of_choice (closed.of_made (closed.imported place) _) (closed.of_refuse _)

end Declarations

end Closed

/-! ## All forms -/

/-- The forms of the grammar, as walks that are given fuel.  Lists are listed with what they
contain.  The rest of a chain is none of them, since it does not set the counter back. -/
inductive Form : {α : Type} → (Nat → Walk α) → Prop where
  | chain (level : Precedence) : Form fun fuel => chain fuel level
  | operand (level : Precedence) : Form fun fuel => operand fuel level
  | unary : Form unary
  | primary : Form primary
  | opening : Form opening
  | named (name : String) : Form fun fuel => named fuel name
  | propertyOf (owner : String) : Form fun _ => propertyOf owner
  | objectEntry : Form fun fuel => objectEntry (expression fuel)
  | elements : Form fun fuel => separatedUpTo "]" (expression fuel) fuel
  | entries : Form fun fuel => separatedUpTo "\x7d" (objectEntry (expression fuel)) fuel
  | arguments : Form arguments
  | furtherArgument : Form furtherArgument
  | messageArguments (word : String) : Form fun fuel => messageArguments fuel word
  | notification (place : Location) : Form fun fuel => notification fuel place
  | callOrAssignment (place : Location) : Form fun fuel => callOrAssignment fuel place
  | conditional (place : Location) : Form fun fuel => conditional fuel place
  | loop (place : Location) : Form fun fuel => loop fuel place
  | statement : Form statement
  | blockStatements : Form fun fuel => repeatedUpTo "\x7d" (statement fuel) fuel
  | block (owner : String) : Form fun fuel => block fuel owner
  | propertyItem (place : Location) : Form fun fuel => propertyItem fuel place
  | setting : Form setting
  | settings : Form fun fuel => listedUpTo "\x7d" (setting fuel) fuel
  | device (word : String) (place : Location) : Form fun fuel => device fuel word place
  | actionReference (place : Location) : Form fun fuel => actionReference fuel place
  | transition (place : Location) : Form fun fuel => transition fuel place
  | stateClause : Form stateClause
  | stateClauses : Form fun fuel => repeatedUpTo "\x7d" (stateClause fuel) fuel
  | stateItem (place : Location) : Form fun fuel => stateItem fuel place
  | twinItem : Form twinItem
  | twinItems : Form fun fuel => repeatedUpTo "\x7d" (twinItem fuel) fuel
  | identifierBehind (word site : String) : Form fun _ => identifierBehind word site
  | twin (place : Location) : Form fun fuel => twin fuel place
  | instanceCount : Form fun _ => instanceCount
  | bracketedCount : Form fun _ => bracketedCount
  | twinReference (place : Location) : Form fun _ => twinReference place
  | ruleReference (place : Location) : Form fun _ => ruleReference place
  | swarmMember : Form fun _ => swarmMember
  | swarmMembers : Form fun fuel => repeatedUpTo "\x7d" swarmMember fuel
  | swarm (place : Location) : Form fun fuel => swarm fuel place
  | parameter : Form fun _ => parameter
  | parameterList : Form fun fuel => separatedUpTo ")" parameter fuel
  | parameters (owner : String) : Form fun fuel => parameters fuel owner
  | event (place : Location) : Form fun fuel => event fuel place
  | action (place : Location) : Form fun fuel => action fuel place
  | rule (place : Location) : Form fun fuel => rule fuel place
  | imported (place : Location) : Form fun _ => imported place
  | declaration : Form declaration

/-- Every form has a property that is closed under the ways to combine walks. -/
theorem Closed.form {keeps strays : {α : Type} → Walk α → Prop} (closed : Closed @keeps @strays)
    {walk : Nat → Walk α} (form : Form walk) (fuel : Nat) : keeps (walk fuel) := by
  have expressions := closed.expressions fuel
  have statements := closed.statements fuel
  cases form with
  | chain level => exact expressions.chain level
  | operand level => exact expressions.operand level
  | unary => exact expressions.unary
  | primary => exact expressions.primary
  | opening => exact expressions.opening
  | named name => exact expressions.named name
  | propertyOf owner => exact closed.propertyOf owner
  | objectEntry => exact closed.objectEntry (closed.expression fuel)
  | elements => exact closed.of_separatedUpTo (closed.expression fuel) _ _
  | entries => exact closed.of_separatedUpTo (closed.objectEntry (closed.expression fuel)) _ _
  | arguments => exact closed.arguments fuel
  | furtherArgument => exact closed.furtherArgument fuel
  | messageArguments word => exact closed.messageArguments fuel word
  | notification place => exact closed.notification fuel place
  | callOrAssignment place => exact closed.callOrAssignment fuel place
  | conditional place => exact statements.conditional place
  | loop place => exact statements.loop place
  | statement => exact statements.statement
  | blockStatements => exact closed.of_repeatedUpTo statements.statement _ _
  | block owner => exact statements.block owner
  | propertyItem place => exact closed.propertyItem fuel place
  | setting => exact closed.setting fuel
  | settings => exact closed.of_listedUpTo (closed.setting fuel) _ _
  | device word place => exact closed.device fuel place word
  | actionReference place => exact closed.actionReference fuel place
  | transition place => exact closed.transition fuel place
  | stateClause => exact closed.stateClause fuel
  | stateClauses => exact closed.of_repeatedUpTo (closed.stateClause fuel) _ _
  | stateItem place => exact closed.stateItem fuel place
  | twinItem => exact closed.twinItem fuel
  | twinItems => exact closed.of_repeatedUpTo (closed.twinItem fuel) _ _
  | identifierBehind word site => exact closed.identifierBehind word site
  | twin place => exact closed.twin fuel place
  | instanceCount => exact closed.instanceCount
  | bracketedCount => exact closed.bracketedCount
  | twinReference place => exact closed.twinReference place
  | ruleReference place => exact closed.ruleReference place
  | swarmMember => exact closed.swarmMember
  | swarmMembers => exact closed.of_repeatedUpTo closed.swarmMember _ _
  | swarm place => exact closed.swarm fuel place
  | parameter => exact closed.parameter
  | parameterList => exact closed.of_separatedUpTo closed.parameter _ _
  | parameters owner => exact closed.parameters fuel owner
  | event place => exact closed.event fuel place
  | action place => exact closed.action fuel place
  | rule place => exact closed.rule fuel place
  | imported place => exact closed.imported place
  | declaration => exact closed.declaration fuel

end TwinSwarm.Walk
