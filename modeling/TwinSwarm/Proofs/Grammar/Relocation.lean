import TwinSwarm.Proofs.Grammar.Attempts
import TwinSwarm.Proofs.Tree.Relocation

/-!
# The grammar does not look at places

What a recogniser answers to tokens that have been moved is what it answers to the tokens
where they were, moved in the same way.  It takes as many tokens and builds the same tree at
the new places, or it fails with the same complaint about the same token.
-/

namespace TwinSwarm.Grammar

open Recogniser

variable {α β : Type}

section Moves

variable (move : Location → Location)

/-- The failure with its tokens at their new places. -/
def Failure.relocated (failure : Failure) : Failure :=
  { failure with rest := failure.rest.map (Token.relocated move) }

/-- A failure is described alike wherever the tokens stand. -/
@[simp] theorem Failure.found_relocated (failure : Failure) :
    (failure.relocated move).found = failure.found := by
  rcases failure with ⟨complaint, rest⟩
  cases rest <;> rfl

@[simp] theorem Failure.location_relocated (failure : Failure) (place : Location) :
    (failure.relocated move).location (move place) = move (failure.location place) := by
  rcases failure with ⟨complaint, rest⟩
  cases rest <;> rfl

/-- The answer of a recogniser, with its tree and its tokens at their new places. -/
def relocatedAnswer (onTree : α → α) :
    Except Failure (α × List Token) → Except Failure (α × List Token)
  | .ok (tree, rest) => .ok (onTree tree, rest.map (Token.relocated move))
  | .error failure => .error (failure.relocated move)

/-- The mirror answers to moved tokens what the recogniser answers to the tokens, moved. -/
def Recogniser.Mirrors (onTree : α → α) (recogniser mirror : Recogniser α) : Prop :=
  ∀ tokens, mirror (tokens.map (Token.relocated move)) =
    relocatedAnswer move onTree (recogniser tokens)

/-- The recogniser answers alike wherever the tokens stand. -/
def Recogniser.Blind (recogniser : Recogniser α) : Prop :=
  recogniser.Mirrors move id recogniser

end Moves

variable {move : Location → Location}

@[simp] theorem startsWith_relocated (kind : Token.Kind) (text : String) (tokens : List Token) :
    startsWith kind text (tokens.map (Token.relocated move)) = startsWith kind text tokens := by
  cases tokens <;> rfl

/-- Answers that depend on a condition that does not look at places. -/
theorem relocatedAnswer_ite {condition condition' : Prop} [Decidable condition]
    [Decidable condition'] (same : condition' ↔ condition) {onTree : α → α}
    {yes no yes' no' : Except Failure (α × List Token)}
    (first : yes' = relocatedAnswer move onTree yes)
    (second : no' = relocatedAnswer move onTree no) :
    (if condition' then yes' else no') =
      relocatedAnswer move onTree (if condition then yes else no) := by
  by_cases holds : condition
  · rw [if_pos holds, if_pos (same.mpr holds), first]
  · rw [if_neg holds, if_neg (mt same.mp holds), second]

namespace Recogniser.Mirrors

/-! ## Single tokens -/

theorem of_pure {onTree : α → α} {value value' : α} (valueEq : value' = onTree value) :
    (pure value : Recogniser α).Mirrors move onTree (pure value') := by
  intro tokens
  rw [valueEq]
  rfl

theorem of_fail (onTree : α → α) (complaint : Complaint) :
    (fail complaint : Recogniser α).Mirrors move onTree (fail complaint) := fun _ => rfl

theorem of_isNext (kind : Token.Kind) (text : String) : (isNext kind text).Blind move := by
  intro tokens
  rw [isNext, startsWith_relocated]
  rfl

theorem of_accept (kind : Token.Kind) (text : String) : (accept kind text).Blind move := by
  intro tokens
  rw [accept, accept, startsWith_relocated, ← List.map_tail]
  split <;> rfl

theorem of_demand (kind : Token.Kind) (text : String) (wanted : Expectation) :
    (demand kind text wanted).Blind move := by
  intro tokens
  rw [demand, demand, startsWith_relocated, ← List.map_tail]
  split <;> rfl

theorem of_mark (text place : String) : (mark text place).Blind move := of_demand _ _ _

theorem of_semicolon (place : String) : (semicolon place).Blind move := of_mark _ _

theorem of_keyword (word place : String) : (keyword word place).Blind move := of_demand _ _ _

theorem of_tokenOf (kind : Token.Kind) (wanted : Expectation) :
    (tokenOf kind wanted).Blind move := by
  intro tokens
  cases tokens with
  | nil => rfl
  | cons token rest =>
      by_cases same : token.kind = kind
      · simp [tokenOf, Token.relocated, relocatedAnswer, same]
      · simp [tokenOf, Token.relocated, relocatedAnswer, Failure.relocated, same]

theorem of_identifier (place : String) : (identifier place).Blind move := of_tokenOf _ _

/-! ## Combinations -/

theorem of_bind {onFirst : α → α} {onTree : β → β} {recogniser mirror : Recogniser α}
    {next nextMirror : α → Recogniser β} (first : recogniser.Mirrors move onFirst mirror)
    (others : ∀ value, (next value).Mirrors move onTree (nextMirror (onFirst value))) :
    (recogniser >>= next).Mirrors move onTree (mirror >>= nextMirror) := by
  intro tokens
  rw [bind_apply, bind_apply, first tokens]
  cases recogniser tokens with
  | ok result => exact others result.1 result.2
  | error failure => rfl

theorem of_ite {condition : Prop} [Decidable condition] {onTree : α → α}
    {yes no yesMirror noMirror : Recogniser α} (first : yes.Mirrors move onTree yesMirror)
    (second : no.Mirrors move onTree noMirror) :
    (if condition then yes else no).Mirrors move onTree
      (if condition then yesMirror else noMirror) := by
  split
  · exact first
  · exact second

/-- A choice by the next token. -/
theorem of_choice {kind : Token.Kind} {text : String} {onTree : α → α}
    {yes no yesMirror noMirror : Recogniser α} (first : yes.Mirrors move onTree yesMirror)
    (second : no.Mirrors move onTree noMirror) :
    (accept kind text >>= fun taken => if taken = true then yes else no).Mirrors move onTree
      (accept kind text >>= fun taken => if taken = true then yesMirror else noMirror) :=
  of_bind (of_accept kind text) fun _ => of_ite first second

/-- What is read at the next place is read at the place to which that is moved.  There is no
next place at the end of the text, where nothing can be read. -/
theorem of_here {onTree : α → α} {body mirror : Location → Recogniser α} {complaint : Complaint}
    (atEnd : ∀ place, body place [] = .error ⟨complaint, []⟩)
    (mirrorAtEnd : ∀ place, mirror place [] = .error ⟨complaint, []⟩)
    (mirrors : ∀ place, (body place).Mirrors move onTree (mirror (move place))) :
    (here >>= body).Mirrors move onTree (here >>= mirror) := by
  intro tokens
  cases tokens with
  | nil =>
      rw [bind_apply, bind_apply]
      simp only [here, List.map_nil, atEnd, mirrorAtEnd]
      rfl
  | cons token rest => exact mirrors token.location (token :: rest)

/-- The case in which both bodies are the same but for the place. -/
theorem of_here_same {onTree : α → α} {body : Location → Recogniser α} {complaint : Complaint}
    (atEnd : ∀ place, body place [] = .error ⟨complaint, []⟩)
    (mirrors : ∀ place, (body place).Mirrors move onTree (body (move place))) :
    (here >>= body).Mirrors move onTree (here >>= body) :=
  of_here atEnd atEnd mirrors

theorem of_optionally {kind : Token.Kind} {text : String} {recogniser : Recogniser α}
    (blind : recogniser.Blind move) : (optionally kind text recogniser).Blind move :=
  of_choice (of_bind blind fun _ => of_pure rfl) (of_pure rfl)

theorem of_string (place : String) : (string place).Blind move :=
  of_bind (of_tokenOf _ _) fun _ => of_pure rfl

theorem of_spending {budget : Nat} {onTree : α → α} {next mirror : Nat → Recogniser α}
    (deeper : ∀ smaller, budget = smaller + 1 →
      (next smaller).Mirrors move onTree (mirror smaller)) :
    (spending budget next).Mirrors move onTree (spending budget mirror) := by
  cases budget with
  | zero => exact of_fail onTree _
  | succ smaller => exact deeper smaller rfl

theorem of_bracketed {budget : Nat} {close place : String} {onInside : α → α} {onTree : β → β}
    {inside : Nat → Recogniser α} {make : α → β}
    (deeper : ∀ smaller, budget = smaller + 1 →
      (inside smaller).Mirrors move onInside (inside smaller))
    (makeEq : ∀ value, make (onInside value) = onTree (make value)) :
    (bracketed budget close place inside make).Mirrors move onTree
      (bracketed budget close place inside make) := by
  apply of_spending
  intro smaller isSucc
  exact of_bind (deeper smaller isSucc) fun _ => of_bind (of_mark _ _) fun _ =>
    of_pure (makeEq _)

theorem of_blindBracketed {budget : Nat} {close place : String} {inside : Nat → Recogniser α}
    {make : α → β} (deeper : ∀ smaller, budget = smaller + 1 → (inside smaller).Blind move) :
    (bracketed budget close place inside make).Blind move :=
  of_bracketed deeper fun _ => rfl

/-! ## Lists -/

section Lists

variable {onItem : α → α} {item mirror : Recogniser α} (mirrors : item.Mirrors move onItem mirror)

include mirrors

theorem of_separated : (separated item).Mirrors move (List.map onItem) (separated mirror) := by
  intro tokens
  fun_induction separated item tokens with
  | case1 tokens same failure failed =>
      subst same
      rw [separated, mirrors tokens, failed]
      rfl
  | case2 tokens same first rest parsed shorter failure failed ih =>
      subst same
      have fewer : rest.length - 1 < tokens.length := by simpa using shorter.2
      rw [failed, List.map_tail] at ih
      rw [separated, mirrors tokens, parsed]
      simp [relocatedAnswer, shorter.1, fewer, ih]
  | case3 tokens same first rest parsed shorter others rest' parsedOthers ih =>
      subst same
      have fewer : rest.length - 1 < tokens.length := by simpa using shorter.2
      rw [parsedOthers, List.map_tail] at ih
      rw [separated, mirrors tokens, parsed]
      simp [relocatedAnswer, shorter.1, fewer, ih]
  | case4 tokens same first rest parsed last =>
      subst same
      rw [separated, mirrors tokens, parsed]
      simp [relocatedAnswer]
      intro comma fewer
      exact absurd ⟨comma, by simpa using fewer⟩ last

theorem of_separatedUpTo (close : String) :
    (separatedUpTo close item).Mirrors move (List.map onItem) (separatedUpTo close mirror) :=
  of_bind (of_isNext _ _) fun _ => of_ite (of_pure rfl) (of_separated mirrors)

theorem of_listedUpTo (close : String) :
    (listedUpTo close item).Mirrors move (List.map onItem) (listedUpTo close mirror) := by
  intro tokens
  fun_induction listedUpTo close item tokens with
  | case1 tokens same closes =>
      subst same
      rw [listedUpTo]
      simp [relocatedAnswer, closes]
  | case2 tokens same opens failure failed =>
      subst same
      rw [listedUpTo, mirrors tokens, failed]
      simp [relocatedAnswer, opens]
  | case3 tokens same opens first rest parsed shorter failure failed ih =>
      subst same
      have fewer : rest.length - 1 < tokens.length := by simpa using shorter.2
      rw [failed, List.map_tail] at ih
      rw [listedUpTo, mirrors tokens, parsed]
      simp [relocatedAnswer, opens, shorter.1, fewer, ih]
  | case4 tokens same opens first rest parsed shorter others rest' parsedOthers ih =>
      subst same
      have fewer : rest.length - 1 < tokens.length := by simpa using shorter.2
      rw [parsedOthers, List.map_tail] at ih
      rw [listedUpTo, mirrors tokens, parsed]
      simp [relocatedAnswer, opens, shorter.1, fewer, ih]
  | case5 tokens same opens first rest parsed last =>
      subst same
      rw [listedUpTo, mirrors tokens, parsed]
      simp [relocatedAnswer, opens]
      intro comma fewer
      exact absurd ⟨comma, by simpa using fewer⟩ last

theorem of_repeatedUpTo (close : String) :
    (repeatedUpTo close item).Mirrors move (List.map onItem) (repeatedUpTo close mirror) := by
  intro tokens
  fun_induction repeatedUpTo close item tokens with
  | case1 tokens same closes =>
      subst same
      rw [repeatedUpTo]
      simp [relocatedAnswer, closes]
  | case2 tokens same opens failure failed =>
      subst same
      rw [repeatedUpTo, mirrors tokens, failed]
      simp [relocatedAnswer, opens]
  | case3 tokens same opens first rest parsed shorter failure failed ih =>
      subst same
      rw [failed] at ih
      rw [repeatedUpTo, mirrors tokens, parsed]
      simp [relocatedAnswer, opens, shorter, ih]
  | case4 tokens same opens first rest parsed shorter others rest' parsedOthers ih =>
      subst same
      rw [parsedOthers] at ih
      rw [repeatedUpTo, mirrors tokens, parsed]
      simp [relocatedAnswer, opens, shorter, ih]
  | case5 tokens same opens first rest parsed last =>
      subst same
      rw [repeatedUpTo, mirrors tokens, parsed]
      simp [relocatedAnswer, opens, last]

end Lists

/-- Where no item knows its place, neither does a list of them. -/
theorem of_blindItems (close : String) {item : Recogniser α} (blind : item.Blind move) :
    (separatedUpTo close item).Blind move := by
  have mirrors := of_separatedUpTo blind close
  rwa [List.map_id_fun] at mirrors

theorem of_blindListed (close : String) {item : Recogniser α} (blind : item.Blind move) :
    (listedUpTo close item).Blind move := by
  have mirrors := of_listedUpTo blind close
  rwa [List.map_id_fun] at mirrors

end Recogniser.Mirrors

open Recogniser.Mirrors

/-! ## Expressions -/

theorem propertyOf_blind (owner : String) : (propertyOf owner).Blind move :=
  of_bind (of_identifier _) fun _ => of_bind (of_isNext _ _) fun _ =>
    of_ite (of_bind (of_fail id _) fun _ => of_pure rfl) (of_pure rfl)

theorem objectEntry_blind {value : Recogniser Expression} (blind : value.Blind move) :
    (objectEntry value).Blind move :=
  of_bind (of_string _) fun _ => of_bind (of_mark _ _) fun _ => of_bind blind fun _ => of_pure rfl

theorem named_blind {budget : Nat} {name : String}
    (deeper : ∀ smaller, budget = smaller + 1 → (chain smaller .disjunction).Blind move) :
    (named budget name).Blind move := by
  rw [named_eq]
  apply of_choice
  · exact of_blindBracketed fun smaller isSucc => of_blindItems ")" (deeper smaller isSucc)
  · exact of_choice (propertyOf_blind name) (of_pure rfl)

theorem primary_blind {budget : Nat}
    (deeper : ∀ smaller, budget = smaller + 1 → (chain smaller .disjunction).Blind move) :
    (primary budget).Blind move := by
  intro tokens
  cases tokens with
  | nil =>
      rw [primary.eq_def]
      rfl
  | cons token tokens =>
      rw [List.map_cons, primary_cons, primary_cons]
      have sameLiteral : literal? (token.relocated move) = literal? token := rfl
      rw [sameLiteral]
      cases literal? token with
      | some result => cases result <;> rfl
      | none =>
          refine relocatedAnswer_ite Iff.rfl (named_blind deeper tokens) ?_
          refine relocatedAnswer_ite Iff.rfl ?_ (relocatedAnswer_ite Iff.rfl ?_
            (relocatedAnswer_ite Iff.rfl ?_ rfl))
          · exact of_blindBracketed deeper tokens
          · exact of_blindBracketed (fun smaller isSucc =>
              of_blindItems _ (deeper smaller isSucc)) tokens
          · exact of_blindBracketed (fun smaller isSucc =>
              of_blindItems _ (objectEntry_blind (deeper smaller isSucc))) tokens

theorem unary_blind {budget : Nat} (primaries : (primary budget).Blind move)
    (deeper : ∀ smaller, budget = smaller + 1 → (unary smaller).Blind move) :
    (unary budget).Blind move := by
  intro tokens
  cases tokens with
  | nil =>
      rw [unary.eq_def]
      exact primaries []
  | cons token tokens =>
      have sameOperator : unaryOperator? (token.relocated move) = unaryOperator? token := rfl
      rw [List.map_cons, unary_cons, unary_cons, sameOperator]
      cases unaryOperator? token with
      | some operator =>
          refine of_spending ?_ tokens
          intro smaller isSucc
          exact of_bind (deeper smaller isSucc) fun _ => of_pure rfl
      | none => exact primaries (token :: tokens)

theorem chainFrom_blind {level : Precedence} {budget : Nat}
    (operands : ∀ smaller < budget, (operand smaller level).Blind move) (first : Expression) :
    (chainFrom budget level first).Blind move := by
  induction budget using Nat.strongRecOn generalizing first with
  | ind budget ih =>
      intro tokens
      cases tokens with
      | nil =>
          rw [chainFrom.eq_def]
          rfl
      | cons token tokens =>
          have sameOperator : binaryOperator? level (token.relocated move) =
              binaryOperator? level token := rfl
          rw [List.map_cons, chainFrom_cons, chainFrom_cons, sameOperator]
          cases binaryOperator? level token with
          | some operator =>
              refine of_spending ?_ tokens
              intro smaller isSucc
              exact of_bind (operands smaller (by omega)) fun _ =>
                ih smaller (by omega) (fun less isLess => operands less (by omega)) _
          | none => rfl

/-- The recogniser of a stratum does not look at places. -/
theorem recogniserOf_blind (budget : Nat) (stratum : Stratum) :
    (recogniserOf budget stratum).Blind move := by
  induction budget using Nat.strongRecOn generalizing stratum with
  | ind budget ih =>
      have primaries : (primary budget).Blind move :=
        primary_blind fun smaller isSucc => ih smaller (by omega) .whole
      induction stratum using Stratum.outwards with
      | primary => exact primaries
      | unary => exact unary_blind primaries fun smaller isSucc => ih smaller (by omega) .unary
      | level level operands =>
          rw [recogniserOf, chain.eq_def, operand_eq]
          apply of_bind operands
          intro first
          apply chainFrom_blind
          intro smaller less
          rw [operand_eq]
          exact ih smaller less _

theorem expression_blind (budget : Nat) : (expression budget).Blind move :=
  recogniserOf_blind budget .whole

/-! ## Statements -/

theorem furtherArgument_blind (budget : Nat) : (furtherArgument budget).Blind move :=
  of_optionally (expression_blind budget)

theorem messageArguments_blind (budget : Nat) (word : String) :
    (messageArguments budget word).Blind move :=
  of_bind (of_mark _ _) fun _ => of_bind (expression_blind budget) fun _ =>
    of_bind (furtherArgument_blind budget) fun _ => of_bind (of_mark _ _) fun _ =>
    of_bind (of_semicolon _) fun _ => of_pure rfl

theorem notification_mirrors (budget : Nat) (place : Location) :
    (notification budget place).Mirrors move (Statement.relocated move)
      (notification budget (move place)) :=
  of_bind (of_mark _ _) fun _ => of_bind (expression_blind budget) fun _ =>
    of_bind (of_mark _ _) fun _ => of_bind (expression_blind budget) fun _ =>
    of_bind (furtherArgument_blind budget) fun _ => of_bind (of_mark _ _) fun _ =>
    of_bind (of_semicolon _) fun _ => of_pure rfl

theorem arguments_blind (budget : Nat) : (arguments budget).Blind move :=
  of_blindItems ")" (expression_blind budget)

theorem callOrAssignment_mirrors (budget : Nat) (name : String) (place : Location) :
    (callOrAssignment budget name place).Mirrors move (Statement.relocated move)
      (callOrAssignment budget name (move place)) :=
  of_choice
    (of_bind (arguments_blind budget) fun _ => of_bind (of_mark _ _) fun _ =>
      of_bind (of_semicolon _) fun _ => of_pure rfl)
    (of_bind (of_demand _ _ _) fun _ => of_bind (expression_blind budget) fun _ =>
      of_bind (of_semicolon _) fun _ => of_pure rfl)

/-- The mirror of a recogniser of blocks. -/
abbrev BlockMirrors (move : Location → Location) (budget : Nat) (owner : String) : Prop :=
  (block budget owner).Mirrors move (List.map (Statement.relocated move)) (block budget owner)

/-- The mirrors of a recogniser of statements that is given their place. -/
abbrev StatementMirrors (move : Location → Location)
    (recogniser : Location → Recogniser Statement) : Prop :=
  ∀ place, (recogniser place).Mirrors move (Statement.relocated move) (recogniser (move place))

theorem block_mirrors {budget : Nat} {owner : String}
    (deeper : ∀ smaller, budget = smaller + 1 →
      (statement smaller).Mirrors move (Statement.relocated move) (statement smaller)) :
    BlockMirrors move budget owner := by
  rw [BlockMirrors, block_eq]
  exact of_bind (of_mark _ _) fun _ => of_bracketed
    (fun smaller isSucc => of_repeatedUpTo (deeper smaller isSucc) _) fun _ => rfl

theorem furtherBranch_mirrors {budget : Nat} (blocks : ∀ owner, BlockMirrors move budget owner)
    (deeper : ∀ smaller, budget = smaller + 1 → StatementMirrors move (conditional smaller))
    (place : Location) (condition : Expression) (thenBranch : List Statement) :
    (furtherBranch budget place condition thenBranch).Mirrors move (Statement.relocated move)
      (furtherBranch budget (move place) condition
        (thenBranch.map (Statement.relocated move))) := by
  apply of_choice
  · apply of_here
    · intro elsePlace
      rw [bind_apply, block_eq]
      rfl
    · intro elsePlace
      rw [bind_apply, block_eq]
      rfl
    · intro elsePlace
      apply of_choice
      · refine of_spending fun smaller isSucc =>
          of_bind (deeper smaller isSucc elsePlace) fun chained => of_pure ?_
        simp [Statement.relocated, Statement.relocatedBranch, Statement.relocatedAll_eq_map]
      · refine of_bind (blocks _) fun branch => of_pure ?_
        simp [Statement.relocated, Statement.relocatedBranch, Statement.relocatedAll_eq_map]
  · refine of_pure ?_
    simp [Statement.relocated, Statement.relocatedBranch, Statement.relocatedAll_eq_map]

theorem conditional_mirrors {budget : Nat} (blocks : ∀ owner, BlockMirrors move budget owner)
    (deeper : ∀ smaller, budget = smaller + 1 → StatementMirrors move (conditional smaller)) :
    StatementMirrors move (conditional budget) := by
  intro place
  rw [conditional_eq, conditional_eq]
  exact of_bind (of_mark _ _) fun _ => of_bind (expression_blind budget) fun _ =>
    of_bind (of_mark _ _) fun _ => of_bind (blocks _) fun _ =>
    furtherBranch_mirrors blocks deeper place _ _

theorem loop_mirrors {budget : Nat} (blocks : ∀ owner, BlockMirrors move budget owner) :
    StatementMirrors move (loop budget) := by
  intro place
  rw [loop, loop]
  refine of_bind (of_mark _ _) fun _ => of_bind (of_identifier _) fun _ =>
    of_bind (of_keyword _ _) fun _ => of_bind (expression_blind budget) fun _ =>
    of_bind (of_mark _ _) fun _ => of_bind (blocks _) fun _ => of_pure ?_
  simp [Statement.relocated, Statement.relocatedAll_eq_map]

theorem statement_mirrors_of_parts {budget : Nat}
    (blocks : ∀ owner, BlockMirrors move budget owner)
    (conditionals : StatementMirrors move (conditional budget)) :
    (statement budget).Mirrors move (Statement.relocated move) (statement budget) := by
  rw [statement]
  refine of_here_same (fun place => rfl) fun place => ?_
  apply of_choice (conditionals place)
  apply of_choice (loop_mirrors blocks place)
  apply of_choice
  · exact of_bind (messageArguments_blind budget _) fun _ => of_pure rfl
  apply of_choice
  · exact of_bind (messageArguments_blind budget _) fun _ => of_pure rfl
  apply of_choice (notification_mirrors budget place)
  exact of_bind (of_tokenOf _ _) fun _ => callOrAssignment_mirrors budget _ place

theorem statement_and_conditional_mirror (budget : Nat) :
    (statement budget).Mirrors move (Statement.relocated move) (statement budget) ∧
      StatementMirrors move (conditional budget) := by
  induction budget using Nat.strongRecOn with
  | ind budget ih =>
      have blocks (owner : String) : BlockMirrors move budget owner :=
        block_mirrors fun smaller isSucc => (ih smaller (by omega)).1
      have conditionals : StatementMirrors move (conditional budget) :=
        conditional_mirrors blocks fun smaller isSucc => (ih smaller (by omega)).2
      exact ⟨statement_mirrors_of_parts blocks conditionals, conditionals⟩

theorem anyBlock_mirrors (budget : Nat) (owner : String) : BlockMirrors move budget owner :=
  block_mirrors fun smaller _ => (statement_and_conditional_mirror smaller).1

/-! ## Items of twins -/

section Declarations

variable (budget : Nat) (place : Location)

theorem propertyItem_mirrors :
    (propertyItem budget place).Mirrors move (PropertyItem.relocated move)
      (propertyItem budget (move place)) := by
  rw [propertyItem_eq, propertyItem_eq]
  exact of_bind (of_identifier _) fun _ => of_bind (of_mark _ _) fun _ =>
    of_bind (of_identifier _) fun _ => of_bind (of_optionally (expression_blind budget)) fun _ =>
    of_bind (of_semicolon _) fun _ => of_pure rfl

theorem setting_blind : (setting budget).Blind move :=
  of_bind (of_identifier _) fun _ => of_bind (of_mark _ _) fun _ =>
    of_bind (expression_blind budget) fun _ => of_pure rfl

theorem device_mirrors (word : String) :
    (device budget word place).Mirrors move (Device.relocated move)
      (device budget word (move place)) := by
  have configurations (name type : String) :
      (configuration budget word name type place).Mirrors move (Device.relocated move)
        (configuration budget word name type (move place)) :=
    of_choice
      (of_bind (of_blindListed _ (setting_blind budget)) fun _ =>
        of_bind (of_mark _ _) fun _ => of_pure rfl)
      (of_bind (of_demand _ _ _) fun _ => of_pure rfl)
  rw [device_eq, device_eq]
  exact of_bind (of_identifier _) fun _ => of_bind (of_mark _ _) fun _ =>
    of_bind (of_identifier _) fun _ => configurations _ _

theorem actionReference_mirrors :
    (actionReference budget place).Mirrors move (ActionReference.relocated move)
      (actionReference budget (move place)) :=
  of_bind (of_identifier _) fun _ => of_choice
    (of_bind (arguments_blind budget) fun _ => of_bind (of_mark _ _) fun _ => of_pure rfl)
    (of_pure rfl)

theorem transition_mirrors :
    (transition budget place).Mirrors move (Transition.relocated move)
      (transition budget (move place)) := by
  rw [transition_eq, transition_eq]
  exact of_bind (of_identifier _) fun _ =>
    of_bind (of_optionally (expression_blind budget)) fun _ =>
    of_bind (of_semicolon _) fun _ => of_pure rfl

end Declarations

/-- The clause at its new place. -/
def StateClause.relocated (move : Location → Location) : StateClause → StateClause
  | .entry reference => .entry (reference.relocated move)
  | .exit reference => .exit (reference.relocated move)
  | .transition item => .transition (item.relocated move)

/-- What is picked from items at their new places are the picked parts at their new places. -/
theorem filterMap_relocated (pick : α → Option β) {onItem : α → α} {onPart : β → β}
    (picks : ∀ item, pick (onItem item) = (pick item).map onPart) (items : List α) :
    (items.map onItem).filterMap pick = (items.filterMap pick).map onPart := by
  rw [List.filterMap_map, List.map_filterMap]
  exact congrArg (items.filterMap ·) (funext picks)

section Clauses

variable (move : Location → Location) (clause : StateClause)

theorem entry?_relocated :
    StateClause.entry? (clause.relocated move) =
      (StateClause.entry? clause).map (ActionReference.relocated move) := by
  cases clause <;> rfl

theorem exit?_relocated :
    (clause.relocated move).exit? = clause.exit?.map (ActionReference.relocated move) := by
  cases clause <;> rfl

theorem transition?_relocated :
    (clause.relocated move).transition? = clause.transition?.map (Transition.relocated move) := by
  cases clause <;> rfl

end Clauses

theorem stateClause_mirrors (budget : Nat) :
    (stateClause budget).Mirrors move (StateClause.relocated move) (stateClause budget) := by
  refine of_here_same (fun place => rfl) fun place => ?_
  apply of_choice
  · exact of_bind (actionReference_mirrors budget place) fun _ =>
      of_bind (of_semicolon _) fun _ => of_pure rfl
  apply of_choice
  · exact of_bind (actionReference_mirrors budget place) fun _ =>
      of_bind (of_semicolon _) fun _ => of_pure rfl
  apply of_choice
  · exact of_bind (transition_mirrors budget place) fun _ => of_pure rfl
  · exact of_fail _ _

theorem stateItem_mirrors (budget : Nat) (place : Location) :
    (stateItem budget place).Mirrors move (StateItem.relocated move)
      (stateItem budget (move place)) := by
  refine of_bind (of_identifier _) fun name => of_bind (of_mark _ _) fun _ =>
    of_bind (of_repeatedUpTo (stateClause_mirrors budget) _) fun clauses =>
    of_bind (of_mark _ _) fun _ => of_pure ?_
  have entries := filterMap_relocated StateClause.entry? (entry?_relocated move) clauses
  have exits := filterMap_relocated StateClause.exit? (exit?_relocated move) clauses
  have transitions :=
    filterMap_relocated StateClause.transition? (transition?_relocated move) clauses
  rw [entries, exits, transitions]
  rfl

/-- The item at its new place. -/
def TwinItem.relocated (move : Location → Location) : TwinItem → TwinItem
  | .property item => .property (item.relocated move)
  | .sensor item => .sensor (item.relocated move)
  | .actuator item => .actuator (item.relocated move)
  | .state item => .state (item.relocated move)

section Items

variable (move : Location → Location) (item : TwinItem)

theorem property?_relocated :
    (item.relocated move).property? = item.property?.map (PropertyItem.relocated move) := by
  cases item <;> rfl

theorem sensor?_relocated :
    (item.relocated move).sensor? = item.sensor?.map (Device.relocated move) := by
  cases item <;> rfl

theorem actuator?_relocated :
    (item.relocated move).actuator? = item.actuator?.map (Device.relocated move) := by
  cases item <;> rfl

theorem state?_relocated :
    (item.relocated move).state? = item.state?.map (StateItem.relocated move) := by
  cases item <;> rfl

end Items

theorem twinItem_mirrors (budget : Nat) :
    (twinItem budget).Mirrors move (TwinItem.relocated move) (twinItem budget) := by
  refine of_here_same (fun place => rfl) fun place => ?_
  apply of_choice
  · exact of_bind (propertyItem_mirrors budget place) fun _ => of_pure rfl
  apply of_choice
  · exact of_bind (device_mirrors budget place _) fun _ => of_pure rfl
  apply of_choice
  · exact of_bind (device_mirrors budget place _) fun _ => of_pure rfl
  apply of_choice
  · exact of_bind (stateItem_mirrors budget place) fun _ => of_pure rfl
  · exact of_fail _ _

theorem identifierBehind_blind (word site : String) : (identifierBehind word site).Blind move :=
  of_optionally (of_identifier _)

theorem twin_mirrors (budget : Nat) (place : Location) :
    (twin budget place).Mirrors move (Twin.relocated move) (twin budget (move place)) := by
  refine of_bind (of_identifier _) fun name => of_bind (identifierBehind_blind _ _) fun parent =>
    of_bind (of_mark _ _) fun _ =>
    of_bind (of_repeatedUpTo (twinItem_mirrors budget) _) fun items =>
    of_bind (of_mark _ _) fun _ => of_pure ?_
  have properties :=
    filterMap_relocated TwinItem.property? (property?_relocated move) items
  have sensors := filterMap_relocated TwinItem.sensor? (sensor?_relocated move) items
  have actuators :=
    filterMap_relocated TwinItem.actuator? (actuator?_relocated move) items
  have states := filterMap_relocated TwinItem.state? (state?_relocated move) items
  rw [properties, sensors, actuators, states]
  rfl

/-! ## Members of swarms -/

/-- The member at its new place. -/
def SwarmMember.relocated (move : Location → Location) : SwarmMember → SwarmMember
  | .twin reference => .twin (reference.relocated move)
  | .rule reference => .rule (reference.relocated move)

section Members

variable (move : Location → Location) (member : SwarmMember)

theorem twin?_relocated :
    (member.relocated move).twin? = member.twin?.map (TwinReference.relocated move) := by
  cases member <;> rfl

theorem rule?_relocated :
    (member.relocated move).rule? = member.rule?.map (RuleReference.relocated move) := by
  cases member <;> rfl

end Members

theorem instanceCount_blind : instanceCount.Blind move := by
  intro tokens
  cases tokens with
  | nil => rfl
  | cons token rest =>
      rw [List.map_cons, instanceCount, instanceCount]
      refine relocatedAnswer_ite Iff.rfl ?_ rfl
      simp only [Token.relocated]
      cases Numeral.integer? token.text.toList <;> rfl

theorem bracketedCount_blind : bracketedCount.Blind move :=
  of_choice (of_bind instanceCount_blind fun _ => of_bind (of_mark _ _) fun _ => of_pure rfl)
    (of_pure rfl)

theorem twinReference_mirrors (place : Location) :
    (twinReference place).Mirrors move (TwinReference.relocated move)
      (twinReference (move place)) :=
  of_bind (of_identifier _) fun _ => of_bind (identifierBehind_blind _ _) fun _ =>
    of_bind bracketedCount_blind fun _ => of_bind (of_semicolon _) fun _ => of_pure rfl

theorem ruleReference_mirrors (place : Location) :
    (ruleReference place).Mirrors move (RuleReference.relocated move)
      (ruleReference (move place)) :=
  of_bind (of_identifier _) fun _ => of_bind (of_semicolon _) fun _ => of_pure rfl

theorem swarmMember_mirrors :
    swarmMember.Mirrors move (SwarmMember.relocated move) swarmMember := by
  refine of_here_same (fun place => rfl) fun place => ?_
  apply of_choice
  · exact of_bind (twinReference_mirrors place) fun _ => of_pure rfl
  apply of_choice
  · exact of_bind (ruleReference_mirrors place) fun _ => of_pure rfl
  · exact of_fail _ _

theorem swarm_mirrors (place : Location) :
    (swarm place).Mirrors move (Swarm.relocated move) (swarm (move place)) := by
  refine of_bind (of_identifier _) fun name => of_bind (of_mark _ _) fun _ =>
    of_bind (of_repeatedUpTo swarmMember_mirrors _) fun members =>
    of_bind (of_mark _ _) fun _ => of_pure ?_
  have twins := filterMap_relocated SwarmMember.twin? (twin?_relocated move) members
  have rules := filterMap_relocated SwarmMember.rule? (rule?_relocated move) members
  rw [twins, rules]
  rfl

/-! ## Declarations -/

theorem parameter_mirrors : parameter.Mirrors move (Parameter.relocated move) parameter := by
  refine of_here_same (fun place => rfl) fun place => ?_
  exact of_bind (of_identifier _) fun _ => of_bind (of_mark _ _) fun _ =>
    of_bind (of_identifier _) fun _ => of_pure rfl

theorem parameters_mirrors (owner : String) :
    (parameters owner).Mirrors move (List.map (Parameter.relocated move)) (parameters owner) :=
  of_choice
    (of_bind (of_separatedUpTo parameter_mirrors _) fun _ => of_bind (of_mark _ _) fun _ =>
      of_pure rfl)
    (of_pure rfl)

theorem event_mirrors (place : Location) :
    (event place).Mirrors move (Event.relocated move) (event (move place)) :=
  of_bind (of_identifier _) fun _ => of_bind (parameters_mirrors _) fun _ =>
    of_bind (of_semicolon _) fun _ => of_pure rfl

theorem action_mirrors (budget : Nat) (place : Location) :
    (action budget place).Mirrors move (Action.relocated move) (action budget (move place)) :=
  of_bind (of_identifier _) fun _ => of_bind (parameters_mirrors _) fun _ =>
    of_bind (anyBlock_mirrors budget _) fun _ => of_pure rfl

theorem rule_mirrors (budget : Nat) (place : Location) :
    (rule budget place).Mirrors move (Rule.relocated move) (rule budget (move place)) :=
  of_bind (of_identifier _) fun _ => of_bind (of_mark _ _) fun _ =>
    of_bind (of_keyword _ _) fun _ => of_bind (expression_blind budget) fun _ =>
    of_bind (of_semicolon _) fun _ => of_bind (of_keyword _ _) fun _ =>
    of_bind (anyBlock_mirrors budget _) fun _ => of_bind (of_mark _ _) fun _ => of_pure rfl

theorem imported_mirrors (place : Location) :
    (imported place).Mirrors move (Import.relocated move) (imported (move place)) :=
  of_bind (of_identifier _) fun _ => of_bind (of_optionally (of_string _)) fun _ =>
    of_bind (of_semicolon _) fun _ => of_pure rfl

/-- Reading a declaration does not look at places. -/
theorem declaration_mirrors (budget : Nat) :
    (declaration budget).Mirrors move (Declaration.relocated move) (declaration budget) := by
  refine of_here_same (fun place => rfl) fun place => ?_
  apply of_choice
  · exact of_bind (twin_mirrors budget place) fun _ => of_pure rfl
  apply of_choice
  · exact of_bind (swarm_mirrors place) fun _ => of_pure rfl
  apply of_choice
  · exact of_bind (event_mirrors place) fun _ => of_pure rfl
  apply of_choice
  · exact of_bind (action_mirrors budget place) fun _ => of_pure rfl
  apply of_choice
  · exact of_bind (rule_mirrors budget place) fun _ => of_pure rfl
  apply of_choice
  · exact of_bind (imported_mirrors place) fun _ => of_pure rfl
  · exact of_fail _ _

/-! ## Attempts -/

theorem resume_relocated (tokens : List Token) :
    (resume (tokens.map (Token.relocated move))).2 =
      (resume tokens).2.map (Token.relocated move) := by
  fun_induction resume tokens with
  | case1 => rfl
  | case2 => rfl
  | case3 passed next rest ends =>
      have ends' : (passed.relocated move).is .punctuation ";" := ends
      simp [resume, ends']
  | case4 passed next rest goesOn begins =>
      have goesOn' : ¬(passed.relocated move).is .punctuation ";" := goesOn
      have begins' : beginsDeclaration (next.relocated move) := begins
      simp [resume, goesOn', begins']
  | case5 passed next rest goesOn begins ih =>
      have goesOn' : ¬(passed.relocated move).is .punctuation ";" := goesOn
      have begins' : ¬beginsDeclaration (next.relocated move) := begins
      simpa [resume, goesOn', begins'] using ih

/-- An attempt has the same outcome wherever the tokens stand, and leaves the same tokens. -/
theorem attempt_relocated (move : Location → Location) (limit : Nat) (tokens : List Token) :
    (attempt limit (tokens.map (Token.relocated move))).1.declaration? =
        (attempt limit tokens).1.declaration?.map (Declaration.relocated move) ∧
      (attempt limit (tokens.map (Token.relocated move))).1.failure? =
        (attempt limit tokens).1.failure?.map (Failure.relocated move) ∧
      (attempt limit (tokens.map (Token.relocated move))).2 =
        (attempt limit tokens).2.map (Token.relocated move) := by
  rw [attempt, attempt, declaration_mirrors limit tokens]
  cases declaration limit tokens with
  | ok result => exact ⟨rfl, rfl, rfl⟩
  | error failure => exact ⟨rfl, rfl, resume_relocated failure.rest⟩

/-- The declarations that are read and the failures are the same wherever the tokens stand. -/
theorem attempts_relocated (move : Location → Location) (limit : Nat) (tokens : List Token) :
    (attempts limit (tokens.map (Token.relocated move))).filterMap Attempt.declaration? =
        ((attempts limit tokens).filterMap Attempt.declaration?).map
          (Declaration.relocated move) ∧
      (attempts limit (tokens.map (Token.relocated move))).filterMap Attempt.failure? =
        ((attempts limit tokens).filterMap Attempt.failure?).map (Failure.relocated move) := by
  induction size : tokens.length using Nat.strongRecOn generalizing tokens with
  | ind size ih =>
      by_cases nonempty : tokens = []
      · simp [nonempty]
      have movedNonempty : tokens.map (Token.relocated move) ≠ [] :=
        mt List.map_eq_nil_iff.mp nonempty
      have shorter : (attempt limit tokens).2.length < tokens.length := attempt_shorter nonempty
      rcases attempt_relocated move limit tokens with ⟨declared, failed, rest⟩
      rcases ih _ (size ▸ shorter) _ rfl with
        ⟨declaredLater, failedLater⟩
      rw [attempts_of_ne_nil nonempty, attempts_of_ne_nil movedNonempty, rest]
      constructor
      · rw [List.filterMap_cons, List.filterMap_cons, declared, declaredLater]
        cases (attempt limit tokens).1.declaration? <;> rfl
      · rw [List.filterMap_cons, List.filterMap_cons, failed, failedLater]
        cases (attempt limit tokens).1.failure? <;> rfl

end TwinSwarm.Grammar

/-! ## Programs -/

namespace TwinSwarm.Parsing

open Grammar

variable (move : Location → Location) (limit : Nat) (tokens : List Token)

/-- What kept declarations from being read. -/
def failures (parsing : Parsing) : List Failure :=
  parsing.attempts.filterMap Attempt.failure?

/-- The faults of the grammar are the failures as they are reported. -/
theorem diagnostics_eq_map (parsing : Parsing) (source : SourceText) (radius : Nat) :
    parsing.diagnostics source radius =
      parsing.failures.map fun failure =>
        failure.diagnostic source parsing.endLocation parsing.limit radius := rfl

theorem beforeEnd_relocated :
    beforeEnd (tokens.map (Token.relocated move)) =
      (beforeEnd tokens).map (Token.relocated move) := by
  rw [beforeEnd, List.takeWhile_map]
  rfl

/-- The program is the same wherever the tokens stand. -/
theorem program_relocated :
    (ofTokens limit (tokens.map (Token.relocated move))).program =
      (ofTokens limit tokens).program.relocated move := by
  rw [program, ofTokens, beforeEnd_relocated]
  exact congrArg Program.mk (attempts_relocated move limit (beforeEnd tokens)).1

theorem failures_relocated :
    (ofTokens limit (tokens.map (Token.relocated move))).failures =
      (ofTokens limit tokens).failures.map (Failure.relocated move) := by
  rw [failures, ofTokens, beforeEnd_relocated]
  exact (attempts_relocated move limit (beforeEnd tokens)).2

end TwinSwarm.Parsing
