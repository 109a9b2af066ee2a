import TwinSwarm.Proofs.Grammar.Program

/-!
# Operators in succession

In a program an operator is followed by an operand, which may begin with another operator,
but not with a star.  So a star never stands directly behind an operator.
-/

namespace TwinSwarm.Grammar

open Phrase

variable {α β : Type}

/-- Whether the tokens end with an operator, unless a star stands directly behind an operator.
What stands in front of the tokens is an operator or not. -/
def endsInSign? (behindSign : Bool) : List Token → Option Bool
  | [] => some behindSign
  | token :: rest =>
      if token.kind = .operator then
        if behindSign ∧ token.text = "*" then none else endsInSign? true rest
      else endsInSign? false rest

@[simp] theorem endsInSign?_nil (behindSign : Bool) :
    endsInSign? behindSign [] = some behindSign := rfl

@[simp] theorem endsInSign?_append (behindSign : Bool) (left right : List Token) :
    endsInSign? behindSign (left ++ right) =
      (endsInSign? behindSign left).bind (endsInSign? · right) := by
  induction left generalizing behindSign with
  | nil => rfl
  | cons token rest ih =>
      rw [List.cons_append, endsInSign?, endsInSign?]
      split
      · split
        · rfl
        · exact ih true
      · exact ih false

section Tokens

variable (behindSign : Bool) (text : String) (place : Location) (rest : List Token)

@[simp] theorem endsInSign?_mark :
    endsInSign? behindSign (Token.ofMark text place :: rest) = endsInSign? false rest := rfl

@[simp] theorem endsInSign?_keyword :
    endsInSign? behindSign (Token.ofKeyword text place :: rest) = endsInSign? false rest := rfl

@[simp] theorem endsInSign?_name :
    endsInSign? behindSign (Token.ofName text place :: rest) = endsInSign? false rest := rfl

@[simp] theorem endsInSign?_string :
    endsInSign? behindSign (⟨.string, text, place⟩ :: rest) = endsInSign? false rest := rfl

/-- Any operator may stand behind something else. -/
@[simp] theorem endsInSign?_sign :
    endsInSign? false (Token.ofSign text place :: rest) = endsInSign? true rest := rfl

/-- An operator other than a star may stand behind anything. -/
theorem endsInSign?_otherSign (notStar : text ≠ "*") :
    endsInSign? behindSign (Token.ofSign text place :: rest) = endsInSign? true rest := by
  have notBoth : ¬(behindSign ∧ text = "*") := fun isBoth => notStar isBoth.2
  exact if_neg notBoth

end Tokens

namespace Phrase

/-- The phrase may stand behind anything, and it does not end with an operator. -/
@[simp] abbrev Shut (phrase : Phrase α) : Prop :=
  ∀ behindSign, endsInSign? behindSign phrase.tokens = some false

/-- The phrase may stand behind what is not an operator, and does not end with one. -/
@[simp] abbrev Calm (phrase : Phrase α) : Prop :=
  endsInSign? false phrase.tokens = some false

theorem Separated.calm {phrases : List (Phrase α)} {inside : Phrase (List α)}
    (separated : Separated phrases inside) (calm : ∀ phrase ∈ phrases, phrase.Calm) :
    inside.Calm := by
  induction separated with
  | none => rfl
  | one only => exact calm only List.mem_cons_self
  | more comma _ ih =>
      rw [List.forall_mem_cons] at calm
      simp [calm.1, ih calm.2]

theorem Listed.calm {phrases : List (Phrase α)} {inside : Phrase (List α)}
    (listed : Listed phrases inside) (calm : ∀ phrase ∈ phrases, phrase.Calm) : inside.Calm := by
  cases listed with
  | plain separated => exact separated.calm calm
  | trailing comma separated => simp [separated.calm calm]

theorem succession_calm {phrases : List (Phrase α)} (calm : ∀ phrase ∈ phrases, phrase.Calm) :
    (succession phrases).Calm := by
  induction phrases with
  | nil => rfl
  | cons first others ih =>
      rw [List.forall_mem_cons] at calm
      have behind := ih calm.2
      simp only [succession] at behind ⊢
      simp [calm.1, behind]

theorem Optionally.calm {kind : Token.Kind} {text : String} {inside : Phrase α → Prop}
    {phrase : Phrase (Option α)} (isOptional : Optionally kind text inside phrase)
    (shut : ∀ part, inside part → part.Shut) : phrase.Calm := by
  cases isOptional with
  | absent => rfl
  | present place isInside =>
      have part := shut _ isInside
      simp [endsInSign?, part true, part false]

end Phrase

/-! ## Expressions -/

theorem links_calm {links : List Link} (shut : ∀ link ∈ links, link.operand.Shut) :
    endsInSign? false (links.flatMap Link.tokens) = some false := by
  induction links with
  | nil => rfl
  | cons link others ih =>
      rw [List.forall_mem_cons] at shut
      simp [Link.tokens, shut.1 true, ih shut.2]

/-- An expression neither begins with a star nor ends with an operator. -/
theorem Derives.shut {stratum : Stratum} {phrase : Phrase Expression}
    (derives : Derives stratum phrase) : phrase.Shut := by
  intro behindSign
  induction derives generalizing behindSign with
  | chain _ _ _ ofFirst ofLinks => simp [chained, ofFirst behindSign, links_calm ofLinks]
  | unary operator sign _ ofOperand =>
      have notStar : operator.symbol ≠ "*" := by cases operator <;> decide
      rw [endsInSign?_otherSign _ _ _ _ notStar]
      exact ofOperand true
  | primary _ ofPrimary => exact ofPrimary behindSign
  | literal denotes => cases denotes <;> rfl
  | reference | property => rfl
  | call name place opening closing _ separated ofEach =>
      simp [separated.calm fun argument isArgument => ofEach argument isArgument false]
  | grouping opening closing _ ofInner => simp [ofInner]
  | array opening closing _ separated ofEach =>
      simp [separated.calm fun element isElement => ofEach element isElement false]
  | @object opening closing items _ _ separated ofEach =>
      have entries : ∀ phrase ∈ items.map ObjectItem.phrase, phrase.Calm := by
        intro phrase isEntry
        rcases List.mem_map.mp isEntry with ⟨item, isItem, rfl⟩
        simp [ObjectItem.phrase, ofEach item isItem]
      simp [separated.calm entries]

theorem Phrase.Optionally.calm_of_expression {kind : Token.Kind} {text : String}
    {phrase : Phrase (Option Expression)} (isOptional : Optionally kind text IsExpression phrase) :
    phrase.Calm :=
  isOptional.calm fun _ isExpression => Derives.shut isExpression

/-! ## Statements -/

theorem IsArguments.shut {phrase : Phrase (List Expression)}
    (isArguments : IsArguments phrase) : phrase.Shut := by
  intro behindSign
  cases isArguments with
  | intro opening closing areExpressions separated =>
      simp [separated.calm fun argument isArgument =>
        (areExpressions argument isArgument).shut false]

theorem braced_calm (opening closing : Location) {phrases : List (Phrase α)}
    (calm : ∀ phrase ∈ phrases, phrase.Calm) : (braced opening closing phrases).Calm := by
  simp [braced, succession_calm calm]

theorem guarded_calm (place opening closing : Location) {condition : Phrase Expression}
    {body : Phrase (List Statement)} (isCondition : IsExpression condition) (calm : body.Calm) :
    (guarded place opening closing condition body).Calm := by
  simp [guarded, isCondition.shut false, calm]

theorem reporting_calm (word : String) (place opening closing final : Location)
    (make : Expression → Option Expression → Statement) {message : Phrase Expression}
    {extra : Phrase (Option Expression)} (isMessage : IsExpression message)
    (isExtra : Optionally .punctuation "," IsExpression extra) :
    (reporting word place opening closing final make message extra).Calm := by
  simp [reporting, isMessage.shut false, isExtra.calm_of_expression]

theorem Forms.calm {shape : Shape} {phrase : Phrase Statement} (forms : Forms shape phrase) :
    phrase.Calm := by
  induction forms with
  | withoutElse place opening closing bodyOpening bodyClosing isCondition _ ofBody =>
      exact guarded_calm place opening closing isCondition (braced_calm _ _ ofBody)
  | withElse place opening closing bodyOpening bodyClosing keyword elseOpening elseClosing
      isCondition _ _ ofBody ofBranch =>
      have head := guarded_calm place opening closing isCondition
        (braced_calm bodyOpening bodyClosing ofBody)
      have branch := braced_calm elseOpening elseClosing ofBranch
      simp [twoBranches, head, branch]
  | withElseIf place opening closing bodyOpening bodyClosing keyword isCondition _ _ ofBody
      ofChained =>
      have head := guarded_calm place opening closing isCondition
        (braced_calm bodyOpening bodyClosing ofBody)
      simp [twoBranches, elseIf, head, ofChained]
  | conditional _ ofConditional => exact ofConditional
  | loop place opening namePlace keyword closing bodyOpening bodyClosing name isIterable _ ofBody =>
      have body := braced_calm bodyOpening bodyClosing ofBody
      simp [looping, isIterable.shut false, body]
  | log place opening closing final isMessage isLevel =>
      exact reporting_calm "log" place opening closing final _ isMessage isLevel
  | alert place opening closing final isMessage isSeverity =>
      exact reporting_calm "alert" place opening closing final _ isMessage isSeverity
  | notify place opening comma closing final isTarget isMessage isData =>
      simp [isTarget.shut false, isMessage.shut false, isData.calm_of_expression]
  | assignment name place sign final isValue => simp [isValue.shut true]
  | call name place final areArguments => simp [areArguments.shut false]

theorem IsBlock.calm {phrase : Phrase (List Statement)} (isBlock : IsBlock phrase) :
    phrase.Calm := by
  cases isBlock with
  | intro opening closing areStatements =>
      exact braced_calm opening closing fun statement isStatement =>
        (areStatements statement isStatement).calm

/-! ## Declarations -/

section Declarations

variable {place : Location}

theorem behind_calm (word : String) (place : Location) (make : α → β) {phrase : Phrase α}
    (calm : phrase.Calm) : (behind word place make phrase).Calm := by
  simp [behind, calm]

theorem enclosed_calm (opening closing : Location) {items : List (Phrase α)}
    (calm : ∀ item ∈ items, item.Calm) : (enclosed opening closing items).Calm := by
  simp [enclosed, succession_calm calm]

theorem IsName.shut {phrase : Phrase String} (isName : IsName phrase) : phrase.Shut := by
  cases isName
  exact fun _ => rfl

theorem IsString.shut {phrase : Phrase String} (isString : IsString phrase) : phrase.Shut := by
  cases isString
  exact fun _ => rfl

theorem IsCount.shut {phrase : Phrase Int64} (isCount : IsCount phrase) : phrase.Shut := by
  cases isCount
  exact fun _ => rfl

theorem IsProperty.calm {phrase : Phrase PropertyItem} (isProperty : IsProperty place phrase) :
    phrase.Calm := by
  cases isProperty with
  | intro _ _ _ _ _ _ isValue => simp [typed, isValue.calm_of_expression]

theorem IsSetting.calm {phrase : Phrase (Entry Expression)} (isSetting : IsSetting phrase) :
    phrase.Calm := by
  cases isSetting with
  | intro _ _ _ isValue => simp [isValue.shut false]

theorem IsDevice.calm {phrase : Phrase Device} (isDevice : IsDevice place phrase) :
    phrase.Calm := by
  cases isDevice with
  | bare => rfl
  | configured _ _ _ _ _ _ _ areSettings listed =>
      simp [typed, listed.calm fun setting isSetting => (areSettings setting isSetting).calm]

theorem IsReference.calm {phrase : Phrase ActionReference}
    (isReference : IsReference place phrase) : phrase.Calm := by
  cases isReference with
  | plain => rfl
  | applied _ _ areArguments => simp [areArguments.shut false]

theorem IsTransition.calm {phrase : Phrase Transition} (isTransition : IsTransition place phrase) :
    phrase.Calm := by
  cases isTransition with
  | intro _ _ _ isCondition => simp [isCondition.calm_of_expression]

theorem ended_calm (final : Location) {phrase : Phrase α} (calm : phrase.Calm) :
    (ended final phrase).Calm := by
  simp [ended, calm]

theorem IsClause.calm {phrase : Phrase StateClause} (isClause : IsClause phrase) :
    phrase.Calm := by
  cases isClause with
  | entry _ _ isReference => exact behind_calm _ _ _ (ended_calm _ isReference.calm)
  | exit _ _ isReference => exact behind_calm _ _ _ (ended_calm _ isReference.calm)
  | transition _ isTransition => exact behind_calm _ _ _ isTransition.calm

theorem IsState.calm {phrase : Phrase StateItem} (isState : IsState place phrase) :
    phrase.Calm := by
  cases isState with
  | intro _ _ opening closing areClauses =>
      exact enclosed_calm opening closing fun clause isClause => (areClauses clause isClause).calm

theorem IsTwinItem.calm {phrase : Phrase TwinItem} (isItem : IsTwinItem phrase) :
    phrase.Calm := by
  cases isItem with
  | property _ isProperty => exact behind_calm _ _ _ isProperty.calm
  | sensor _ isDevice => exact behind_calm _ _ _ isDevice.calm
  | actuator _ isDevice => exact behind_calm _ _ _ isDevice.calm
  | state _ isState => exact behind_calm _ _ _ isState.calm

theorem IsTwin.calm {phrase : Phrase Twin} (isTwin : IsTwin place phrase) : phrase.Calm := by
  cases isTwin with
  | intro _ _ opening closing isParent areItems =>
      have items := enclosed_calm opening closing fun item isItem => (areItems item isItem).calm
      simp [isParent.calm fun _ => IsName.shut, items]

theorem IsTwinReference.calm {phrase : Phrase TwinReference}
    (isReference : IsTwinReference place phrase) : phrase.Calm := by
  cases isReference with
  | intro _ _ _ isInstance isCount =>
      simp [isInstance.calm fun _ => IsName.shut,
        isCount.calm fun _ => IsCount.shut]

theorem IsMember.calm {phrase : Phrase SwarmMember} (isMember : IsMember phrase) :
    phrase.Calm := by
  cases isMember with
  | twin _ isReference => exact behind_calm _ _ _ isReference.calm
  | rule _ isReference =>
      cases isReference
      rfl

theorem IsSwarm.calm {phrase : Phrase Swarm} (isSwarm : IsSwarm place phrase) :
    phrase.Calm := by
  cases isSwarm with
  | intro _ _ opening closing areMembers =>
      exact enclosed_calm opening closing fun member isMember => (areMembers member isMember).calm

theorem IsParameters.calm {phrase : Phrase (List Parameter)}
    (areParameters : IsParameters phrase) : phrase.Calm := by
  cases areParameters with
  | absent => rfl
  | @present opening closing parameters _ areParameters separated =>
      have calm : ∀ parameter ∈ parameters, parameter.Calm := by
        intro parameter isParameter
        cases areParameters parameter isParameter
        rfl
      simp [separated.calm calm]

theorem IsEvent.calm {phrase : Phrase Event} (isEvent : IsEvent place phrase) :
    phrase.Calm := by
  cases isEvent with
  | intro _ _ _ areParameters => simp [areParameters.calm]

theorem IsAction.calm {phrase : Phrase Action} (isAction : IsAction place phrase) :
    phrase.Calm := by
  cases isAction with
  | intro _ _ areParameters isBlock => simp [areParameters.calm, isBlock.calm]

theorem IsRule.calm {phrase : Phrase Rule} (isRule : IsRule place phrase) : phrase.Calm := by
  cases isRule with
  | intro _ _ _ _ _ _ _ isCondition isBlock => simp [isCondition.shut false, isBlock.calm]

theorem IsImport.calm {phrase : Phrase Import} (isImport : IsImport place phrase) :
    phrase.Calm := by
  cases isImport with
  | intro _ _ _ isPath => simp [isPath.calm fun _ => IsString.shut]

theorem IsDeclaration.calm {phrase : Phrase Declaration} (isDeclaration : IsDeclaration phrase) :
    phrase.Calm := by
  cases isDeclaration with
  | twin _ isTwin => exact behind_calm _ _ _ isTwin.calm
  | swarm _ isSwarm => exact behind_calm _ _ _ isSwarm.calm
  | event _ isEvent => exact behind_calm _ _ _ isEvent.calm
  | action _ isAction => exact behind_calm _ _ _ isAction.calm
  | rule _ isRule => exact behind_calm _ _ _ isRule.calm
  | imported _ isImport => exact behind_calm _ _ _ isImport.calm

end Declarations

/-! ## Programs -/

/-- Where a star stands directly behind an operator, the tokens are given up. -/
theorem endsInSign?_star (behindSign : Bool) (text : String) (sign star : Location)
    (rest : List Token) :
    endsInSign? behindSign (Token.ofSign text sign :: Token.ofSign "*" star :: rest) = none := by
  by_cases given : behindSign ∧ text = "*"
  · simp [endsInSign?, given]
  · simp [endsInSign?]

/-- In a program no star stands directly behind an operator. -/
theorem IsProgram.no_star_behind_sign {phrase : Phrase Program} (isProgram : IsProgram phrase)
    (text : String) (sign star : Location) :
    ¬[Token.ofSign text sign, Token.ofSign "*" star] <:+: phrase.tokens := by
  rintro ⟨before, behind, tokensEq⟩
  cases isProgram with
  | intro areDeclarations =>
      have calm := succession_calm fun declaration isDeclaration =>
        (areDeclarations declaration isDeclaration).calm
      rw [Calm, ← tokensEq, List.append_assoc, endsInSign?_append, Option.bind_eq_some_iff]
        at calm
      rcases calm with ⟨behindSign, _, given⟩
      rw [List.cons_append, List.cons_append, endsInSign?_star] at given
      cases given

end TwinSwarm.Grammar
