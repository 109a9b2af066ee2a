import TwinSwarm.Proofs.Grammar.Location
import TwinSwarm.Proofs.Lexeme.Fidelity
import TwinSwarm.Proofs.Tree.Gap

/-!
# The gaps of programs that were read

The names of a program come from identifiers, and no identifier of a source text is blank.
So the search for gaps finds nothing in a program that was read but blank keys of object
literals and blank paths of imports, which are quoted, and rules without actions.  This does
not depend on whether some declarations could not be read.
-/

namespace TwinSwarm.Grammar

open Phrase

variable {α β : Type}

namespace Phrase

/-- The identifiers of the phrase are not blank. -/
def Named (phrase : Phrase α) : Prop :=
  ∀ token ∈ phrase.tokens, token.kind = .identifier → Text.isBlankText token.text = false

/-- A part of a phrase has no identifiers that the phrase does not have. -/
theorem Named.part {whole : Phrase α} (named : whole.Named) {part : Phrase β}
    (isPart : part.tokens ⊆ whole.tokens) : part.Named :=
  fun token isToken => named token (isPart isToken)

theorem Named.name {phrase : Phrase α} (named : phrase.Named) {name : String} (place : Location)
    (isToken : Token.ofName name place ∈ phrase.tokens) : Text.isBlankText name = false :=
  named _ isToken rfl

section Parts

variable {phrases : List (Phrase α)} {whole : Phrase (List α)} {good : α → Prop}

/-- What holds of named phrases holds of the trees that stand between commas. -/
theorem Named.forall_separated (named : whole.Named) (separated : Separated phrases whole)
    (ofEach : ∀ phrase ∈ phrases, phrase.Named → good phrase.tree) :
    ∀ tree ∈ whole.tree, good tree := by
  intro tree isTree
  rw [separated.tree_eq, List.mem_map] at isTree
  rcases isTree with ⟨phrase, isPhrase, rfl⟩
  exact ofEach phrase isPhrase (named.part (separated.tokens_subset phrase isPhrase))

theorem Named.forall_listed (named : whole.Named) (listed : Listed phrases whole)
    (ofEach : ∀ phrase ∈ phrases, phrase.Named → good phrase.tree) :
    ∀ tree ∈ whole.tree, good tree := by
  cases listed with
  | plain separated => exact named.forall_separated separated ofEach
  | trailing comma separated =>
      exact (named.part (List.subset_append_left _ _)).forall_separated separated ofEach

/-- What holds of named phrases holds of the trees of phrases one behind the other. -/
theorem Named.forall_succession (named : (succession phrases).Named)
    (ofEach : ∀ phrase ∈ phrases, phrase.Named → good phrase.tree) :
    ∀ result ∈ phrases.map tree, good result := by
  intro result isTree
  rcases List.mem_map.mp isTree with ⟨phrase, isPhrase, rfl⟩
  exact ofEach phrase isPhrase (named.part fun token isToken =>
    List.mem_flatMap_of_mem isPhrase isToken)

theorem Named.forall_optional {kind : Token.Kind} {text : String} {inside : Phrase α → Prop}
    {phrase : Phrase (Option α)} (named : phrase.Named)
    (isOptional : Optionally kind text inside phrase)
    (ofInside : ∀ part, inside part → part.Named → good part.tree) :
    ∀ present ∈ phrase.tree, good present := by
  cases isOptional with
  | absent => simp
  | present place isInside =>
      rintro present ⟨⟩
      exact ofInside _ isInside (named.part (List.subset_cons_self _ _))

end Parts

end Phrase

/-! ## Expressions and statements -/

theorem chained_lacksOnlyKeys {first : Expression} {links : List Link}
    (ofFirst : first.LacksOnlyKeys)
    (ofLinks : ∀ link ∈ links, link.operand.tree.LacksOnlyKeys) :
    (links.foldl Link.apply first).LacksOnlyKeys := by
  induction links generalizing first with
  | nil => exact ofFirst
  | cons link others ih =>
      rw [List.forall_mem_cons] at ofLinks
      exact ih (.binary link.operator ofFirst ofLinks.1) ofLinks.2

/-- The only gaps of an expression with named identifiers are blank keys of object literals. -/
theorem Derives.lacksOnlyKeys {stratum : Stratum} {phrase : Phrase Expression}
    (derives : Derives stratum phrase) (named : phrase.Named) : phrase.tree.LacksOnlyKeys := by
  induction derives with
  | @chain level first links _ _ _ ofFirst ofLinks =>
      refine chained_lacksOnlyKeys (ofFirst (named.part (List.subset_append_left _ _))) ?_
      intro link isLink
      refine ofLinks link isLink (named.part ?_)
      intro token isToken
      have isInLink : token ∈ link.tokens := List.mem_cons_of_mem _ isToken
      exact List.mem_append_right _ (List.mem_flatMap_of_mem isLink isInLink)
  | unary operator sign _ ofOperand =>
      exact .unary operator (ofOperand (named.part (List.subset_cons_self _ _)))
  | primary _ ofPrimary => exact ofPrimary named
  | literal => exact .literal _
  | reference name place => exact .reference (named.name place (by simp))
  | property owner name ownerPlace point namePlace =>
      exact .property (named.name ownerPlace (by simp))
        (named.name namePlace (by simp))
  | call name place opening closing _ separated ofEach =>
      refine .call (named.name place (by simp)) ?_
      refine (named.part ?_).forall_separated separated ofEach
      intro token isToken
      simp [isToken]
  | grouping opening closing _ ofInner =>
      refine .grouping (ofInner (named.part ?_))
      intro token isToken
      simp [isToken]
  | array opening closing _ separated ofEach =>
      refine .array ((named.part ?_).forall_separated separated ofEach)
      intro token isToken
      simp [isToken]
  -- Keys are strings and not names: nothing is known of them, and nothing is claimed.
  | object opening closing _ separated ofEach =>
      refine .object ((named.part ?_).forall_separated separated ?_)
      · intro token isToken
        simp [isToken]
      · intro entry isEntry entryNamed
        rcases List.mem_map.mp isEntry with ⟨item, isItem, rfl⟩
        refine ofEach item isItem (entryNamed.part ?_)
        intro token isToken
        simp [ObjectItem.phrase, isToken]

theorem optional_lacksOnlyKeys {kind : Token.Kind} {text : String}
    {phrase : Phrase (Option Expression)} (isOptional : Optionally kind text IsExpression phrase)
    (named : phrase.Named) : ∀ present ∈ phrase.tree, present.LacksOnlyKeys :=
  named.forall_optional isOptional fun _ isExpression partNamed =>
    isExpression.lacksOnlyKeys partNamed

theorem IsArguments.lacksOnlyKeys {phrase : Phrase (List Expression)}
    (isArguments : IsArguments phrase) (named : phrase.Named) :
    ∀ argument ∈ phrase.tree, argument.LacksOnlyKeys := by
  cases isArguments with
  | @intro opening closing arguments inside isExpression separated =>
      have insideNamed : inside.Named := by
        apply named.part
        intro token isToken
        simp [isToken]
      exact insideNamed.forall_separated separated fun argument isArgument =>
        (isExpression argument isArgument).lacksOnlyKeys

theorem braced_lacksOnlyKeys {statements : List (Phrase Statement)}
    (opening closing : Location) (named : (braced opening closing statements).Named)
    (ofEach : ∀ phrase ∈ statements, phrase.Named → phrase.tree.LacksOnlyKeys) :
    ∀ statement ∈ (braced opening closing statements).tree, statement.LacksOnlyKeys := by
  refine Named.forall_succession (named.part ?_) ofEach
  intro token isToken
  simp [braced, isToken]

/-- The only gaps of a statement with named identifiers are blank keys of object literals. -/
theorem Forms.lacksOnlyKeys {shape : Shape} {phrase : Phrase Statement}
    (forms : Forms shape phrase) (named : phrase.Named) : phrase.tree.LacksOnlyKeys := by
  induction forms with
  | withoutElse place opening closing bodyOpening bodyClosing isCondition _ ofBody =>
      refine .conditional (isCondition.lacksOnlyKeys (named.part ?_))
        (braced_lacksOnlyKeys bodyOpening bodyClosing (named.part ?_) ofBody) (by simp)
      all_goals
        intro token isToken
        simp [oneBranch, guarded, isToken]
  | withElse place opening closing bodyOpening bodyClosing keyword elseOpening elseClosing
      isCondition _ _ ofBody ofBranch =>
      refine .conditional (isCondition.lacksOnlyKeys (named.part ?_))
        (braced_lacksOnlyKeys bodyOpening bodyClosing (named.part ?_) ofBody)
        (braced_lacksOnlyKeys elseOpening elseClosing (named.part ?_) ofBranch)
      all_goals
        intro token isToken
        simp [twoBranches, guarded, isToken]
  | withElseIf place opening closing bodyOpening bodyClosing keyword isCondition _ _ ofBody
      ofChained =>
      refine .conditional (isCondition.lacksOnlyKeys (named.part ?_))
        (braced_lacksOnlyKeys bodyOpening bodyClosing (named.part ?_) ofBody)
        (List.forall_mem_singleton.mpr (ofChained (named.part ?_)))
      all_goals
        intro token isToken
        simp [twoBranches, guarded, elseIf, isToken]
  | conditional _ ofConditional => exact ofConditional named
  | loop place opening namePlace keyword closing bodyOpening bodyClosing name isIterable _ ofBody =>
      refine .loop (named.name namePlace (by simp [looping]))
        (isIterable.lacksOnlyKeys (named.part ?_))
        (braced_lacksOnlyKeys bodyOpening bodyClosing (named.part ?_) ofBody)
      all_goals
        intro token isToken
        simp [looping, isToken]
  | log place opening closing final isMessage isLevel =>
      refine .log (isMessage.lacksOnlyKeys (named.part ?_))
        (optional_lacksOnlyKeys isLevel (named.part ?_))
      all_goals
        intro token isToken
        simp [reporting, isToken]
  | alert place opening closing final isMessage isSeverity =>
      refine .alert (isMessage.lacksOnlyKeys (named.part ?_))
        (optional_lacksOnlyKeys isSeverity (named.part ?_))
      all_goals
        intro token isToken
        simp [reporting, isToken]
  | notify place opening comma closing final isTarget isMessage isData =>
      refine .notify (isTarget.lacksOnlyKeys (named.part ?_))
        (isMessage.lacksOnlyKeys (named.part ?_)) (optional_lacksOnlyKeys isData (named.part ?_))
      all_goals
        intro token isToken
        simp [isToken]
  | assignment name place sign final isValue =>
      refine .assignment (named.name place (by simp))
        (isValue.lacksOnlyKeys (named.part ?_))
      intro token isToken
      simp [isToken]
  | call name place final isArguments =>
      refine .call (named.name place (by simp))
        (isArguments.lacksOnlyKeys (named.part ?_))
      intro token isToken
      simp [isToken]

theorem IsBlock.lacksOnlyKeys {phrase : Phrase (List Statement)} (isBlock : IsBlock phrase)
    (named : phrase.Named) : ∀ statement ∈ phrase.tree, statement.LacksOnlyKeys := by
  cases isBlock with
  | intro opening closing isStatement =>
      exact braced_lacksOnlyKeys opening closing named fun phrase isPhrase =>
        (isStatement phrase isPhrase).lacksOnlyKeys

/-! ## Declarations -/

/-- A name behind a keyword is not blank, if it is there. -/
theorem optionalName_filled {kind : Token.Kind} {text : String} {phrase : Phrase (Option String)}
    (isOptional : Optionally kind text IsName phrase) (named : phrase.Named) :
    ∀ present ∈ phrase.tree, Text.isBlankText present = false := by
  refine named.forall_optional isOptional ?_
  rintro _ ⟨name, place⟩ nameNamed
  exact nameNamed.name place (List.mem_singleton_self _)

theorem IsSetting.lacksOnlyKeys {phrase : Phrase (Entry Expression)} (isSetting : IsSetting phrase)
    (named : phrase.Named) :
    Text.isBlankText phrase.tree.key = false ∧ phrase.tree.value.LacksOnlyKeys := by
  cases isSetting with
  | intro key place colon isValue =>
      refine ⟨named.name place (by simp), isValue.lacksOnlyKeys (named.part ?_)⟩
      intro token isToken
      simp [isToken]

theorem IsProperty.gaps_eq_keyGaps {place : Location} {phrase : Phrase PropertyItem}
    (isProperty : IsProperty place phrase) (named : phrase.Named) :
    phrase.tree.gaps = phrase.tree.sites.flatMap Site.keyGaps := by
  cases isProperty with
  | intro name type namePlace colon typePlace final isValue =>
      refine PropertyItem.gaps_eq_keyGaps (named.name namePlace (by simp [typed]))
        (named.name typePlace (by simp [typed]))
        (optional_lacksOnlyKeys isValue (named.part ?_))
      intro token isToken
      simp [isToken]

theorem IsDevice.gaps_eq_keyGaps {place : Location} {phrase : Phrase Device}
    (isDevice : IsDevice place phrase) (named : phrase.Named) (typeName : String) :
    phrase.tree.gaps typeName = (phrase.tree.sites typeName).flatMap Site.keyGaps := by
  cases isDevice with
  | bare name type namePlace colon typePlace final =>
      exact Device.gaps_eq_keyGaps typeName (named.name namePlace (by simp [typed]))
        (named.name typePlace (by simp [typed])) (by simp)
  | @configured name type namePlace colon typePlace opening closing settings inside isSetting
      listed =>
      have insideNamed : inside.Named := by
        apply named.part
        intro token isToken
        simp [isToken]
      exact Device.gaps_eq_keyGaps typeName (named.name namePlace (by simp [typed]))
        (named.name typePlace (by simp [typed]))
        (insideNamed.forall_listed listed fun setting isInside =>
          (isSetting setting isInside).lacksOnlyKeys)

theorem IsReference.gaps_eq_keyGaps {place : Location} {phrase : Phrase ActionReference}
    (isReference : IsReference place phrase) (named : phrase.Named) :
    phrase.tree.gaps = phrase.tree.sites.flatMap Site.keyGaps := by
  cases isReference with
  | plain name namePlace =>
      exact ActionReference.gaps_eq_keyGaps (named.name namePlace (by simp)) (by simp)
  | applied name namePlace isArguments =>
      exact ActionReference.gaps_eq_keyGaps (named.name namePlace (by simp))
        (isArguments.lacksOnlyKeys (named.part (List.subset_cons_self _ _)))

theorem IsTransition.gaps_eq_keyGaps {place : Location} {phrase : Phrase Transition}
    (isTransition : IsTransition place phrase) (named : phrase.Named) (state : String) :
    phrase.tree.gaps state = (phrase.tree.sites state).flatMap Site.keyGaps := by
  cases isTransition with
  | intro target targetPlace final isCondition =>
      refine Transition.gaps_eq_keyGaps state (named.name targetPlace (by simp))
        (optional_lacksOnlyKeys isCondition (named.part ?_))
      intro token isToken
      simp [isToken]

/-- Each part of the clause has only the gaps that blank keys leave. -/
def StateClause.LacksOnlyKeys : StateClause → Prop
  | .entry reference | .exit reference => reference.gaps = reference.sites.flatMap Site.keyGaps
  | .transition item => ∀ state, item.gaps state = (item.sites state).flatMap Site.keyGaps

theorem IsClause.lacksOnlyKeys {phrase : Phrase StateClause} (isClause : IsClause phrase)
    (named : phrase.Named) : phrase.tree.LacksOnlyKeys := by
  cases isClause with
  | entry place final isReference | exit place final isReference =>
      refine isReference.gaps_eq_keyGaps (named.part ?_)
      intro token isToken
      simp [behind, ended, isToken]
  | transition place isItem =>
      exact isItem.gaps_eq_keyGaps (named.part (List.subset_cons_self _ _))

/-- What is picked from good items is good. -/
theorem forall_picked {items : List α} {pick : α → Option β} {good : α → Prop}
    {goodPart : β → Prop} (ofEach : ∀ item ∈ items, good item)
    (ofPicked : ∀ item part, pick item = some part → good item → goodPart part) :
    ∀ part ∈ items.filterMap pick, goodPart part := by
  intro part isPart
  rcases List.mem_filterMap.mp isPart with ⟨item, isItem, picked⟩
  exact ofPicked item part picked (ofEach item isItem)

theorem enclosed_named {opening closing : Location} {items : List (Phrase α)}
    {whole : Phrase β} (named : whole.Named)
    (isPart : (enclosed opening closing items).tokens ⊆ whole.tokens) :
    (succession items).Named := by
  apply named.part
  intro token isToken
  exact isPart (by simp [enclosed, isToken])

theorem IsState.gaps_eq_keyGaps {place : Location} {phrase : Phrase StateItem}
    (isState : IsState place phrase) (named : phrase.Named) :
    phrase.tree.gaps = phrase.tree.sites.flatMap Site.keyGaps := by
  cases isState with
  | @intro name namePlace opening closing clauses isClause =>
      have clausesNamed := enclosed_named named (List.subset_cons_self _ _)
      have ofEach := clausesNamed.forall_succession fun clause isInside =>
        (isClause clause isInside).lacksOnlyKeys
      refine StateItem.gaps_eq_keyGaps (named.name namePlace (by simp)) ?_ ?_
      · rw [List.forall_mem_append]
        constructor
        all_goals
          refine forall_picked ofEach ?_
          intro clause reference picked good
          cases clause <;> cases picked
          exact good
      · refine forall_picked ofEach ?_
        intro clause item picked good
        cases clause <;> cases picked
        exact good

/-- The item has only the gaps that blank keys leave. -/
def TwinItem.LacksOnlyKeys : TwinItem → Prop
  | .property item => item.gaps = item.sites.flatMap Site.keyGaps
  | .sensor device => device.gaps "sensor_declaration" =
      (device.sites "sensor_declaration").flatMap Site.keyGaps
  | .actuator device => device.gaps "actuator_declaration" =
      (device.sites "actuator_declaration").flatMap Site.keyGaps
  | .state item => item.gaps = item.sites.flatMap Site.keyGaps

theorem IsTwinItem.lacksOnlyKeys {phrase : Phrase TwinItem} (isItem : IsTwinItem phrase)
    (named : phrase.Named) : phrase.tree.LacksOnlyKeys := by
  cases isItem with
  | property place isItem =>
      exact isItem.gaps_eq_keyGaps (named.part (List.subset_cons_self _ _))
  | sensor place isItem | actuator place isItem =>
      exact isItem.gaps_eq_keyGaps (named.part (List.subset_cons_self _ _)) _
  | state place isItem =>
      exact isItem.gaps_eq_keyGaps (named.part (List.subset_cons_self _ _))

theorem IsTwin.lacksOnlyQuoted {place : Location} {phrase : Phrase Twin}
    (isTwin : IsTwin place phrase) (named : phrase.Named) :
    (Declaration.twin phrase.tree).LacksOnlyQuoted := by
  cases isTwin with
  | @intro name namePlace opening closing parent items isParent isItem =>
      have parentNamed : parent.Named := by
        apply named.part
        intro token isToken
        simp [isToken]
      have itemsNamed : (succession items).Named := by
        apply named.part
        intro token isToken
        simp [enclosed, isToken]
      have ofEach := itemsNamed.forall_succession fun item isInside =>
        (isItem item isInside).lacksOnlyKeys
      refine .twin (named.name namePlace (by simp))
        (optionalName_filled isParent parentNamed) ?_ ?_ ?_ ?_
      all_goals
        refine forall_picked ofEach ?_
        intro item part picked good
        cases item <;> cases picked
        exact good

/-- The member of a swarm has no gaps. -/
def SwarmMember.IsFilled : SwarmMember → Prop
  | .twin reference => reference.gaps = []
  | .rule reference => Text.isBlankText reference.name = false

theorem IsMember.isFilled {phrase : Phrase SwarmMember} (isMember : IsMember phrase)
    (named : phrase.Named) : phrase.tree.IsFilled := by
  cases isMember with
  | twin place isReference =>
      cases isReference with
      | intro type typePlace final isInstance isCount =>
          refine TwinReference.gaps_eq_nil (named.name typePlace (by simp [behind]))
            (optionalName_filled isInstance (named.part ?_))
          intro token isToken
          simp [behind, isToken]
  | rule place isReference =>
      cases isReference with
      | intro name namePlace final =>
          exact named.name namePlace (by simp [behind])

theorem IsSwarm.lacksOnlyQuoted {place : Location} {phrase : Phrase Swarm}
    (isSwarm : IsSwarm place phrase) (named : phrase.Named) :
    (Declaration.swarm phrase.tree).LacksOnlyQuoted := by
  cases isSwarm with
  | @intro name namePlace opening closing members isMember =>
      have membersNamed := enclosed_named named (List.subset_cons_self _ _)
      have ofEach := membersNamed.forall_succession fun member isInside =>
        (isMember member isInside).isFilled
      refine .swarm (named.name namePlace (by simp)) ?_ ?_
      all_goals
        refine forall_picked ofEach ?_
        intro member part picked good
        cases member <;> cases picked
        exact good

theorem IsParameters.gaps_eq_nil {phrase : Phrase (List Parameter)} (isList : IsParameters phrase)
    (named : phrase.Named) : ∀ parameter ∈ phrase.tree, parameter.gaps = [] := by
  cases isList with
  | absent => simp
  | @present opening closing parameters inside isParameter separated =>
      have insideNamed : inside.Named := by
        apply named.part
        intro token isToken
        simp [isToken]
      refine insideNamed.forall_separated separated ?_
      intro parameter isInside parameterNamed
      cases isParameter parameter isInside with
      | intro name type place colon typePlace =>
          exact Parameter.gaps_eq_nil (parameterNamed.name place (by simp [typed]))
            (parameterNamed.name typePlace (by simp [typed]))

/-- What a declaration with named identifiers lacks is a key, a path or actions. -/
theorem IsDeclaration.lacksOnlyQuoted {phrase : Phrase Declaration}
    (isDeclaration : IsDeclaration phrase) (named : phrase.Named) :
    phrase.tree.LacksOnlyQuoted := by
  cases isDeclaration with
  | twin place isTwin =>
      exact isTwin.lacksOnlyQuoted (named.part (List.subset_cons_self _ _))
  | swarm place isSwarm =>
      exact isSwarm.lacksOnlyQuoted (named.part (List.subset_cons_self _ _))
  | event place isEvent =>
      cases isEvent with
      | intro name namePlace final isList =>
          refine .event (named.name namePlace (by simp [behind]))
            (isList.gaps_eq_nil (named.part ?_))
          intro token isToken
          simp [behind, isToken]
  | action place isAction =>
      cases isAction with
      | intro name namePlace isList isBlock =>
          refine .action (named.name namePlace (by simp [behind]))
            (isList.gaps_eq_nil (named.part ?_)) (isBlock.lacksOnlyKeys (named.part ?_))
          all_goals
            intro token isToken
            simp [behind, isToken]
  | rule place isRule =>
      cases isRule with
      | intro name namePlace opening whenPlace middle thenPlace closing isCondition isBlock =>
          refine .rule (named.name namePlace (by simp [behind])) rfl
            (isCondition.lacksOnlyKeys (named.part ?_)) (isBlock.lacksOnlyKeys (named.part ?_))
          all_goals
            intro token isToken
            simp [behind, isToken]
  | imported place isImport =>
      cases isImport with
      | intro name namePlace final isPath =>
          exact .imported (named.name namePlace (by simp [behind]))

end TwinSwarm.Grammar

/-! ## Programs -/

namespace TwinSwarm

/-- An identifier is cut off as a word, so it is not blank. -/
theorem Lexeme.identifier_filled {lexeme : Lexeme} {behind : List Char}
    (cuts : Pattern.Cuts lexeme.pattern lexeme.text behind) {token : Token}
    (isToken : lexeme.token? = some token) (isName : token.kind = .identifier) :
    Text.isBlankText token.text = false := by
  rcases lexeme with ⟨pattern, text, offset, location⟩
  rcases List.exists_cons_of_ne_nil cuts.ne_nil with ⟨character, rest, rfl⟩
  cases cuts with
  | unmatched => cases isToken
  | matched found =>
      rename_i pattern
      have isWord : pattern = .word := by
        cases pattern <;> cases isToken <;> first | rfl | cases isName
      have taken := Pattern.first?_eq_some found
      rw [isWord, List.cons_append, Pattern.length?, Option.ite_none_right_eq_some] at taken
      rw [Lexeme.text_of_token? isToken, Text.isBlankText, String.toList_ofList, List.all_cons,
        isBlank_of_startsWord taken.1]
      rfl

/-- No identifier of a source text is blank. -/
theorem Lexing.identifier_filled (text : List Char) (radius : Nat) :
    ∀ token ∈ (ofText text radius).tokens, token.kind = .identifier →
      Text.isBlankText token.text = false := by
  intro token isMember isName
  rcases List.mem_append.mp isMember with isInside | isLast
  · rcases List.mem_filterMap.mp isInside with ⟨lexeme, isLexeme, isToken⟩
    rcases List.append_of_mem isLexeme with ⟨before, behind, splitEq⟩
    have cuts := ((Lexeme.ofTextFrom_tiles 0 .start text).split splitEq).2.2
    exact Lexeme.identifier_filled cuts isToken isName
  · rw [List.mem_singleton.mp isLast] at isName
    cases isName

/-- What the search for gaps finds in a program that was read from a source text is exactly
this: for each rule without actions that they are missing, for each import with a blank path
that it is missing, and for each blank key of an object literal that it is missing. -/
theorem Parsing.gaps_of_read (limit : Nat) (source : String) (radius : Nat) :
    let program := (ofTokens limit (Lexing.ofText source.toList radius).tokens).program
    program.validate = program.declarations.flatMap fun declaration =>
      (declaration.sites.flatMap Site.keyGaps ++ declaration.ownGaps).map Gap.diagnostic := by
  intro program
  have ofEach : ∀ declaration ∈ program.declarations, declaration.gaps =
      declaration.sites.flatMap Site.keyGaps ++ declaration.ownGaps := by
    intro declaration isDeclared
    rcases Grammar.exists_phrase_of_read isDeclared with ⟨phrase, isDeclaration, rfl, isPart⟩
    apply isDeclaration.lacksOnlyQuoted
    intro token isToken
    have isBeforeEnd := List.takeWhile_subset _ (isPart isToken)
    exact Lexing.identifier_filled source.toList radius token isBeforeEnd
  rw [Program.validate, Program.gaps, List.flatMap_congr ofEach, List.map_flatMap]

end TwinSwarm
