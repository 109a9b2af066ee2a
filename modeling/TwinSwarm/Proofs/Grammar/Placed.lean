import Mathlib.Data.List.Perm.Basic
import Mathlib.Data.List.Perm.Subperm
import TwinSwarm.Proofs.Grammar.Attempts
import TwinSwarm.Proofs.Lexeme
import TwinSwarm.Proofs.Tree.Placed

/-!
# Where the nodes of a program begin

Each node of a program that has a place is spelled by tokens in a row, and its place is that
of the first of them.  No two nodes begin with the same token, although the items of a twin, the
clauses of a state and the members of a swarm are sorted into several lists.
-/

namespace TwinSwarm

open Grammar Phrase

variable {α β : Type}

/-! ## Nodes and the tokens that spell them -/

/-- The tokens are those of a phrase of a kind, which stands for the tree. -/
def Grammar.SpellsTree (kind : Phrase α → Prop) (tree : α) (tokens : List Token) : Prop :=
  ∃ phrase, kind phrase ∧ phrase.tree = tree ∧ phrase.tokens = tokens

/-- The tokens spell the node.  The keyword of an item, a clause or a member is the first of its
tokens. -/
def Placed.SpelledBy : Placed → List Token → Prop
  | declaration declared => SpellsTree IsDeclaration declared
  | property item => SpellsTree IsTwinItem (.property item)
  | sensor device => SpellsTree IsTwinItem (.sensor device)
  | actuator device => SpellsTree IsTwinItem (.actuator device)
  | state item => SpellsTree IsTwinItem (.state item)
  | entry called => SpellsTree IsClause (.entry called)
  | exit called => SpellsTree IsClause (.exit called)
  | transition item => SpellsTree IsClause (.transition item)
  | twin member => SpellsTree IsMember (.twin member)
  | rule member => SpellsTree IsMember (.rule member)
  | parameter item => SpellsTree IsParameter item
  | statement tree => SpellsTree IsStatement tree

namespace Grammar

/-- Tokens hold nodes if each of the nodes is spelled by some of the tokens in a row, the first of
which is its first token, and the first tokens of all nodes are different ones of the tokens. -/
structure Carries (tokens : List Token) (nodes : List Placed) : Prop where
  spelled : ∀ node ∈ nodes, ∃ others,
    node.first :: others <:+: tokens ∧ node.SpelledBy (node.first :: others)
  distinct : (nodes.map Placed.first).Subperm tokens

namespace Carries

variable {tokens whole left right : List Token} {nodes others : List Placed}

theorem nil (tokens : List Token) : Carries tokens [] :=
  ⟨List.forall_mem_nil _, List.nil_subperm⟩

/-- A longer list of tokens holds what a part of it holds. -/
theorem mono (carries : Carries tokens nodes) (isPart : tokens <:+: whole) :
    Carries whole nodes where
  spelled := by
    intro node isNode
    rcases carries.spelled node isNode with ⟨rest, isInside, spells⟩
    exact ⟨rest, isInside.trans isPart, spells⟩
  distinct := carries.distinct.trans isPart.sublist.subperm

theorem perm (carries : Carries tokens nodes) (isPerm : others.Perm nodes) :
    Carries tokens others where
  spelled := fun node isNode => carries.spelled node (isPerm.subset isNode)
  distinct := (isPerm.map Placed.first).subperm_right.mpr carries.distinct

theorem append (ofLeft : Carries left nodes) (ofRight : Carries right others) :
    Carries (left ++ right) (nodes ++ others) where
  spelled := by
    have inLeft := (ofLeft.mono (List.prefix_append left right).isInfix).spelled
    have inRight := (ofRight.mono (List.suffix_append left right).isInfix).spelled
    exact List.forall_mem_append.mpr ⟨inLeft, inRight⟩
  distinct := by
    rw [List.map_append]
    exact ofLeft.distinct.append ofRight.distinct

/-- A node that all the tokens spell comes before the nodes behind its first token. -/
theorem cons (node : Placed) (begins : whole = node.first :: tokens)
    (spells : node.SpelledBy whole) (carries : Carries tokens nodes) :
    Carries whole (node :: nodes) where
  spelled := by
    subst begins
    have inside := (carries.mono (List.suffix_cons node.first tokens).isInfix).spelled
    exact List.forall_mem_cons.mpr ⟨⟨tokens, List.infix_refl _, spells⟩, inside⟩
  distinct := by
    subst begins
    exact (List.subperm_cons node.first).mpr carries.distinct

theorem singleton (node : Placed) (begins : whole = node.first :: tokens)
    (spells : node.SpelledBy whole) : Carries whole [node] :=
  cons node begins spells (nil tokens)

end Carries

/-! ## Lists of phrases -/

section Lists

variable {phrases : List (Phrase α)} {nodesOf : α → List Placed}

/-- Phrases one behind the other hold what each of them holds. -/
theorem succession_carries
    (carries : ∀ phrase ∈ phrases, Carries phrase.tokens (nodesOf phrase.tree)) :
    Carries (succession phrases).tokens ((succession phrases).tree.flatMap nodesOf) := by
  induction phrases with
  | nil => exact .nil _
  | cons first rest fromRest =>
      have ofFirst := carries first List.mem_cons_self
      have ofRest := fromRest fun phrase isMember =>
        carries phrase (List.mem_cons_of_mem _ isMember)
      simpa [succession] using ofFirst.append ofRest

/-- Phrases with commas between them hold what each of them holds. -/
theorem separated_carries {inside : Phrase (List α)} (separated : Separated phrases inside)
    (carries : ∀ phrase ∈ phrases, Carries phrase.tokens (nodesOf phrase.tree)) :
    Carries inside.tokens (inside.tree.flatMap nodesOf) := by
  induction separated with
  | none => exact .nil _
  | one only => simpa using carries only List.mem_cons_self
  | @more first second others inside comma _ fromRest =>
      have ofFirst := carries first List.mem_cons_self
      have ofRest := fromRest fun phrase isMember =>
        carries phrase (List.mem_cons_of_mem _ isMember)
      rw [List.flatMap_cons]
      exact ofFirst.append (ofRest.mono (List.suffix_cons _ _).isInfix)

/-- Items in braces, with whatever comes before the brace. -/
theorem enclosed_carries
    (carries : ∀ phrase ∈ phrases, Carries phrase.tokens (nodesOf phrase.tree))
    (before : List Token) (opening closing : Location) :
    Carries (before ++ (enclosed opening closing phrases).tokens)
      ((phrases.map tree).flatMap nodesOf) := by
  apply (succession_carries carries).mono
  exact ⟨before ++ [Token.ofMark "\x7b" opening], [Token.ofMark "\x7d" closing], by simp [enclosed]⟩

end Lists

/-! ## Statements -/

theorem braced_carries {statements : List (Phrase Statement)}
    (carries : ∀ phrase ∈ statements, Carries phrase.tokens phrase.tree.placed)
    (opening closing : Location) :
    Carries (braced opening closing statements).tokens
      (Statement.placedOfAll (braced opening closing statements).tree) := by
  rw [Statement.placedOfAll_eq_flatMap]
  apply (succession_carries carries).mono
  exact ⟨[Token.ofMark "\x7b" opening], [Token.ofMark "\x7d" closing], by simp [braced]⟩

/-- The block of a conditional stands behind its condition. -/
theorem Carries.behind_condition {body : List Token} {nodes : List Placed}
    (carries : Carries body nodes) (opening closing : Location) (condition : Phrase Expression) :
    Carries (Token.ofMark "(" opening ::
      (condition.tokens ++ Token.ofMark ")" closing :: body)) nodes :=
  carries.mono ⟨Token.ofMark "(" opening :: (condition.tokens ++ [Token.ofMark ")" closing]), [],
    by simp⟩

/-- The block of a loop stands behind what it runs over. -/
theorem Carries.behind_range {body : List Token} {nodes : List Placed}
    (carries : Carries body nodes) (opening namePlace keyword closing : Location) (name : String)
    (iterable : Phrase Expression) :
    Carries (Token.ofMark "(" opening :: Token.ofName name namePlace ::
      Token.ofKeyword "in" keyword ::
        (iterable.tokens ++ Token.ofMark ")" closing :: body)) nodes :=
  carries.mono ⟨Token.ofMark "(" opening :: Token.ofName name namePlace ::
    Token.ofKeyword "in" keyword :: (iterable.tokens ++ [Token.ofMark ")" closing]), [], by simp⟩

/-- The tokens of a statement hold the statement and those inside. -/
theorem Forms.carries {shape : Shape} {phrase : Phrase Statement} (forms : Forms shape phrase) :
    Carries phrase.tokens phrase.tree.placed := by
  induction forms with
  | @withoutElse place opening closing bodyOpening bodyClosing condition body isCondition isBody
      ofBody =>
      have isWhole : IsStatement _ := .conditional
        (.withoutElse place opening closing bodyOpening bodyClosing isCondition isBody)
      have inBody := braced_carries ofBody bodyOpening bodyClosing
      simp only [oneBranch, guarded, Statement.placed, Statement.placedOfBranch, List.append_nil]
      refine .cons _ rfl ⟨_, isWhole, rfl, rfl⟩ ?_
      exact inBody.behind_condition opening closing condition
  | @withElse place opening closing bodyOpening bodyClosing keyword elseOpening elseClosing
      condition body branch isCondition isBody isBranch ofBody ofBranch =>
      have isWhole : IsStatement _ := .conditional
        (.withElse place opening closing bodyOpening bodyClosing keyword elseOpening elseClosing
          isCondition isBody isBranch)
      have inBody := braced_carries ofBody bodyOpening bodyClosing
      have inBranch := braced_carries ofBranch elseOpening elseClosing
      simp only [twoBranches, guarded, Statement.placed, Statement.placedOfBranch]
      refine .cons _ rfl ⟨_, isWhole, rfl, rfl⟩ ?_
      exact (inBody.behind_condition opening closing condition).append
        (inBranch.mono (List.suffix_cons _ _).isInfix)
  | @withElseIf place opening closing bodyOpening bodyClosing keyword condition body chained
      isCondition isBody isChained ofBody ofChained =>
      have isWhole : IsStatement _ := .conditional
        (.withElseIf place opening closing bodyOpening bodyClosing keyword isCondition isBody
          isChained)
      have inBody := braced_carries ofBody bodyOpening bodyClosing
      simp only [twoBranches, guarded, elseIf, Statement.placed, Statement.placedOfBranch,
        Statement.placedOfAll, List.append_nil]
      refine .cons _ rfl ⟨_, isWhole, rfl, rfl⟩ ?_
      exact (inBody.behind_condition opening closing condition).append
        (ofChained.mono (List.suffix_cons _ _).isInfix)
  | conditional _ ofConditional => exact ofConditional
  | @loop place opening namePlace keyword closing bodyOpening bodyClosing name iterable body
      isIterable isBody ofBody =>
      have isWhole : IsStatement _ := .loop place opening namePlace keyword closing bodyOpening
        bodyClosing name isIterable isBody
      have inBody := braced_carries ofBody bodyOpening bodyClosing
      simp only [looping, Statement.placed]
      refine .cons _ rfl ⟨_, isWhole, rfl, rfl⟩ ?_
      exact inBody.behind_range opening namePlace keyword closing name iterable
  | log place opening closing final isMessage isLevel =>
      exact .singleton _ rfl ⟨_, .log place opening closing final isMessage isLevel, rfl, rfl⟩
  | alert place opening closing final isMessage isSeverity =>
      exact .singleton _ rfl
        ⟨_, .alert place opening closing final isMessage isSeverity, rfl, rfl⟩
  | notify place opening comma closing final isTarget isMessage isData =>
      exact .singleton _ rfl
        ⟨_, .notify place opening comma closing final isTarget isMessage isData, rfl, rfl⟩
  | assignment name place sign final isValue =>
      exact .singleton _ rfl ⟨_, .assignment name place sign final isValue, rfl, rfl⟩
  | call name place final isArguments =>
      exact .singleton _ rfl ⟨_, .call name place final isArguments, rfl, rfl⟩

theorem IsBlock.carries {phrase : Phrase (List Statement)} (isBlock : IsBlock phrase) :
    Carries phrase.tokens (Statement.placedOfAll phrase.tree) := by
  cases isBlock with
  | intro opening closing isStatement =>
      exact braced_carries (fun phrase isMember => (isStatement phrase isMember).carries) opening
        closing

/-! ## Items, clauses and members -/

/-- The nodes of a clause. -/
def StateClause.placed : StateClause → List Placed
  | .entry called => [.entry called]
  | .exit called => [.exit called]
  | .transition item => [.transition item]

/-- The nodes of an item of a twin. -/
def TwinItem.placed : TwinItem → List Placed
  | .property item => [.property item]
  | .sensor device => [.sensor device]
  | .actuator device => [.actuator device]
  | .state item => item.placed

/-- The nodes of a member of a swarm. -/
def SwarmMember.placed : SwarmMember → List Placed
  | .twin member => [.twin member]
  | .rule member => [.rule member]

section Sorted

/-- What is picked from items consists of what each of them gives. -/
theorem map_picked (items : List α) (pick : α → Option β) (node : β → Placed) :
    (items.filterMap pick).map node =
      items.flatMap fun item => ((pick item).map node).toList := by
  rw [List.map_filterMap, List.filterMap_eq_flatMap_toList]

theorem flatMap_picked (items : List α) (pick : α → Option β) (nodesOf : β → List Placed) :
    (items.filterMap pick).flatMap nodesOf =
      items.flatMap fun item => (pick item).toList.flatMap nodesOf := by
  rw [List.filterMap_eq_flatMap_toList, List.flatMap_assoc]

/-- Sorting the clauses of a state neither adds nor drops a node. -/
theorem clauses_perm (clauses : List StateClause) :
    ((clauses.filterMap StateClause.entry?).map Placed.entry ++
      (clauses.filterMap StateClause.exit?).map Placed.exit ++
        (clauses.filterMap StateClause.transition?).map Placed.transition).Perm
      (clauses.flatMap StateClause.placed) := by
  simp only [map_picked]
  refine (((List.flatMap_append_perm _ _ _).append_right _).trans
    (List.flatMap_append_perm _ _ _)).trans (.of_eq ?_)
  apply List.flatMap_congr
  rintro (_ | _ | _) _ <;> rfl

/-- Sorting the items of a twin neither adds nor drops a node. -/
theorem items_perm (items : List TwinItem) :
    ((items.filterMap TwinItem.property?).map Placed.property ++
      (items.filterMap TwinItem.sensor?).map Placed.sensor ++
        (items.filterMap TwinItem.actuator?).map Placed.actuator ++
          (items.filterMap TwinItem.state?).flatMap StateItem.placed).Perm
      (items.flatMap TwinItem.placed) := by
  simp only [map_picked, flatMap_picked]
  refine ((((List.flatMap_append_perm _ _ _).append_right _).trans
    (List.flatMap_append_perm _ _ _)).append_right _).trans
      ((List.flatMap_append_perm _ _ _).trans (.of_eq ?_))
  apply List.flatMap_congr
  rintro (_ | _ | _ | _) _ <;> simp [TwinItem.placed, TwinItem.property?, TwinItem.sensor?,
    TwinItem.actuator?, TwinItem.state?]

/-- Sorting the members of a swarm neither adds nor drops a node. -/
theorem members_perm (members : List SwarmMember) :
    ((members.filterMap SwarmMember.twin?).map Placed.twin ++
      (members.filterMap SwarmMember.rule?).map Placed.rule).Perm
      (members.flatMap SwarmMember.placed) := by
  simp only [map_picked]
  refine (List.flatMap_append_perm _ _ _).trans (.of_eq ?_)
  apply List.flatMap_congr
  rintro (_ | _) _ <;> rfl

end Sorted

theorem IsClause.carries {phrase : Phrase StateClause} (isClause : IsClause phrase) :
    Carries phrase.tokens phrase.tree.placed := by
  cases isClause with
  | entry place final isReference =>
      have isWhole := IsClause.entry place final isReference
      cases isReference with
      | plain | applied => exact .singleton _ rfl ⟨_, isWhole, rfl, rfl⟩
  | exit place final isReference =>
      have isWhole := IsClause.exit place final isReference
      cases isReference with
      | plain | applied => exact .singleton _ rfl ⟨_, isWhole, rfl, rfl⟩
  | transition place isItem =>
      have isWhole := IsClause.transition place isItem
      cases isItem
      exact .singleton _ rfl ⟨_, isWhole, rfl, rfl⟩

theorem IsTwinItem.carries {phrase : Phrase TwinItem} (isItem : IsTwinItem phrase) :
    Carries phrase.tokens phrase.tree.placed := by
  have isWhole := isItem
  cases isItem with
  | property place isItem =>
      cases isItem
      exact .singleton _ rfl ⟨_, isWhole, rfl, rfl⟩
  | sensor place isItem | actuator place isItem =>
      cases isItem with
      | bare | configured => exact .singleton _ rfl ⟨_, isWhole, rfl, rfl⟩
  | state place isItem =>
      cases isItem with
      | @intro name namePlace opening closing clauses isClause =>
          refine .cons _ rfl ⟨_, isWhole, rfl, rfl⟩ (.perm ?_ (clauses_perm _))
          exact enclosed_carries (fun clause isMember => (isClause clause isMember).carries)
            [Token.ofName name namePlace] opening closing

theorem IsMember.carries {phrase : Phrase SwarmMember} (isMember : IsMember phrase) :
    Carries phrase.tokens phrase.tree.placed := by
  have isWhole := isMember
  cases isMember with
  | twin place isReference | rule place isReference =>
      cases isReference
      exact .singleton _ rfl ⟨_, isWhole, rfl, rfl⟩

theorem IsParameter.carries {phrase : Phrase Parameter} (isParameter : IsParameter phrase) :
    Carries phrase.tokens [.parameter phrase.tree] := by
  have isWhole := isParameter
  cases isParameter
  exact .singleton _ rfl ⟨_, isWhole, rfl, rfl⟩

theorem IsParameters.carries {phrase : Phrase (List Parameter)} (isList : IsParameters phrase) :
    Carries phrase.tokens (phrase.tree.map .parameter) := by
  cases isList with
  | absent => exact .nil _
  | @present opening closing parameters inside isParameter separated =>
      rw [List.map_eq_flatMap]
      apply (separated_carries separated fun parameter isMember =>
        (isParameter parameter isMember).carries).mono
      exact ⟨[Token.ofMark "(" opening], [Token.ofMark ")" closing], by simp⟩

/-! ## Declarations -/

/-- The tokens of a declaration hold the declaration and its parts. -/
theorem IsDeclaration.carries {phrase : Phrase Declaration} (isDeclaration : IsDeclaration phrase) :
    Carries phrase.tokens phrase.tree.placed := by
  have isWhole := isDeclaration
  cases isDeclaration with
  | twin place isTwin =>
      cases isTwin with
      | @intro name namePlace opening closing parent items _ isItem =>
          -- The tree holds the items sorted by kind, the tokens hold them as they were written.
          refine .cons _ rfl ⟨_, isWhole, rfl, rfl⟩ (.perm ?_ (items_perm _))
          exact enclosed_carries (fun item isMember => (isItem item isMember).carries)
            (Token.ofName name namePlace :: parent.tokens) opening closing
  | swarm place isSwarm =>
      cases isSwarm with
      | @intro name namePlace opening closing members isMember =>
          refine .cons _ rfl ⟨_, isWhole, rfl, rfl⟩ (.perm ?_ (members_perm _))
          exact enclosed_carries (fun member isInside => (isMember member isInside).carries)
            [Token.ofName name namePlace] opening closing
  | event place isEvent =>
      cases isEvent with
      | intro name namePlace final isList =>
          refine .cons _ rfl ⟨_, isWhole, rfl, rfl⟩ (isList.carries.mono ?_)
          exact ⟨[Token.ofName name namePlace], [Token.ofMark ";" final], by simp⟩
  | action place isAction =>
      cases isAction with
      | intro name namePlace isList isBlock =>
          refine .cons _ rfl ⟨_, isWhole, rfl, rfl⟩ ?_
          exact (isList.carries.append isBlock.carries).mono (List.suffix_cons _ _).isInfix
  | rule place isRule =>
      cases isRule with
      | @intro name namePlace opening whenPlace middle thenPlace closing condition actions _
          isBlock =>
          refine .cons _ rfl ⟨_, isWhole, rfl, rfl⟩ (isBlock.carries.mono ?_)
          exact ⟨Token.ofName name namePlace :: Token.ofMark "\x7b" opening ::
            Token.ofKeyword "when" whenPlace :: (condition.tokens ++
              [Token.ofMark ";" middle, Token.ofKeyword "then" thenPlace]),
            [Token.ofMark "\x7d" closing], by simp⟩
  | imported place isImport =>
      cases isImport
      exact .singleton _ rfl ⟨_, isWhole, rfl, rfl⟩

/-- A declaration begins with its keyword. -/
theorem IsDeclaration.begins_with_first {phrase : Phrase Declaration}
    (isDeclaration : IsDeclaration phrase) :
    [(Placed.declaration phrase.tree).first].Sublist phrase.tokens := by
  rcases isDeclaration.carries.spelled _ List.mem_cons_self with ⟨others, isInside, _⟩
  exact ((List.nil_sublist others).cons_cons _).trans isInside.sublist

/-! ## Runs of attempts -/

/-- The declarations that are read are those of phrases that stand one behind the other, though
there may be tokens between them. -/
theorem exists_phrases_of_read (limit : Nat) (tokens : List Token) :
    ∃ phrases : List (Phrase Declaration),
      (∀ phrase ∈ phrases, IsDeclaration phrase ∧ phrase.tokens <:+: tokens) ∧
        (succession phrases).tokens.Sublist tokens ∧
        (succession phrases).tree = (attempts limit tokens).filterMap Attempt.declaration? := by
  induction size : tokens.length using Nat.strongRecOn generalizing tokens with
  | ind size ih =>
      by_cases nonempty : tokens = []
      · exact ⟨[], by simp, List.nil_sublist _, by simp [nonempty, succession]⟩
      rcases ih _ (size ▸ attempt_shorter nonempty) (attempt limit tokens).2 rfl with
        ⟨phrases, each, inOrder, treesEq⟩
      rw [attempts_of_ne_nil nonempty]
      cases read : declaration limit tokens with
      | ok result =>
          rcases declaration_eq_ok.mp read with ⟨phrase, isDeclaration, _, treeEq, tokensEq⟩
          simp only [attempt, read] at each inOrder treesEq ⊢
          refine ⟨phrase :: phrases, List.forall_mem_cons.mpr ⟨⟨isDeclaration, ?_⟩, ?_⟩, ?_, ?_⟩
          · exact ⟨[], result.2, by simp [tokensEq]⟩
          · intro later isLater
            have isSuffix : result.2 <:+ tokens := ⟨phrase.tokens, tokensEq.symm⟩
            exact ⟨(each later isLater).1, (each later isLater).2.trans isSuffix.isInfix⟩
          · rw [tokensEq]
            exact (List.Sublist.refl phrase.tokens).append inOrder
          · rw [List.filterMap_cons, ← treesEq, ← treeEq]
            rfl
      | error failure =>
          -- Behind a failure it goes on further down, and what was passed over is in no
          -- declaration.
          have isSuffix : (attempt limit tokens).2 <:+ tokens :=
            (attempt_suffix limit tokens).trans (List.tail_suffix tokens)
          simp only [attempt, read] at each inOrder treesEq isSuffix ⊢
          refine ⟨phrases, ?_, inOrder.trans isSuffix.sublist, treesEq⟩
          intro phrase isMember
          exact ⟨(each phrase isMember).1, (each phrase isMember).2.trans isSuffix.isInfix⟩

/-- The tokens hold all nodes of the declarations that are read. -/
theorem attempts_carry (limit : Nat) (tokens : List Token) :
    Carries tokens
      (((attempts limit tokens).filterMap Attempt.declaration?).flatMap Declaration.placed) := by
  rcases exists_phrases_of_read limit tokens with ⟨phrases, each, inOrder, treesEq⟩
  rw [← treesEq]
  constructor
  · intro node isNode
    rcases List.mem_flatMap.mp isNode with ⟨declared, isDeclared, isInside⟩
    rcases List.mem_map.mp isDeclared with ⟨phrase, isPhrase, rfl⟩
    have inPhrase := (each phrase isPhrase).1.carries.mono (each phrase isPhrase).2
    exact inPhrase.spelled node isInside
  · have inSuccession := succession_carries fun phrase isPhrase => (each phrase isPhrase).1.carries
    exact inSuccession.distinct.trans inOrder.subperm

/-- The keywords of the declarations that are read follow each other in the order of the
declarations. -/
theorem firsts_sublist (limit : Nat) (tokens : List Token) :
    (((attempts limit tokens).filterMap Attempt.declaration?).map fun declared =>
      (Placed.declaration declared).first).Sublist tokens := by
  rcases exists_phrases_of_read limit tokens with ⟨phrases, each, inOrder, treesEq⟩
  rw [← treesEq]
  refine List.Sublist.trans ?_ inOrder
  have isDeclaration := fun phrase isPhrase => (each phrase isPhrase).1
  clear each inOrder treesEq
  induction phrases with
  | nil => exact List.Sublist.refl _
  | cons phrase phrases fromRest =>
      have ofFirst := (isDeclaration phrase List.mem_cons_self).begins_with_first
      have ofRest := fromRest fun later isLater =>
        isDeclaration later (List.mem_cons_of_mem _ isLater)
      exact ofFirst.append ofRest

end Grammar

/-- The places of a program that is read from a source text are faithful.  Each node that has one
is spelled by tokens of the text in a row, and its place is that of the first of them, which is the
keyword or the name that the node begins with.  No two nodes share a place, and the declarations
stand in the order of the text. -/
theorem Parsing.places_are_faithful (limit : Nat) (source : String) (radius : Nat) :
    let tokens := (Lexing.ofText source.toList radius).tokens
    let program := (ofTokens limit tokens).program
    (∀ node ∈ program.placed, ∃ others,
      node.first :: others <:+: tokens ∧ node.SpelledBy (node.first :: others)) ∧
      program.locations.Nodup ∧
      (program.declarations.map Declaration.location).Pairwise Location.Before := by
  intro tokens program
  have isFront : Grammar.beforeEnd tokens <+: tokens := List.takeWhile_prefix _
  have carries := attempts_carry limit (Grammar.beforeEnd tokens)
  refine ⟨(carries.mono isFront.isInfix).spelled, ?_, ?_⟩
  · rw [← Program.map_location_placed]
    rcases carries.distinct with ⟨firsts, isPerm, inOrder⟩
    have ofFirsts := (Lexing.places_nodup source.toList radius).sublist (inOrder.map _)
    have ofNodes := (isPerm.map Token.location).nodup_iff.mp ofFirsts
    rwa [List.map_map] at ofNodes
  · have ascend := Lexing.tokens_ascend source.toList radius
    have inOrder := (firsts_sublist limit (Grammar.beforeEnd tokens)).trans isFront.sublist
    have ofFirsts := List.pairwise_map.mp (ascend.sublist inOrder)
    exact List.pairwise_map.mpr ofFirsts

end TwinSwarm
