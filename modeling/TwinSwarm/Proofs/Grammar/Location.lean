import TwinSwarm.Proofs.Grammar.Program
import TwinSwarm.Proofs.Tree.Location

/-!
# Where the parts of a program stand

Each location in the tree of a program is the place of one of its tokens.
-/

namespace TwinSwarm.Grammar

open Phrase

variable {α β : Type}

namespace Phrase

/-- The locations are places of tokens of the phrase. -/
def Covers (phrase : Phrase α) (locations : List Location) : Prop :=
  locations ⊆ phrase.tokens.map Token.location

variable {phrase : Phrase α} {locations : List Location}

@[simp] theorem covers_nil : phrase.Covers [] := List.nil_subset _

@[simp] theorem covers_cons {location : Location} :
    phrase.Covers (location :: locations) ↔
      location ∈ phrase.tokens.map Token.location ∧ phrase.Covers locations :=
  List.cons_subset

@[simp] theorem covers_append {others : List Location} :
    phrase.Covers (locations ++ others) ↔ phrase.Covers locations ∧ phrase.Covers others :=
  List.append_subset

/-- A longer phrase covers what a part of it covers. -/
theorem Covers.mono {whole : Phrase β} (covers : phrase.Covers locations)
    (isPart : phrase.tokens ⊆ whole.tokens) : whole.Covers locations :=
  List.Subset.trans covers (List.map_subset Token.location isPart)

/-- Phrases one behind the other cover what each of them covers. -/
theorem succession_covers {phrases : List (Phrase α)} {locationsOf : α → List Location}
    (covers : ∀ phrase ∈ phrases, phrase.Covers (locationsOf phrase.tree)) :
    (succession phrases).Covers ((succession phrases).tree.flatMap locationsOf) := by
  intro location isLocation
  rcases List.mem_flatMap.mp isLocation with ⟨tree, isTree, isInside⟩
  rcases List.mem_map.mp isTree with ⟨phrase, isPhrase, rfl⟩
  have isPart : phrase.tokens ⊆ (succession phrases).tokens := by
    intro token isToken
    exact List.mem_flatMap_of_mem isPhrase isToken
  exact (covers phrase isPhrase).mono isPart isInside

theorem Separated.tokens_subset {phrases : List (Phrase α)} {inside : Phrase (List α)}
    (separated : Separated phrases inside) :
    ∀ phrase ∈ phrases, phrase.tokens ⊆ inside.tokens := by
  induction separated with
  | none => simp
  | one only => simp
  | @more first second others inside comma _ ih =>
      intro phrase isPhrase token isToken
      rcases List.mem_cons.mp isPhrase with rfl | isLater
      · simp [isToken]
      · simp [ih phrase isLater isToken]

/-- Phrases with commas between them cover what each of them covers. -/
theorem Separated.covers {phrases : List (Phrase α)} {inside : Phrase (List α)}
    (separated : Separated phrases inside) {locationsOf : α → List Location}
    (covers : ∀ phrase ∈ phrases, phrase.Covers (locationsOf phrase.tree)) :
    inside.Covers (inside.tree.flatMap locationsOf) := by
  intro location isLocation
  rcases List.mem_flatMap.mp isLocation with ⟨tree, isTree, isInside⟩
  rw [separated.tree_eq, List.mem_map] at isTree
  rcases isTree with ⟨phrase, isPhrase, rfl⟩
  exact (covers phrase isPhrase).mono (separated.tokens_subset phrase isPhrase) isInside

end Phrase

/-! ## Statements -/

theorem locationsOfAll_eq_flatMap (statements : List Statement) :
    Statement.locationsOfAll statements = statements.flatMap Statement.locations := by
  induction statements with
  | nil => rfl
  | cons first rest fromRest =>
      rw [Statement.locationsOfAll, fromRest, List.flatMap_cons]

theorem braced_covers {statements : List (Phrase Statement)}
    (covers : ∀ phrase ∈ statements, phrase.Covers phrase.tree.locations)
    (opening closing : Location) :
    (braced opening closing statements).Covers
      (Statement.locationsOfAll (braced opening closing statements).tree) := by
  rw [locationsOfAll_eq_flatMap]
  apply (succession_covers covers).mono
  intro token isToken
  simp [braced, isToken]

/-- The locations of a statement are places of its tokens. -/
theorem Forms.covers {shape : Shape} {phrase : Phrase Statement} (forms : Forms shape phrase) :
    phrase.Covers phrase.tree.locations := by
  induction forms with
  | withoutElse place opening closing bodyOpening bodyClosing _ _ bodyCovers =>
      have inBody := braced_covers bodyCovers bodyOpening bodyClosing
      simp only [oneBranch, guarded, Statement.locations, Statement.locationsOfBranch, covers_cons,
        covers_append, covers_nil, and_true]
      constructor
      · exact .head _
      · apply inBody.mono
        intro token isToken
        simp [isToken]
  | withElse place opening closing bodyOpening bodyClosing keyword elseOpening elseClosing _ _ _
      bodyCovers branchCovers =>
      have inBody := braced_covers bodyCovers bodyOpening bodyClosing
      have inBranch := braced_covers branchCovers elseOpening elseClosing
      simp only [twoBranches, guarded, Statement.locations, Statement.locationsOfBranch,
        covers_cons, covers_append]
      refine ⟨.head _, ?_, ?_⟩
      · apply inBody.mono
        intro token isToken
        simp [isToken]
      · apply inBranch.mono
        intro token isToken
        simp [isToken]
  | withElseIf place opening closing bodyOpening bodyClosing keyword _ _ _ bodyCovers
      chainedCovers =>
      have inBody := braced_covers bodyCovers bodyOpening bodyClosing
      simp only [twoBranches, guarded, elseIf, Statement.locations, Statement.locationsOfBranch,
        Statement.locationsOfAll, covers_cons, covers_append, covers_nil, and_true]
      refine ⟨.head _, ?_, ?_⟩
      · apply inBody.mono
        intro token isToken
        simp [isToken]
      · apply chainedCovers.mono
        intro token isToken
        simp [isToken]
  | conditional _ covers => exact covers
  | loop place opening namePlace keyword closing bodyOpening bodyClosing name _ _ bodyCovers =>
      have inBody := braced_covers bodyCovers bodyOpening bodyClosing
      simp only [looping, Statement.locations, covers_cons]
      constructor
      · exact .head _
      · apply inBody.mono
        intro token isToken
        simp [isToken]
  | log | alert | notify | assignment | call =>
      exact covers_cons.mpr ⟨.head _, covers_nil⟩

theorem IsBlock.covers {phrase : Phrase (List Statement)} (isBlock : IsBlock phrase) :
    phrase.Covers (Statement.locationsOfAll phrase.tree) := by
  cases isBlock with
  | intro opening closing isStatement =>
      exact braced_covers (fun phrase isMember => (isStatement phrase isMember).covers) opening
        closing

/-! ## Declarations -/

/-- The locations of a clause. -/
def StateClause.locations : StateClause → List Location
  | .entry reference | .exit reference => [reference.location]
  | .transition item => [item.location]

/-- The locations of an item of a twin. -/
def TwinItem.locations : TwinItem → List Location
  | .property item => [item.location]
  | .sensor item | .actuator item => [item.location]
  | .state item => item.locations

/-- The locations of a member of a swarm. -/
def SwarmMember.locations : SwarmMember → List Location
  | .twin reference => [reference.location]
  | .rule reference => [reference.location]

section Picked

variable {items : List α} {pick : α → Option β} {allOf : α → List Location}

/-- What is picked from items has no locations that the items do not have. -/
theorem picked_subset {locationsOf : β → List Location}
    (isInside : ∀ item part, pick item = some part → locationsOf part ⊆ allOf item) :
    (items.filterMap pick).flatMap locationsOf ⊆ items.flatMap allOf := by
  intro location isLocation
  rcases List.mem_flatMap.mp isLocation with ⟨part, isPart, isInPart⟩
  rcases List.mem_filterMap.mp isPart with ⟨item, isItem, picked⟩
  exact List.mem_flatMap_of_mem isItem (isInside item part picked isInPart)

theorem picked_places_subset {placeOf : β → Location}
    (isInside : ∀ item part, pick item = some part → placeOf part ∈ allOf item) :
    (items.filterMap pick).map placeOf ⊆ items.flatMap allOf := by
  rw [List.map_eq_flatMap]
  apply picked_subset
  intro item part picked
  exact List.cons_subset.mpr ⟨isInside item part picked, List.nil_subset _⟩

end Picked

theorem enclosed_covers {items : List (Phrase α)} {locationsOf : α → List Location}
    (covers : ∀ phrase ∈ items, phrase.Covers (locationsOf phrase.tree))
    (opening closing : Location) :
    (enclosed opening closing items).Covers ((items.map tree).flatMap locationsOf) := by
  apply (succession_covers covers).mono
  intro token isToken
  simp [enclosed, isToken]

theorem behind_covers (word : String) (place : Location) (make : α → β) (phrase : Phrase α) :
    (behind word place make phrase).Covers [place] :=
  covers_cons.mpr ⟨.head _, covers_nil⟩

theorem IsClause.covers {phrase : Phrase StateClause} (isClause : IsClause phrase) :
    phrase.Covers phrase.tree.locations := by
  cases isClause with
  | entry place final isReference | exit place final isReference =>
      cases isReference with
      | plain | applied => exact behind_covers ..
  | transition place isItem =>
      cases isItem
      exact behind_covers ..

/-- The parts of a state stand where its clauses stand. -/
theorem clauses_subset (clauses : List StateClause) :
    (clauses.filterMap StateClause.entry?).map ActionReference.location ++
      (clauses.filterMap StateClause.exit?).map ActionReference.location ++
        (clauses.filterMap StateClause.transition?).map Transition.location ⊆
      clauses.flatMap StateClause.locations := by
  rw [List.append_subset, List.append_subset]
  refine ⟨⟨?_, ?_⟩, ?_⟩
  all_goals
    apply picked_places_subset
    intro clause part picked
    cases clause <;> cases picked
    exact .head _

theorem IsState.covers {place : Location} {phrase : Phrase StateItem}
    (isState : IsState place phrase) (word : String) (make : StateItem → β) :
    (behind word place make phrase).Covers phrase.tree.locations := by
  cases isState with
  | @intro name namePlace opening closing clauses isClause =>
      have inside := enclosed_covers (fun clause isMember => (isClause clause isMember).covers)
        opening closing
      rw [StateItem.locations, covers_cons]
      constructor
      · exact .head _
      · apply Covers.mono (List.Subset.trans (clauses_subset _) inside)
        intro token isToken
        simp [behind, isToken]

theorem IsTwinItem.covers {phrase : Phrase TwinItem} (isItem : IsTwinItem phrase) :
    phrase.Covers phrase.tree.locations := by
  cases isItem with
  | property place isItem =>
      cases isItem
      exact behind_covers ..
  | sensor place isItem | actuator place isItem =>
      cases isItem with
      | bare | configured => exact behind_covers ..
  | state place isItem => exact isItem.covers "state" TwinItem.state

/-- The parts of a twin stand where its items stand. -/
theorem items_subset (items : List TwinItem) :
    (items.filterMap TwinItem.property?).map PropertyItem.location ++
      (items.filterMap TwinItem.sensor?).map Device.location ++
        (items.filterMap TwinItem.actuator?).map Device.location ++
          (items.filterMap TwinItem.state?).flatMap StateItem.locations ⊆
      items.flatMap TwinItem.locations := by
  rw [List.append_subset, List.append_subset, List.append_subset]
  refine ⟨⟨⟨?_, ?_⟩, ?_⟩, ?_⟩
  case refine_4 =>
    apply picked_subset
    intro item part picked
    cases item <;> cases picked
    exact List.Subset.refl _
  all_goals
    apply picked_places_subset
    intro item part picked
    cases item <;> cases picked
    exact .head _

theorem IsMember.covers {phrase : Phrase SwarmMember} (isMember : IsMember phrase) :
    phrase.Covers phrase.tree.locations := by
  cases isMember with
  | twin place isReference | rule place isReference =>
      cases isReference
      exact behind_covers ..

/-- The parts of a swarm stand where its members stand. -/
theorem members_subset (members : List SwarmMember) :
    (members.filterMap SwarmMember.twin?).map TwinReference.location ++
      (members.filterMap SwarmMember.rule?).map RuleReference.location ⊆
      members.flatMap SwarmMember.locations := by
  rw [List.append_subset]
  constructor
  all_goals
    apply picked_places_subset
    intro member part picked
    cases member <;> cases picked
    exact .head _

theorem IsParameter.covers {phrase : Phrase Parameter} (isParameter : IsParameter phrase) :
    phrase.Covers [phrase.tree.location] := by
  cases isParameter
  exact covers_cons.mpr ⟨.head _, covers_nil⟩

theorem IsParameters.covers {phrase : Phrase (List Parameter)} (isList : IsParameters phrase) :
    phrase.Covers (phrase.tree.map Parameter.location) := by
  cases isList with
  | absent => exact covers_nil
  | @present opening closing parameters inside isParameter separated =>
      rw [List.map_eq_flatMap]
      apply (separated.covers fun parameter isMember =>
        (isParameter parameter isMember).covers).mono
      intro token isToken
      simp [isToken]

/-- The locations of a declaration are places of its tokens. -/
theorem IsDeclaration.covers {phrase : Phrase Declaration} (isDeclaration : IsDeclaration phrase) :
    phrase.Covers phrase.tree.locations := by
  cases isDeclaration with
  | twin place isTwin =>
      cases isTwin with
      | @intro name namePlace opening closing parent items _ isItem =>
          have inside := enclosed_covers (fun item isMember => (isItem item isMember).covers)
            opening closing
          refine covers_cons.mpr ⟨.head _, ?_⟩
          -- The lists of the tree hold each item once, but not in the order of the tokens.
          apply Covers.mono (List.Subset.trans (items_subset _) inside)
          intro token isToken
          simp [behind, isToken]
  | swarm place isSwarm =>
      cases isSwarm with
      | @intro name namePlace opening closing members isMember =>
          have inside := enclosed_covers (fun member isInside => (isMember member isInside).covers)
            opening closing
          refine covers_cons.mpr ⟨.head _, ?_⟩
          apply Covers.mono (List.Subset.trans (members_subset _) inside)
          intro token isToken
          simp [behind, isToken]
  | event place isEvent =>
      cases isEvent with
      | intro name namePlace final isList =>
          refine covers_cons.mpr ⟨.head _, ?_⟩
          apply isList.covers.mono
          intro token isToken
          simp [behind, isToken]
  | action place isAction =>
      cases isAction with
      | intro name namePlace isList isBlock =>
          refine covers_cons.mpr ⟨.head _, covers_append.mpr ⟨?_, ?_⟩⟩
          · apply isList.covers.mono
            intro token isToken
            simp [behind, isToken]
          · apply isBlock.covers.mono
            intro token isToken
            simp [behind, isToken]
  | rule place isRule =>
      cases isRule with
      | intro name namePlace opening whenPlace middle thenPlace closing _ isBlock =>
          refine covers_cons.mpr ⟨.head _, ?_⟩
          apply isBlock.covers.mono
          intro token isToken
          simp [behind, isToken]
  | imported place isImport =>
      cases isImport
      exact behind_covers ..

/-- The locations of a program are places of its tokens. -/
theorem IsProgram.covers {phrase : Phrase Program} (isProgram : IsProgram phrase) :
    phrase.Covers phrase.tree.locations := by
  cases isProgram with
  | intro isDeclaration =>
      exact succession_covers fun declaration isMember =>
        (isDeclaration declaration isMember).covers

end TwinSwarm.Grammar
