import Mathlib.Data.List.Basic
import TwinSwarm.Proofs.Grammar.Expression

/-!
# Precedence and associativity

The tree of an expression says which tokens it was read from, up to their places and the
spelling of literals.  Conversely the tokens leave only one tree if the table of precedence
settles which operand an operator belongs to.  Reading finds this tree, and it stops only where
no binary operator goes on.
-/

namespace TwinSwarm

open Grammar

/-! ## The yield of a tree -/

/-- What a token of an expression stands for.  A name or a literal stands for itself, whatever its
spelling, and all else for its text. -/
inductive Terminal where
  | name (text : String)
  | literal (value : Literal)
  | operator (symbol : String)
  | mark (text : String)
  deriving Repr, DecidableEq

/-- What the token stands for in an expression. -/
def Token.terminal? (token : Token) : Option Terminal :=
  match literal? token with
  | some (.ok value) => some (.literal value)
  | some (.error _) => none
  | none =>
      match token.kind with
      | .identifier => some (.name token.text)
      | .operator => some (.operator token.text)
      | .punctuation => some (.mark token.text)
      | _ => none

namespace Terminal

/-- Terminals with commas between them. -/
def separated (parts : List (List Terminal)) : List Terminal :=
  [Terminal.mark ","].intercalate parts

end Terminal

namespace Expression

mutual

/-- The terminals of an expression from left to right. -/
def yield : Expression → List Terminal
  | .binary operator left right => yield left ++ .operator operator.symbol :: yield right
  | .unary operator operand => .operator operator.symbol :: yield operand
  | .literal value => [.literal value]
  | .grouping inner => .mark "(" :: (yield inner ++ [.mark ")"])
  | .array elements => .mark "[" :: (Terminal.separated (yields elements) ++ [.mark "]"])
  | .object entries =>
      .mark "\x7b" :: (Terminal.separated (yieldsOfEntries entries) ++ [.mark "\x7d"])
  | .reference name => [.name name]
  | .call callee arguments =>
      .name callee :: .mark "(" :: (Terminal.separated (yields arguments) ++ [.mark ")"])
  | .property owner name => [.name owner, .mark ".", .name name]

/-- The terminals of each of several expressions. -/
def yields : List Expression → List (List Terminal)
  | [] => []
  | first :: rest => yield first :: yields rest

/-- The terminals of each of several entries.  A key stands for the string that it is. -/
def yieldsOfEntries : List (Entry Expression) → List (List Terminal)
  | [] => []
  | ⟨key, value⟩ :: rest =>
      (.literal (.string key) :: .mark ":" :: yield value) :: yieldsOfEntries rest

end

/-- The terminals of an entry of an object. -/
def yieldOfEntry (entry : Entry Expression) : List Terminal :=
  .literal (.string entry.key) :: .mark ":" :: entry.value.yield

theorem yields_eq_map (expressions : List Expression) :
    yields expressions = expressions.map yield := by
  induction expressions with
  | nil => rfl
  | cons first rest ih => rw [yields, ih, List.map_cons]

theorem yieldsOfEntries_eq_map (entries : List (Entry Expression)) :
    yieldsOfEntries entries = entries.map yieldOfEntry := by
  induction entries with
  | nil => rfl
  | cons first rest ih =>
      rw [yieldsOfEntries, ih, List.map_cons]
      rfl

/-! ## The shape that the table of precedence dictates -/

/-- The expression binds tighter than the level of a rank: at its root there is no binary operator
of that level or of a looser one. -/
def BindsTighter (rank : Nat) : Expression → Prop
  | .binary operator _ _ => (precedence operator).rank < rank
  | _ => True

theorem BindsTighter.mono {tree : Expression} {rank larger : Nat}
    (tighter : tree.BindsTighter rank) (atMost : rank ≤ larger) : tree.BindsTighter larger := by
  cases tree with
  | binary operator left right => exact Nat.lt_of_lt_of_le tighter atMost
  | _ => trivial

/-- At every node the operands are those that the table of precedence dictates.  The left operand
of a binary operator is of its level or a tighter one, the right operand is of a tighter one, and
the operand of a unary operator has no binary operator at its root. -/
inductive Shaped : Expression → Prop where
  | binary {operator : BinaryOperator} {left right : Expression} :
      Shaped left → Shaped right →
      left.BindsTighter ((precedence operator).rank + 1) →
      right.BindsTighter (precedence operator).rank →
      Shaped (.binary operator left right)
  | unary {operator : UnaryOperator} {operand : Expression} :
      Shaped operand → operand.BindsTighter 0 → Shaped (.unary operator operand)
  | literal (value : Literal) : Shaped (.literal value)
  | grouping {inner : Expression} : Shaped inner → Shaped (.grouping inner)
  | array {elements : List Expression} :
      (∀ element ∈ elements, Shaped element) → Shaped (.array elements)
  | object {entries : List (Entry Expression)} :
      (∀ entry ∈ entries, Shaped entry.value) → Shaped (.object entries)
  | reference (name : String) : Shaped (.reference name)
  | call (callee : String) {arguments : List Expression} :
      (∀ argument ∈ arguments, Shaped argument) → Shaped (.call callee arguments)
  | property (owner name : String) : Shaped (.property owner name)

end Expression

namespace Grammar

open Phrase Recogniser

variable {α : Type}

/-! ## Tokens that spell terminals -/

/-- The tokens stand for the terminals, one by one. -/
def Spells (tokens : List Token) (terminals : List Terminal) : Prop :=
  tokens.map Token.terminal? = terminals.map some

namespace Spells

variable {tokens : List Token} {terminals : List Terminal}

@[simp] theorem nil_iff : Spells tokens [] ↔ tokens = [] := by
  simp [Spells]

theorem cons_iff {first : Terminal} :
    Spells tokens (first :: terminals) ↔
      ∃ token rest, tokens = token :: rest ∧ token.terminal? = some first ∧
        Spells rest terminals := by
  rw [Spells, List.map_cons, List.map_eq_cons_iff]
  rfl

theorem append_iff {others : List Terminal} :
    Spells tokens (terminals ++ others) ↔
      ∃ front back, tokens = front ++ back ∧ Spells front terminals ∧ Spells back others := by
  rw [Spells, List.map_append, List.map_eq_append_iff]
  rfl

theorem nil : Spells [] [] := rfl

theorem cons {token : Token} {first : Terminal} (stands : token.terminal? = some first)
    (spells : Spells tokens terminals) : Spells (token :: tokens) (first :: terminals) :=
  cons_iff.mpr ⟨token, tokens, rfl, stands, spells⟩

theorem append {front back : List Token} {left right : List Terminal}
    (spellsLeft : Spells front left) (spellsRight : Spells back right) :
    Spells (front ++ back) (left ++ right) :=
  append_iff.mpr ⟨front, back, rfl, spellsLeft, spellsRight⟩

end Spells

/-- A terminal fixes the token up to its place and, for a literal, its spelling. -/
theorem eq_of_terminal? {token : Token} {terminal : Terminal}
    (stands : token.terminal? = some terminal) :
    match terminal with
    | .name text => token = Token.ofName text token.location
    | .literal value => Denotes token value
    | .operator symbol => token = Token.ofSign symbol token.location
    | .mark text => token = Token.ofMark text token.location := by
  rw [Token.terminal?] at stands
  cases isLiteral : literal? token with
  | some result =>
      cases result with
      | ok value =>
          simp only [isLiteral, Option.some.injEq] at stands
          subst stands
          exact literal?_eq_ok.mp isLiteral
      | error complaint => simp [isLiteral] at stands
  | none =>
      rcases token with ⟨kind, text, location⟩
      cases kind <;> simp only [isLiteral, Option.some.injEq, reduceCtorEq] at stands <;>
        subst stands <;> rfl

theorem terminal?_of_denotes {token : Token} {value : Literal} (denotes : Denotes token value) :
    token.terminal? = some (.literal value) := by
  rw [Token.terminal?, literal?_eq_ok.mpr denotes]

/-- The commas between phrases are the commas between what the phrases spell. -/
theorem Phrase.Separated.spells {phrases : List (Phrase α)} {inside : Phrase (List α)}
    (separated : Separated phrases inside) {yieldOf : α → List Terminal}
    (each : ∀ phrase ∈ phrases, Spells phrase.tokens (yieldOf phrase.tree)) :
    Spells inside.tokens (Terminal.separated (inside.tree.map yieldOf)) := by
  induction separated with
  | none => exact .nil
  | one only => simpa [Terminal.separated] using each only List.mem_cons_self
  | @more first second others inside comma rest ih =>
      rw [List.forall_mem_cons] at each
      have behind := ih each.2
      rw [rest.tree_eq, List.map_cons, List.map_cons] at behind
      rw [rest.tree_eq, List.map_cons, List.map_cons, List.map_cons, Terminal.separated,
        List.intercalate_cons_cons, List.append_assoc]
      exact each.1.append (.cons rfl behind)

/-- What the terminals of several trees with commas between them are spelled by. -/
theorem exists_separated {kind : Phrase α → Prop} {yieldOf : α → List Terminal} {trees : List α}
    (each : ∀ tree ∈ trees, ∀ tokens, Spells tokens (yieldOf tree) →
      ∃ phrase, kind phrase ∧ phrase.tree = tree ∧ phrase.tokens = tokens)
    {tokens : List Token} (spells : Spells tokens (Terminal.separated (trees.map yieldOf))) :
    ∃ phrases inside, (∀ phrase ∈ phrases, kind phrase) ∧ Separated phrases inside ∧
      inside.tree = trees ∧ inside.tokens = tokens := by
  induction trees generalizing tokens with
  | nil => exact ⟨[], _, by simp, .none, rfl, (Spells.nil_iff.mp spells).symm⟩
  | cons first others ih =>
      rw [List.forall_mem_cons] at each
      cases others with
      | nil =>
          rcases each.1 tokens (by simpa [Terminal.separated] using spells) with
            ⟨phrase, isKind, rfl, rfl⟩
          exact ⟨[phrase], _, by simpa using isKind, .one phrase, rfl, rfl⟩
      | cons second others =>
          rw [List.map_cons, List.map_cons, Terminal.separated, List.intercalate_cons_cons,
            List.append_assoc, Spells.append_iff] at spells
          rcases spells with ⟨front, back, rfl, spellsFirst, spellsOthers⟩
          rcases Spells.cons_iff.mp spellsOthers with ⟨comma, behind, rfl, isComma, spellsBehind⟩
          rcases each.1 front spellsFirst with ⟨phrase, isKind, rfl, rfl⟩
          rcases ih each.2 spellsBehind with ⟨phrases, inside, kinds, separated, treeEq, rfl⟩
          -- A comma joins two lists of phrases only if there is one behind it.
          have nonempty : phrases ≠ [] := by
            rintro rfl
            cases separated
            cases treeEq
          rcases List.exists_cons_of_ne_nil nonempty with ⟨next, more, rfl⟩
          refine ⟨phrase :: next :: more, _, ?_, .more comma.location separated, ?_, ?_⟩
          · simpa [isKind] using kinds
          · rw [treeEq]
          · rw [← eq_of_terminal? isComma]

/-! ## What is read spells its tree -/

theorem ObjectItem.spells {item : ObjectItem}
    (spells : Spells item.value.tokens item.value.tree.yield) :
    Spells item.phrase.tokens (Expression.yieldOfEntry item.phrase.tree) :=
  .cons (terminal?_of_denotes (.string item.key item.keyPlace)) (.cons rfl spells)

theorem spells_foldl {links : List Link} {front : List Token} {first : Expression}
    (spellsFirst : Spells front first.yield)
    (each : ∀ link ∈ links, Spells link.operand.tokens link.operand.tree.yield) :
    Spells (front ++ links.flatMap Link.tokens) (links.foldl Link.apply first).yield := by
  induction links generalizing front first with
  | nil => simpa using spellsFirst
  | cons link rest ih =>
      rw [List.forall_mem_cons] at each
      have linked : Spells (front ++ link.tokens) (link.apply first).yield :=
        spellsFirst.append (.cons rfl each.1)
      rw [List.flatMap_cons, ← List.append_assoc]
      exact ih linked each.2

/-- The tokens of an expression spell the yield of its tree. -/
theorem Derives.spells {stratum : Stratum} {phrase : Phrase Expression}
    (derives : Derives stratum phrase) : Spells phrase.tokens phrase.tree.yield := by
  induction derives with
  | chain _ _ _ ih ihLinks => exact spells_foldl ih ihLinks
  | unary operator sign _ ih => exact .cons rfl ih
  | primary _ ih => exact ih
  | literal denotes => exact .cons (terminal?_of_denotes denotes) .nil
  | reference | property => rfl
  | call name place opening closing _ separated ih =>
      rw [Expression.yield, Expression.yields_eq_map]
      exact .cons rfl (.cons rfl ((separated.spells ih).append rfl))
  | grouping opening closing _ ih => exact .cons rfl (ih.append rfl)
  | array opening closing _ separated ih =>
      rw [Expression.yield, Expression.yields_eq_map]
      exact .cons rfl ((separated.spells ih).append rfl)
  | object opening closing _ separated ih =>
      rw [Expression.yield, Expression.yieldsOfEntries_eq_map]
      have items := separated.spells (List.forall_mem_map.mpr fun item isMember =>
        (ObjectItem.spells (ih item isMember)))
      exact .cons rfl (items.append rfl)

/-! ## What is read has the shape that is dictated -/

/-- Linking operands that bind tighter keeps the shape. -/
theorem shaped_foldl {level : Precedence} {links : List Link} {first : Expression}
    (shapedFirst : first.Shaped) (tighterFirst : first.BindsTighter (level.rank + 1))
    (levels : ∀ link ∈ links, precedence link.operator = level)
    (each : ∀ link ∈ links,
      link.operand.tree.Shaped ∧ link.operand.tree.BindsTighter level.rank) :
    (links.foldl Link.apply first).Shaped ∧
      (links.foldl Link.apply first).BindsTighter (level.rank + 1) := by
  induction links generalizing first with
  | nil => exact ⟨shapedFirst, tighterFirst⟩
  | cons link rest ih =>
      rw [List.forall_mem_cons] at each levels
      rcases levels with ⟨rfl, levels⟩
      have linked : (link.apply first).Shaped :=
        .binary shapedFirst each.1.1 tighterFirst each.1.2
      exact ih linked (Nat.lt_succ_self _) levels each.2

/-- The tree of an expression has the shape that is dictated, and binds tighter than the strata
around its own. -/
theorem Derives.shaped {stratum : Stratum} {phrase : Phrase Expression}
    (derives : Derives stratum phrase) :
    phrase.tree.Shaped ∧ phrase.tree.BindsTighter stratum.levels := by
  -- The operands of a chain bind tighter than its level, and all other forms than any level.
  induction derives with
  | @chain level first links _ levels _ ih ihLinks =>
      rw [levels_below] at ih
      have operands : ∀ link ∈ links,
          link.operand.tree.Shaped ∧ link.operand.tree.BindsTighter level.rank := by
        intro link isMember
        rw [← levels_below]
        exact ihLinks link isMember
      exact shaped_foldl ih.1 (ih.2.mono (Nat.le_succ _)) levels operands
  | unary operator sign _ ih => exact ⟨.unary ih.1 ih.2, trivial⟩
  | primary _ ih => exact ih
  | literal => exact ⟨.literal _, trivial⟩
  | reference => exact ⟨.reference _, trivial⟩
  | property => exact ⟨.property _ _, trivial⟩
  | call name place opening closing _ separated ih =>
      refine ⟨.call _ ?_, trivial⟩
      rw [separated.tree_eq]
      exact List.forall_mem_map.mpr fun argument isMember => (ih argument isMember).1
  | grouping opening closing _ ih => exact ⟨.grouping ih.1, trivial⟩
  | array opening closing _ separated ih =>
      refine ⟨.array ?_, trivial⟩
      rw [separated.tree_eq]
      exact List.forall_mem_map.mpr fun element isMember => (ih element isMember).1
  | object opening closing _ separated ih =>
      refine ⟨.object ?_, trivial⟩
      rw [separated.tree_eq, List.map_map]
      exact List.forall_mem_map.mpr fun item isMember => (ih item isMember).1

/-! ## A tree of that shape is read from what spells it -/

theorem Precedence.rank_injective : Function.Injective Precedence.rank := by
  intro left right same
  cases left <;> cases right <;> first | rfl | cases same

theorem chained_nil (first : Phrase Expression) : chained first [] = first := by
  simp [chained, linksNeed]

/-- An expression of a stratum is one of every looser stratum. -/
theorem Derives.loosen {stratum looser : Stratum} {phrase : Phrase Expression}
    (derives : Derives stratum phrase) (atMost : stratum.levels ≤ looser.levels)
    (notPrimary : looser ≠ .primary) : Derives looser phrase := by
  -- Each stratum between the two holds the phrase as a chain without links.
  induction size : looser.levels generalizing looser with
  | zero =>
      rw [size, Nat.le_zero] at atMost
      cases looser with
      | level level => cases size
      | primary => exact absurd rfl notPrimary
      | unary =>
          cases stratum with
          | level level => cases atMost
          | unary => exact derives
          | primary => exact .primary derives
  | succ rank ih =>
      cases looser with
      | unary | primary => cases size
      | level level =>
          by_cases same : stratum = .level level
          · exact same ▸ derives
          · have levelsEq : (Stratum.below level).levels = rank :=
              (levels_below level).trans (Nat.succ.inj size)
            have less : stratum.levels ≤ (Stratum.below level).levels := by
              rw [levels_below]
              cases stratum with
              | unary | primary => exact Nat.zero_le _
              | level other =>
                  have different : other.rank ≠ level.rank := fun sameRank =>
                    same (congrArg Stratum.level (Precedence.rank_injective sameRank))
                  simp only [Stratum.levels] at atMost ⊢
                  omega
            have below := ih less (by cases level <;> decide) levelsEq
            have alone : Derives (.level level) (chained phrase []) :=
              .chain below (by simp) (by simp)
            rwa [chained_nil] at alone

/-- A chain with one more link. -/
theorem Derives.link {operator : BinaryOperator} {left right : Phrase Expression}
    (derivesLeft : Derives (.level (precedence operator)) left)
    (derivesRight : Derives (.below (precedence operator)) right) (place : Location) :
    ∃ phrase, Derives (.level (precedence operator)) phrase ∧
      phrase.tree = .binary operator left.tree right.tree ∧
      phrase.tokens = left.tokens ++ Token.ofSign operator.symbol place :: right.tokens := by
  cases derivesLeft with
  | @chain _ first links isFirst levels operands =>
      let last : Link := ⟨operator, place, right⟩
      refine ⟨chained first (links ++ [last]), .chain isFirst ?_ ?_, ?_, ?_⟩
      · simpa [last, or_imp, forall_and] using levels
      · simpa [last, or_imp, forall_and] using ⟨operands, derivesRight⟩
      · simp [chained, last, Link.apply]
      · simp [chained, last, Link.tokens]

/-- The tightest stratum that an expression with this node at its root may have. -/
def tightest : Expression → Stratum
  | .binary operator _ _ => .level (precedence operator)
  | .unary _ _ => .unary
  | _ => .primary

theorem tightest_levels_le {tree : Expression} {rank : Nat} (tighter : tree.BindsTighter rank) :
    (tightest tree).levels ≤ rank := by
  cases tree with
  | binary operator left right => exact tighter
  | _ => exact Nat.zero_le rank

/-- Every expression is a whole one. -/
theorem Derives.toWhole {tree : Expression} {phrase : Phrase Expression}
    (derives : Derives (tightest tree) phrase) : IsExpression phrase := by
  refine derives.loosen ?_ (by simp)
  cases tree with
  | binary operator left right => exact Nat.succ_le_succ (precedence operator).rank_le
  | _ => exact Nat.zero_le _

/-- Terminals in brackets are spelled by tokens in brackets. -/
theorem Spells.exists_bracketed {tokens : List Token} {inside : List Terminal}
    {opening closing : String}
    (spells : Spells tokens (.mark opening :: (inside ++ [.mark closing]))) :
    ∃ openingPlace middle closingPlace,
      tokens = Token.ofMark opening openingPlace ::
          (middle ++ [Token.ofMark closing closingPlace]) ∧
        Spells middle inside := by
  rcases cons_iff.mp spells with ⟨first, behind, rfl, isOpening, spellsBehind⟩
  rcases append_iff.mp spellsBehind with ⟨middle, back, rfl, spellsInside, spellsBack⟩
  rcases cons_iff.mp spellsBack with ⟨last, nothing, rfl, isClosing, spellsNothing⟩
  refine ⟨first.location, middle, last.location, ?_, spellsInside⟩
  rw [nil_iff.mp spellsNothing, ← eq_of_terminal? isOpening, ← eq_of_terminal? isClosing]

/-- What several expressions with commas between them are read from. -/
theorem exists_expressions {trees : List Expression}
    (each : ∀ tree ∈ trees, ∀ {tokens : List Token}, Spells tokens tree.yield →
      ∃ phrase, Derives (tightest tree) phrase ∧ phrase.tree = tree ∧ phrase.tokens = tokens)
    {tokens : List Token} (spells : Spells tokens (Terminal.separated (Expression.yields trees))) :
    ∃ phrases inside, (∀ phrase ∈ phrases, IsExpression phrase) ∧ Separated phrases inside ∧
      inside.tree = trees ∧ inside.tokens = tokens := by
  rw [Expression.yields_eq_map] at spells
  refine exists_separated ?_ spells
  intro tree isMember tokens spellsTree
  rcases each tree isMember spellsTree with ⟨phrase, derives, same⟩
  exact ⟨phrase, derives.toWhole, same⟩

theorem exists_quoted {token : Token} {text : String} (denotes : Denotes token (.string text)) :
    ∃ quoted place, token = ⟨.string, quoted, place⟩ ∧ text = unquoted quoted := by
  generalize same : Literal.string text = value at denotes
  cases denotes with
  | string quoted place => exact ⟨quoted, place, rfl, Literal.string.inj same⟩
  | _ => cases same

/-- What several entries with commas between them are read from. -/
theorem exists_entries {entries : List (Entry Expression)}
    (each : ∀ entry ∈ entries, ∀ {tokens : List Token}, Spells tokens entry.value.yield →
      ∃ phrase, Derives (tightest entry.value) phrase ∧ phrase.tree = entry.value ∧
        phrase.tokens = tokens)
    {tokens : List Token}
    (spells : Spells tokens (Terminal.separated (Expression.yieldsOfEntries entries))) :
    ∃ (items : List ObjectItem) (inside : Phrase (List (Entry Expression))),
      (∀ item ∈ items, IsExpression item.value) ∧
        Separated (items.map ObjectItem.phrase) inside ∧ inside.tree = entries ∧
        inside.tokens = tokens := by
  rw [Expression.yieldsOfEntries_eq_map] at spells
  have split : ∀ entry ∈ entries, ∀ tokens, Spells tokens (Expression.yieldOfEntry entry) →
      ∃ phrase : Phrase (Entry Expression),
        (∃ item : ObjectItem, IsExpression item.value ∧ phrase = item.phrase) ∧
          phrase.tree = entry ∧ phrase.tokens = tokens := by
    intro entry isMember tokens spellsEntry
    rcases Spells.cons_iff.mp spellsEntry with ⟨key, _, rfl, isKey, spellsColon⟩
    rcases Spells.cons_iff.mp spellsColon with ⟨colon, _, rfl, isColon, spellsValue⟩
    rcases each entry isMember spellsValue with ⟨value, derives, treeEq, rfl⟩
    rcases exists_quoted (eq_of_terminal? isKey) with ⟨quoted, place, rfl, keyEq⟩
    refine ⟨_, ⟨⟨quoted, place, colon.location, value⟩, derives.toWhole, rfl⟩, ?_, ?_⟩
    · rw [ObjectItem.phrase, treeEq, ← keyEq]
    · rw [eq_of_terminal? isColon]
      rfl
  rcases exists_separated split spells with ⟨phrases, inside, kinds, separated, same⟩
  rcases objectItems_of_kinds kinds with ⟨items, values, rfl⟩
  exact ⟨items, inside, values, separated, same⟩

/-- Tokens that spell the yield of a tree of the shape that is dictated are an expression with
this tree. -/
theorem exists_derivation {tree : Expression} (shaped : tree.Shaped) {tokens : List Token}
    (spells : Spells tokens tree.yield) :
    ∃ phrase, Derives (tightest tree) phrase ∧ phrase.tree = tree ∧ phrase.tokens = tokens := by
  induction shaped generalizing tokens with
  | @binary operator left right _ _ tighterLeft tighterRight ihLeft ihRight =>
      rcases Spells.append_iff.mp spells with ⟨front, back, rfl, spellsLeft, spellsBack⟩
      rcases Spells.cons_iff.mp spellsBack with ⟨sign, behind, rfl, isSign, spellsRight⟩
      rcases ihLeft spellsLeft with ⟨leftPhrase, derivesLeft, rfl, rfl⟩
      rcases ihRight spellsRight with ⟨rightPhrase, derivesRight, rfl, rfl⟩
      -- On the left the chain of the same level goes on; on the right stands an operand of the
      -- level below.
      have leftOperand : Derives (.level (precedence operator)) leftPhrase :=
        derivesLeft.loosen (tightest_levels_le tighterLeft) (by simp)
      have rightOperand : Derives (.below (precedence operator)) rightPhrase := by
        refine derivesRight.loosen ?_ (by cases operator <;> decide)
        rw [levels_below]
        exact tightest_levels_le tighterRight
      rcases leftOperand.link rightOperand sign.location with ⟨phrase, derives, treeEq, tokensEq⟩
      exact ⟨phrase, derives, treeEq, by rw [tokensEq, ← eq_of_terminal? isSign]⟩
  | @unary operator operand _ tighter ih =>
      rcases Spells.cons_iff.mp spells with ⟨sign, behind, rfl, isSign, spellsOperand⟩
      rcases ih spellsOperand with ⟨phrase, derives, rfl, rfl⟩
      have operand : Derives .unary phrase := derives.loosen (tightest_levels_le tighter) (by simp)
      exact ⟨_, .unary operator sign.location operand, rfl, by rw [← eq_of_terminal? isSign]⟩
  | literal value =>
      rcases Spells.cons_iff.mp spells with ⟨token, behind, rfl, isLiteral, spellsNothing⟩
      rw [Spells.nil_iff.mp spellsNothing]
      exact ⟨_, .literal (eq_of_terminal? isLiteral), rfl, rfl⟩
  | reference name =>
      rcases Spells.cons_iff.mp spells with ⟨token, behind, rfl, isName, spellsNothing⟩
      rw [Spells.nil_iff.mp spellsNothing, eq_of_terminal? isName]
      exact ⟨_, .reference name token.location, rfl, rfl⟩
  | property owner name =>
      rcases Spells.cons_iff.mp spells with ⟨ownerToken, _, rfl, isOwner, spells⟩
      rcases Spells.cons_iff.mp spells with ⟨point, _, rfl, isPoint, spells⟩
      rcases Spells.cons_iff.mp spells with ⟨nameToken, _, rfl, isName, spellsNothing⟩
      rw [Spells.nil_iff.mp spellsNothing, eq_of_terminal? isOwner, eq_of_terminal? isPoint,
        eq_of_terminal? isName]
      exact ⟨_, .property owner name _ _ _, rfl, rfl⟩
  | grouping _ ih =>
      rcases spells.exists_bracketed with ⟨opening, middle, closing, rfl, spellsInner⟩
      rcases ih spellsInner with ⟨phrase, derives, rfl, rfl⟩
      exact ⟨_, .grouping opening closing derives.toWhole, rfl, rfl⟩
  | array _ ih =>
      rcases spells.exists_bracketed with ⟨opening, middle, closing, rfl, spellsInside⟩
      rcases exists_expressions ih spellsInside with ⟨phrases, inside, kinds, separated, rfl, rfl⟩
      exact ⟨_, .array opening closing kinds separated, rfl, rfl⟩
  | object _ ih =>
      rcases spells.exists_bracketed with ⟨opening, middle, closing, rfl, spellsInside⟩
      rcases exists_entries ih spellsInside with ⟨items, inside, values, separated, rfl, rfl⟩
      exact ⟨_, .object opening closing values separated, rfl, rfl⟩
  | call callee _ ih =>
      rcases Spells.cons_iff.mp spells with ⟨name, _, rfl, isName, spellsBehind⟩
      rcases spellsBehind.exists_bracketed with ⟨opening, middle, closing, rfl, spellsInside⟩
      rcases exists_expressions ih spellsInside with ⟨phrases, inside, kinds, separated, rfl, rfl⟩
      rw [eq_of_terminal? isName]
      exact ⟨_, .call callee name.location opening closing kinds separated, rfl, rfl⟩

/-- Tokens are an expression with at most one tree. -/
theorem IsExpression.tree_unique {left right : Phrase Expression} (isLeft : IsExpression left)
    (isRight : IsExpression right) (same : left.tokens = right.tokens) :
    left.tree = right.tree := by
  have nothing : Ends .whole [] := ⟨rfl, rfl, fun _ _ => rfl⟩
  have readLeft := expression_takes isLeft (Nat.le_max_left left.need right.need) [] nothing
  have readRight := expression_takes isRight (Nat.le_max_right left.need right.need) [] nothing
  rw [same, readRight] at readLeft
  exact (Prod.mk.inj (Except.ok.inj readLeft)).1.symm

/-! ## Reading stops where no operator goes on -/

/-- No binary operator of a level up to a rank stands in front of the tokens. -/
def Stops (rank : Nat) (tokens : List Token) : Prop :=
  ∀ operator, (precedence operator).rank < rank →
    startsWith .operator operator.symbol tokens = false

theorem stops_zero (tokens : List Token) : Stops 0 tokens := fun _ tighter => by cases tighter

theorem stops_nil (rank : Nat) : Stops rank [] := fun _ _ => rfl

/-- Where a token is no operator of the next level either, one more level stops. -/
theorem Stops.succ {level : Precedence} {token : Token} {rest : List Token}
    (stops : Stops level.rank (token :: rest)) (none : binaryOperator? level token = none) :
    Stops (level.rank + 1) (token :: rest) := by
  intro operator atMost
  by_cases isLevel : precedence operator = level
  · rw [startsWith_cons, Bool.eq_false_iff]
    intro isSign
    have found := binaryOperator?_eq_some.mpr ⟨isLevel, Token.is_eq_true.mp isSign⟩
    rw [none] at found
    cases found
  · have different : (precedence operator).rank ≠ level.rank :=
      fun same => isLevel (Precedence.rank_injective same)
    exact stops operator (by omega)

/-- A chain stops where its operands stop and no operator of its level follows. -/
theorem chainFrom_stops {level : Precedence} {budget : Nat}
    (operands : ∀ smaller tokens tree rest,
      operand smaller level tokens = .ok (tree, rest) → Stops level.rank rest)
    {left tree : Expression} {tokens rest : List Token} (stops : Stops level.rank tokens)
    (found : chainFrom budget level left tokens = .ok (tree, rest)) :
    Stops (level.rank + 1) rest := by
  -- Each operand that is linked leaves tokens at which the levels below stop, as the first did.
  induction budget using Nat.strongRecOn generalizing left tokens with
  | ind budget ih =>
      cases tokens with
      | nil =>
          rw [chainFrom.eq_def] at found
          cases found
          exact stops_nil _
      | cons token behind =>
          rw [chainFrom_cons] at found
          cases isOperator : binaryOperator? level token with
          | none =>
              rw [isOperator] at found
              cases found
              exact stops.succ isOperator
          | some operator =>
              rw [isOperator] at found
              cases budget with
              | zero => exact absurd found fail_ne_ok
              | succ deeper =>
                  rcases bind_eq_ok.mp found with ⟨right, behind, readRight, continued⟩
                  exact ih deeper (Nat.lt_succ_self _) (operands _ _ _ _ readRight) continued

/-- What is read of a stratum stops where no operator of its levels follows. -/
theorem recogniserOf_stops {stratum : Stratum} {budget : Nat} {tokens rest : List Token}
    {tree : Expression} (found : recogniserOf budget stratum tokens = .ok (tree, rest)) :
    Stops stratum.levels rest := by
  -- The induction is on the levels, not on the budget: an operand is of the level below, and the
  -- budget that it is read with does not matter.
  induction size : stratum.levels generalizing stratum budget tokens rest tree with
  | zero => exact stops_zero rest
  | succ rank ih =>
      cases stratum with
      | unary | primary => cases size
      | level level =>
          have sizeBelow : (Stratum.below level).levels = rank :=
            (levels_below level).trans (Nat.succ.inj size)
          have operands : ∀ smaller tokens tree rest,
              operand smaller level tokens = .ok (tree, rest) → Stops level.rank rest := by
            intro smaller tokens tree rest read
            rw [operand_eq] at read
            rw [← levels_below, sizeBelow]
            exact ih read sizeBelow
          rw [recogniserOf, chain.eq_def] at found
          rcases bind_eq_ok.mp found with ⟨first, behind, readFirst, continued⟩
          rw [← size]
          exact chainFrom_stops operands (operands _ _ _ _ readFirst) continued

/-- An expression is read as the table of precedence dictates.  Its tree spells the tokens that
were taken, it has the shape that the table dictates, it is the only tree that does both, and no
binary operator follows. -/
theorem expression_follows_precedence {budget : Nat} {tokens rest : List Token}
    {tree : Expression} (read : expression budget tokens = .ok (tree, rest)) :
    (∃ taken, tokens = taken ++ rest ∧ Spells taken tree.yield) ∧
      tree.Shaped ∧
      (∀ operator : BinaryOperator, startsWith .operator operator.symbol rest = false) ∧
      ∀ other : Expression, other.Shaped → other.yield = tree.yield → other = tree := by
  rcases expression_finds budget _ _ _ read with ⟨phrase, ⟨isExpression, _⟩, rfl, rfl⟩
  have spells := isExpression.spells
  refine ⟨⟨phrase.tokens, rfl, spells⟩, isExpression.shaped.1, ?_, ?_⟩
  · intro operator
    have stops : Stops Stratum.whole.levels rest := recogniserOf_stops read
    exact stops operator (Nat.lt_succ_of_le (precedence operator).rank_le)
  · intro other shaped sameYield
    rw [← sameYield] at spells
    rcases exists_derivation shaped spells with ⟨otherPhrase, derives, rfl, sameTokens⟩
    exact derives.toWhole.tree_unique isExpression sameTokens

/-- The tokens of `a - b - -c * d == e`, with nothing of an expression behind. -/
def mixedTokens : List Token :=
  [name "a", sign "-", name "b", sign "-", sign "-", name "c", sign "*", name "d", sign "==",
    name "e", .ofMark ";" .start]
where
  name (text : String) : Token := .ofName text .start
  sign (symbol : String) : Token := .ofSign symbol .start

/-- The tree of `((a - b) - ((-c) * d)) == e`. -/
def mixedTree : Expression :=
  .binary .equal
    (.binary .subtract (.binary .subtract (.reference "a") (.reference "b"))
      (.binary .multiply (.unary .negate (.reference "c")) (.reference "d")))
    (.reference "e")

theorem mixedTokens_follow_precedence :
    expression 3 mixedTokens = .ok (mixedTree, [.ofMark ";" .start]) ∧
      mixedTree.Shaped ∧
      ∀ other : Expression, other.Shaped → other.yield = mixedTree.yield → other = mixedTree := by
  have read : expression 3 mixedTokens = .ok (mixedTree, [.ofMark ";" .start]) := by
    decide +kernel
  have follows := expression_follows_precedence read
  exact ⟨read, follows.2.1, follows.2.2.2⟩

end Grammar

end TwinSwarm
