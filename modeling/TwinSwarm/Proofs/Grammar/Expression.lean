import Mathlib.Tactic.SplitIfs
import TwinSwarm.Grammar.Expression
import TwinSwarm.Proofs.Grammar.Phrase

/-!
# The language of expressions

The grammar of expressions as an inductive relation: which tokens form an expression of
which stratum, which tree they stand for, and how much nesting they need.  The
recognisers find exactly the expressions that fit their budget
(`recogniserOf_finds`, `Derives.takes`).
-/

namespace TwinSwarm.Grammar

open Phrase Recogniser

/-! ## The grammar -/

/-- A token is a literal by itself and has this value.  A number without a point has to
fit 64 bits, and one with a point has to be a finite double. -/
inductive Denotes : Token → Literal → Prop where
  | null (location : Location) : Denotes (.ofKeyword "null" location) .null
  | boolean (word : String) (location : Location) :
      Denotes ⟨.boolean, word, location⟩ (.boolean (Token.spellsTrue word))
  | integer {text : String} {value : Int64} (location : Location) :
      '.' ∉ text.toList → Numeral.integer? text.toList = some value →
      Denotes ⟨.number, text, location⟩ (.integer value)
  | decimal {text : String} {value : Double} (location : Location) :
      '.' ∈ text.toList → Numeral.double? text.toList = some value →
      Denotes ⟨.number, text, location⟩ (.decimal value)
  | string (text : String) (location : Location) :
      Denotes ⟨.string, text, location⟩ (.string (unquoted text))

/-- The layers of the grammar of expressions. -/
inductive Stratum where
  | level (precedence : Precedence)
  | unary
  | primary
  deriving DecidableEq

namespace Stratum

/-- The stratum of whole expressions. -/
abbrev whole : Stratum := .level .disjunction

/-- The stratum of the operands of a level. -/
def below : Precedence → Stratum
  | .product => .unary
  | .sum => .level .product
  | .comparison => .level .sum
  | .equality => .level .comparison
  | .conjunction => .level .equality
  | .disjunction => .level .conjunction

/-- Induction from the innermost stratum outwards, in which a level is reached from the stratum of
its operands. -/
@[elab_as_elim]
theorem outwards {motive : Stratum → Prop} (primary : motive .primary) (unary : motive .unary)
    (level : ∀ precedence, motive (below precedence) → motive (.level precedence))
    (stratum : Stratum) : motive stratum := by
  have product := level .product unary
  have sum := level .sum product
  have comparison := level .comparison sum
  have equality := level .equality comparison
  have conjunction := level .conjunction equality
  have disjunction := level .disjunction conjunction
  cases stratum with
  | primary => exact primary
  | unary => exact unary
  | level precedence => cases precedence <;> assumption

end Stratum

/-- An operator with its right operand. -/
structure Link where
  operator : BinaryOperator
  place : Location
  operand : Phrase Expression

namespace Link

/-- The operator and the operand as tokens. -/
def tokens (link : Link) : List Token :=
  Token.ofSign link.operator.symbol link.place :: link.operand.tokens

/-- The link applied to what stands before it. -/
def apply (left : Expression) (link : Link) : Expression :=
  .binary link.operator left link.operand.tree

end Link

/-- The need of the operands of several links, the first of which is the `count`-th of its
chain.  Each operator spends one unit for the rest of the chain. -/
def linksNeed (count : Nat) : List Link → Nat
  | [] => 0
  | link :: rest => max (count + link.operand.need) (linksNeed (count + 1) rest)

/-- An operand with further operands linked to it, the operators of equal precedence
associating to the left. -/
def chained (first : Phrase Expression) (links : List Link) : Phrase Expression :=
  ⟨first.tokens ++ links.flatMap Link.tokens, links.foldl Link.apply first.tree,
    max first.need (linksNeed 1 links)⟩

/-- A string as the key of an entry of an object. -/
structure ObjectItem where
  key : String
  keyPlace : Location
  colon : Location
  value : Phrase Expression

/-- The entry as a phrase. -/
def ObjectItem.phrase (item : ObjectItem) : Phrase (Entry Expression) :=
  ⟨⟨.string, item.key, item.keyPlace⟩ :: Token.ofMark ":" item.colon :: item.value.tokens,
    ⟨unquoted item.key, item.value.tree⟩, item.value.need⟩

/-- The phrases that are expressions of a stratum. -/
inductive Derives : Stratum → Phrase Expression → Prop where
  | chain {level : Precedence} {first : Phrase Expression} {links : List Link} :
      Derives (.below level) first →
      (∀ link ∈ links, precedence link.operator = level) →
      (∀ link ∈ links, Derives (.below level) link.operand) →
      Derives (.level level) (chained first links)
  | unary (operator : UnaryOperator) (sign : Location) {operand : Phrase Expression} :
      Derives .unary operand →
      Derives .unary
        ⟨Token.ofSign operator.symbol sign :: operand.tokens, .unary operator operand.tree,
          1 + operand.need⟩
  | primary {phrase : Phrase Expression} : Derives .primary phrase → Derives .unary phrase
  | literal {token : Token} {value : Literal} :
      Denotes token value → Derives .primary ⟨[token], .literal value, 0⟩
  | reference (name : String) (place : Location) :
      Derives .primary ⟨[Token.ofName name place], .reference name, 0⟩
  | property (owner name : String) (ownerPlace point namePlace : Location) :
      Derives .primary
        ⟨[Token.ofName owner ownerPlace, Token.ofMark "." point, Token.ofName name namePlace],
          .property owner name, 0⟩
  | call (name : String) (place opening closing : Location)
      {arguments : List (Phrase Expression)} {inside : Phrase (List Expression)} :
      (∀ argument ∈ arguments, Derives .whole argument) → Separated arguments inside →
      Derives .primary
        ⟨Token.ofName name place :: Token.ofMark "(" opening ::
            (inside.tokens ++ [Token.ofMark ")" closing]),
          .call name inside.tree, 1 + inside.need⟩
  | grouping (opening closing : Location) {inside : Phrase Expression} :
      Derives .whole inside →
      Derives .primary
        ⟨Token.ofMark "(" opening :: (inside.tokens ++ [Token.ofMark ")" closing]),
          .grouping inside.tree, 1 + inside.need⟩
  | array (opening closing : Location) {elements : List (Phrase Expression)}
      {inside : Phrase (List Expression)} :
      (∀ element ∈ elements, Derives .whole element) → Separated elements inside →
      Derives .primary
        ⟨Token.ofMark "[" opening :: (inside.tokens ++ [Token.ofMark "]" closing]),
          .array inside.tree, 1 + inside.need⟩
  | object (opening closing : Location) {items : List ObjectItem}
      {inside : Phrase (List (Entry Expression))} :
      (∀ item ∈ items, Derives .whole item.value) →
      Separated (items.map ObjectItem.phrase) inside →
      Derives .primary
        ⟨Token.ofMark "\x7b" opening :: (inside.tokens ++ [Token.ofMark "\x7d" closing]),
          .object inside.tree, 1 + inside.need⟩

/-- The phrases that are expressions. -/
abbrev IsExpression : Phrase Expression → Prop := Derives .whole

/-! ## Operators and literals -/

theorem symbol_injective {left right : BinaryOperator} (same : left.symbol = right.symbol) :
    left = right := by
  revert same
  cases left <;> cases right <;> decide

theorem unarySymbol_injective {left right : UnaryOperator} (same : left.symbol = right.symbol) :
    left = right := by
  revert same
  cases left <;> cases right <;> decide

theorem binaryOperator?_eq_some {level : Precedence} {token : Token} {operator : BinaryOperator} :
    binaryOperator? level token = some operator ↔
      precedence operator = level ∧ token = Token.ofSign operator.symbol token.location := by
  constructor
  · intro found
    have accepted := List.find?_some found
    simpa [Token.is_eq_true] using accepted
  · rintro ⟨isLevel, isSign⟩
    have member : operator ∈ BinaryOperator.all := by cases operator <;> decide
    cases found : binaryOperator? level token with
    | none =>
        have refused := List.find?_eq_none.mp found operator member
        rw [isSign] at refused
        simp [isLevel, Token.is] at refused
    | some other =>
        have accepted := List.find?_some found
        rw [isSign] at accepted
        simp only [Token.is, decide_true, Bool.true_and, Bool.and_eq_true,
          decide_eq_true_eq] at accepted
        rw [symbol_injective accepted.2]

theorem unaryOperator?_eq_some {token : Token} {operator : UnaryOperator} :
    unaryOperator? token = some operator ↔
      token = Token.ofSign operator.symbol token.location := by
  constructor
  · intro found
    have accepted := List.find?_some found
    simpa [Token.is_eq_true] using accepted
  · intro isSign
    have member : operator ∈ UnaryOperator.all := by cases operator <;> decide
    cases found : unaryOperator? token with
    | none =>
        have refused := List.find?_eq_none.mp found operator member
        rw [isSign] at refused
        simp [Token.is] at refused
    | some other =>
        have accepted := List.find?_some found
        rw [isSign] at accepted
        simp only [Token.is, decide_true, Bool.true_and, decide_eq_true_eq] at accepted
        rw [unarySymbol_injective accepted]

theorem literal?_eq_ok {token : Token} {value : Literal} :
    literal? token = some (.ok value) ↔ Denotes token value := by
  constructor
  · intro found
    rcases token with ⟨kind, text, location⟩
    cases kind <;> simp only [literal?, reduceCtorEq, Option.some.injEq, Except.ok.injEq] at found
    case boolean =>
        subst found
        exact .boolean text location
    case number =>
        simp only [numberLiteral] at found
        split at found
        next point =>
          split at found
          next double isDouble =>
            cases found
            exact .decimal location point isDouble
          next => cases found
        next noPoint =>
          split at found
          next integer isInteger =>
            cases found
            exact .integer location noPoint isInteger
          next => cases found
    case string =>
        subst found
        exact .string text location
    case keyword =>
        split at found
        next isNull =>
          cases found
          subst isNull
          exact .null location
        next => cases found
  · intro denotes
    cases denotes with
    | null | boolean | string => simp [literal?]
    | integer location noPoint isInteger =>
        simp [literal?, numberLiteral, noPoint, isInteger]
    | decimal location point isDouble => simp [literal?, numberLiteral, point, isDouble]

/-! ## What is found -/

/-- The recogniser of a stratum. -/
def recogniserOf (budget : Nat) : Stratum → Recogniser Expression
  | .level level => chain budget level
  | .unary => unary budget
  | .primary => primary budget

theorem operand_eq (budget : Nat) (level : Precedence) :
    operand budget level = recogniserOf budget (.below level) := by
  cases level <;> rw [operand] <;> rfl

theorem objectEntry_finds {value : Recogniser Expression} {kind : Phrase Expression → Prop}
    (finds : value.Finds kind) :
    (objectEntry value).Finds fun phrase =>
      ∃ item : ObjectItem, kind item.value ∧ phrase = item.phrase := by
  intro tokens tree rest found
  simp only [objectEntry, bind_eq_ok, string_eq_ok, mark_eq_ok, pure_apply, Except.ok.injEq,
    Prod.mk.injEq] at found
  rcases found with ⟨key, _, ⟨quoted, keyPlace, rfl, rfl⟩, _, _, ⟨colon, rfl⟩, tree', _, parsed,
    rfl, rfl⟩
  rcases finds _ _ _ parsed with ⟨phrase, isKind, rfl, rfl⟩
  exact ⟨_, ⟨⟨quoted, keyPlace, colon, phrase⟩, isKind, rfl⟩, rfl, rfl⟩

theorem named_eq (budget : Nat) (name : String) :
    named budget name = (do
      if ← accept .punctuation "(" then
        bracketed budget ")" "after function arguments"
          (fun deeper => separatedUpTo ")" (chain deeper .disjunction)) (.call name)
      else if ← accept .punctuation "." then propertyOf name
      else return .reference name) := by
  rw [named.eq_def]
  cases budget <;> rfl

theorem primary_cons (budget : Nat) (token : Token) (tokens : List Token) :
    primary budget (token :: tokens) =
      match literal? token with
      | some (.ok value) => .ok (.literal value, tokens)
      | some (.error complaint) => .error ⟨complaint, token :: tokens⟩
      | none =>
          if token.kind = .identifier then named budget token.text tokens
          else if token.is .punctuation "(" then
            bracketed budget ")" "after expression" (chain · .disjunction) .grouping tokens
          else if token.is .punctuation "[" then
            bracketed budget "]" "after array elements"
              (fun deeper => separatedUpTo "]" (chain deeper .disjunction)) .array tokens
          else if token.is .punctuation "\x7b" then
            bracketed budget "\x7d" "after object entries"
              (fun deeper => separatedUpTo "\x7d" (objectEntry (chain deeper .disjunction)))
              .object tokens
          else .error ⟨.unexpectedInExpression, token :: tokens⟩ := by
  rw [primary.eq_def]
  simp only [bind_apply, peek_cons]
  cases literal? token with
  | some result =>
      cases result with
      | ok value => rfl
      | error complaint => rfl
  | none =>
      cases budget <;> dsimp only <;> split_ifs <;> rfl

theorem primary_name (budget : Nat) (name : String) (place : Location) (tokens : List Token) :
    primary budget (Token.ofName name place :: tokens) = named budget name tokens := by
  rw [primary_cons]
  rfl

theorem primary_parenthesis (budget : Nat) (place : Location) (tokens : List Token) :
    primary budget (Token.ofMark "(" place :: tokens) =
      bracketed budget ")" "after expression" (chain · .disjunction) .grouping tokens := by
  rw [primary_cons]
  rfl

theorem primary_bracket (budget : Nat) (place : Location) (tokens : List Token) :
    primary budget (Token.ofMark "[" place :: tokens) =
      bracketed budget "]" "after array elements"
        (fun deeper => separatedUpTo "]" (chain deeper .disjunction)) .array tokens := by
  rw [primary_cons]
  rfl

theorem primary_brace (budget : Nat) (place : Location) (tokens : List Token) :
    primary budget (Token.ofMark "\x7b" place :: tokens) =
      bracketed budget "\x7d" "after object entries"
        (fun deeper => separatedUpTo "\x7d" (objectEntry (chain deeper .disjunction)))
        .object tokens := by
  rw [primary_cons]
  rfl

theorem named_parenthesis (budget : Nat) (name : String) (place : Location)
    (tokens : List Token) :
    named budget name (Token.ofMark "(" place :: tokens) =
      bracketed budget ")" "after function arguments"
        (fun deeper => separatedUpTo ")" (chain deeper .disjunction)) (.call name) tokens := by
  rw [named_eq]
  rfl

/-- Phrases that are each of the form of an entry come from a list of entries. -/
theorem objectItems_of_kinds {kind : Phrase Expression → Prop}
    {phrases : List (Phrase (Entry Expression))}
    (kinds : ∀ phrase ∈ phrases, ∃ item : ObjectItem, kind item.value ∧ phrase = item.phrase) :
    ∃ items : List ObjectItem, (∀ item ∈ items, kind item.value) ∧
      phrases = items.map ObjectItem.phrase := by
  induction phrases with
  | nil => exact ⟨[], by simp, rfl⟩
  | cons first others ih =>
      rcases kinds first (by simp) with ⟨item, isKind, rfl⟩
      rcases ih fun phrase member => kinds phrase (List.mem_cons_of_mem _ member) with
        ⟨items, values, rfl⟩
      exact ⟨item :: items, by simpa [isKind] using values, rfl⟩

theorem named_finds {budget : Nat} {name : String} {place : Location}
    (deeper : ∀ smaller, budget = smaller + 1 →
      (chain smaller .disjunction).Finds (Within smaller IsExpression))
    {tokens : List Token} {tree : Expression} {rest : List Token}
    (found : named budget name tokens = .ok (tree, rest)) :
    ∃ phrase, Within budget (Derives .primary) phrase ∧ phrase.tree = tree ∧
      Token.ofName name place :: tokens = phrase.tokens ++ rest := by
  rw [named_eq, accept_bind_eq_ok] at found
  rcases found with ⟨opening, inside, rfl, found⟩ | ⟨_, found⟩
  · rcases bracketed_eq_ok.mp found with ⟨smaller, _, closing, rfl, parsed, rfl⟩
    rcases separatedUpTo_finds ")" (deeper smaller rfl) _ _ _ parsed with
      ⟨list, ⟨phrases, kinds, separated⟩, rfl, rfl⟩
    have fits : list.need ≤ smaller :=
      separated.need_le.mpr fun phrase member => (kinds phrase member).2
    exact ⟨_, ⟨.call name place opening closing
      (fun phrase member => (kinds phrase member).1) separated, by simp; omega⟩, rfl, by simp⟩
  · rw [accept_bind_eq_ok] at found
    rcases found with ⟨point, behind, rfl, found⟩ | ⟨_, found⟩
    · simp only [propertyOf, bind_eq_ok, identifier_eq_ok, isNext, Except.ok.injEq,
        Prod.mk.injEq] at found
      rcases found with ⟨property, _, ⟨namePlace, rfl⟩, next, _, ⟨rfl, rfl⟩, found⟩
      split at found
      · exact absurd found (by simp [fail])
      · cases found
        exact ⟨_, ⟨.property name property place point namePlace, Nat.zero_le _⟩, rfl, rfl⟩
    · cases found
      exact ⟨_, ⟨.reference name place, Nat.zero_le _⟩, rfl, rfl⟩

theorem primary_finds {budget : Nat}
    (deeper : ∀ smaller, budget = smaller + 1 →
      (chain smaller .disjunction).Finds (Within smaller IsExpression)) :
    (primary budget).Finds (Within budget (Derives .primary)) := by
  intro tokens tree rest found
  cases tokens with
  | nil => simp [primary.eq_def, peek, fail] at found
  | cons token tokens =>
      rw [primary_cons] at found
      split at found
      next value isLiteral =>
        cases found
        exact ⟨_, ⟨.literal (literal?_eq_ok.mp isLiteral), Nat.zero_le _⟩, rfl, rfl⟩
      next => cases found
      next =>
        -- A name, a parenthesis, a bracket and a brace, in the order in which they are tried.
        split_ifs at found with isName opens opens opens
        · rcases named_finds deeper found with ⟨phrase, within, treeEq, tokensEq⟩
          exact ⟨phrase, within, treeEq, by rw [Token.eq_ofName isName]; exact tokensEq⟩
        · rcases bracketed_eq_ok.mp found with ⟨smaller, _, closing, rfl, parsed, rfl⟩
          rcases deeper smaller rfl _ _ _ parsed with ⟨inside, ⟨derives, fits⟩, rfl, rfl⟩
          rw [Token.is_eq_true.mp opens]
          exact ⟨_, ⟨.grouping token.location closing derives, by simp; omega⟩, rfl, by simp⟩
        · rcases bracketed_eq_ok.mp found with ⟨smaller, _, closing, rfl, parsed, rfl⟩
          rcases separatedUpTo_finds "]" (deeper smaller rfl) _ _ _ parsed with
            ⟨inside, ⟨phrases, kinds, separated⟩, rfl, rfl⟩
          have fits : inside.need ≤ smaller :=
            separated.need_le.mpr fun phrase member => (kinds phrase member).2
          rw [Token.is_eq_true.mp opens]
          exact ⟨_, ⟨.array token.location closing
            (fun phrase member => (kinds phrase member).1) separated, by simp; omega⟩, rfl,
            by simp⟩
        · rcases bracketed_eq_ok.mp found with ⟨smaller, _, closing, rfl, parsed, rfl⟩
          rcases separatedUpTo_finds "\x7d" (objectEntry_finds (deeper smaller rfl)) _ _ _ parsed
            with ⟨inside, ⟨phrases, kinds, separated⟩, rfl, rfl⟩
          rcases objectItems_of_kinds kinds with ⟨items, values, rfl⟩
          have fits : inside.need ≤ smaller := by
            rw [separated.need_le]
            exact List.forall_mem_map.mpr fun item member => (values item member).2
          rw [Token.is_eq_true.mp opens]
          exact ⟨_, ⟨.object token.location closing
            (fun item member => (values item member).1) separated, by simp; omega⟩, rfl, by simp⟩

theorem acceptOperator_cons {α : Type} (operator? : Token → Option α) (token : Token)
    (tokens : List Token) :
    acceptOperator operator? (token :: tokens) =
      match operator? token with
      | some operator => .ok (some operator, tokens)
      | none => .ok (none, token :: tokens) := rfl

theorem unary_cons (budget : Nat) (token : Token) (tokens : List Token) :
    unary budget (token :: tokens) =
      match unaryOperator? token with
      | some operator =>
          spending budget (fun deeper => do return .unary operator (← unary deeper)) tokens
      | none => primary budget (token :: tokens) := by
  rw [unary.eq_def, bind_apply, acceptOperator_cons]
  cases unaryOperator? token with
  | none => rfl
  | some operator => cases budget <;> rfl

theorem chainFrom_cons (budget : Nat) (level : Precedence) (left : Expression) (token : Token)
    (tokens : List Token) :
    chainFrom budget level left (token :: tokens) =
      match binaryOperator? level token with
      | some operator =>
          spending budget (fun deeper => do
            let right ← operand deeper level
            chainFrom deeper level (.binary operator left right)) tokens
      | none => .ok (left, token :: tokens) := by
  rw [chainFrom.eq_def, bind_apply, acceptOperator_cons]
  cases binaryOperator? level token with
  | none => rfl
  | some operator => cases budget <;> rfl

theorem unary_finds {budget : Nat} (primaryFinds : (primary budget).Finds
      (Within budget (Derives .primary)))
    (deeper : ∀ smaller, budget = smaller + 1 →
      (unary smaller).Finds (Within smaller (Derives .unary))) :
    (unary budget).Finds (Within budget (Derives .unary)) := by
  have plain : (primary budget).Finds (Within budget (Derives .unary)) :=
    primaryFinds.mono fun phrase within => ⟨.primary within.1, within.2⟩
  intro tokens tree rest found
  cases tokens with
  | nil =>
      rw [unary.eq_def] at found
      exact plain _ _ _ found
  | cons token tokens =>
      rw [unary_cons] at found
      split at found
      next operator isOperator =>
        rcases spending_eq_ok.mp found with ⟨smaller, rfl, continued⟩
        simp only [bind_eq_ok, pure_apply, Except.ok.injEq, Prod.mk.injEq] at continued
        rcases continued with ⟨operand, _, parsed, rfl, rfl⟩
        rcases deeper smaller rfl _ _ _ parsed with ⟨phrase, ⟨derives, fits⟩, rfl, rfl⟩
        rw [unaryOperator?_eq_some.mp isOperator]
        exact ⟨_, ⟨.unary operator token.location derives, by simp; omega⟩, rfl, by simp⟩
      next => exact plain _ _ _ found

theorem linksNeed_succ_le {links : List Link} {count budget : Nat} :
    linksNeed (count + 1) links ≤ budget + 1 ↔ linksNeed count links ≤ budget := by
  induction links generalizing count with
  | nil => simp [linksNeed]
  | cons link rest ih =>
      rw [linksNeed, linksNeed, Nat.max_le, Nat.max_le, ih]
      omega

/-- What a chain consists of behind its first operand. -/
theorem chainFrom_finds {level : Precedence} {budget : Nat}
    (operands : ∀ smaller < budget,
      (operand smaller level).Finds (Within smaller (Derives (.below level))))
    {left tree : Expression} {tokens rest : List Token}
    (found : chainFrom budget level left tokens = .ok (tree, rest)) :
    ∃ links : List Link, (∀ link ∈ links, precedence link.operator = level) ∧
      (∀ link ∈ links, Derives (.below level) link.operand) ∧ linksNeed 1 links ≤ budget ∧
      links.foldl Link.apply left = tree ∧ tokens = links.flatMap Link.tokens ++ rest := by
  induction budget generalizing left tokens with
  | zero =>
      cases tokens with
      | nil =>
          rw [chainFrom.eq_def] at found
          cases found
          exact ⟨[], by simp [linksNeed]⟩
      | cons token tokens =>
          rw [chainFrom_cons] at found
          split at found
          next => exact absurd found fail_ne_ok
          next =>
            cases found
            exact ⟨[], by simp [linksNeed]⟩
  | succ smaller ih =>
      cases tokens with
      | nil =>
          rw [chainFrom.eq_def] at found
          cases found
          exact ⟨[], by simp [linksNeed]⟩
      | cons token tokens =>
          rw [chainFrom_cons] at found
          split at found
          next operator isOperator =>
            rcases binaryOperator?_eq_some.mp isOperator with ⟨isLevel, isSign⟩
            simp only [spending, bind_eq_ok] at found
            rcases found with ⟨right, middle, parsed, continued⟩
            rcases operands smaller (by omega) _ _ _ parsed with
              ⟨phrase, ⟨derives, fits⟩, rfl, rfl⟩
            rcases ih (fun less isLess => operands less (by omega)) continued with
              ⟨links, levels, operandsDerive, linksFit, treeEq, rfl⟩
            refine ⟨⟨operator, token.location, phrase⟩ :: links, ?_, ?_, ?_, treeEq, ?_⟩
            · simpa [isLevel] using levels
            · simpa [derives] using operandsDerive
            · have shifted := linksNeed_succ_le.mpr linksFit
              rw [linksNeed]
              simp only [Nat.max_le]
              omega
            · rw [isSign]
              simp [Link.tokens]
          next =>
            cases found
            exact ⟨[], by simp [linksNeed]⟩

theorem chain_finds {level : Precedence} {budget : Nat}
    (operands : ∀ smaller ≤ budget,
      (operand smaller level).Finds (Within smaller (Derives (.below level)))) :
    (chain budget level).Finds (Within budget (Derives (.level level))) := by
  intro tokens tree rest found
  rw [chain.eq_def, bind_eq_ok] at found
  rcases found with ⟨first, middle, parsed, continued⟩
  rcases operands budget (Nat.le_refl _) _ _ _ parsed with ⟨phrase, ⟨derives, fits⟩, rfl, rfl⟩
  rcases chainFrom_finds (fun smaller less => operands smaller (by omega)) continued with
    ⟨links, levels, operandsDerive, linksFit, treeEq, rfl⟩
  exact ⟨chained phrase links, ⟨.chain derives levels operandsDerive, by simp [chained]; omega⟩,
    treeEq, by simp [chained]⟩

/-- The recogniser of a stratum finds expressions of the stratum that fit its budget. -/
theorem recogniserOf_finds (budget : Nat) (stratum : Stratum) :
    (recogniserOf budget stratum).Finds (Within budget (Derives stratum)) := by
  induction budget using Nat.strongRecOn generalizing stratum with
  | ind budget ih =>
      have primaries : (primary budget).Finds (Within budget (Derives .primary)) :=
        primary_finds fun smaller equal => ih smaller (by omega) .whole
      induction stratum using Stratum.outwards with
      | primary => exact primaries
      | unary => exact unary_finds primaries fun smaller equal => ih smaller (by omega) .unary
      | level level operands =>
          apply chain_finds
          intro smaller atMost
          rw [operand_eq]
          -- The operands of a chain are known at this budget, behind an operator at those below.
          rcases Nat.lt_or_eq_of_le atMost with less | rfl
          · exact ih smaller less _
          · exact operands

theorem expression_finds (budget : Nat) :
    (expression budget).Finds (Within budget IsExpression) :=
  recogniserOf_finds budget .whole

/-! ## What is taken -/

/-- How many levels of binary operators an expression of the stratum may have outside of
brackets. -/
def Stratum.levels : Stratum → Nat
  | .level loosest => loosest.rank + 1
  | .unary | .primary => 0

theorem levels_below (level : Precedence) : (Stratum.below level).levels = level.rank := by
  cases level <;> rfl

/-- Tokens that do not continue an expression of a stratum. -/
structure Ends (stratum : Stratum) (tokens : List Token) : Prop where
  noArguments : startsWith .punctuation "(" tokens = false
  noAccess : startsWith .punctuation "." tokens = false
  noOperator : ∀ operator, (precedence operator).rank < stratum.levels →
    startsWith .operator operator.symbol tokens = false

theorem Ends.below {level : Precedence} {tokens : List Token}
    (ends : Ends (.level level) tokens) : Ends (.below level) tokens where
  noArguments := ends.noArguments
  noAccess := ends.noAccess
  noOperator operator covered := by
    rw [levels_below] at covered
    exact ends.noOperator operator (Nat.lt_succ_of_lt covered)

theorem Ends.of_mark {close : String} {tokens : List Token} {stratum : Stratum}
    (closes : startsWith .punctuation close tokens = true) (noOpening : close ≠ "(")
    (noPoint : close ≠ ".") : Ends stratum tokens where
  noArguments := startsWith_other noOpening closes
  noAccess := startsWith_other noPoint closes
  noOperator operator _ := by
    rcases startsWith_eq_true.mp closes with ⟨location, rest, rfl⟩
    simp [Token.is]

/-- An expression ends before any mark that does not go on with a name. -/
theorem Ends.before {stratum : Stratum} {text : String} (noOpening : text ≠ "(")
    (noPoint : text ≠ ".") (place : Location) (rest : List Token) :
    Ends stratum (Token.ofMark text place :: rest) :=
  .of_mark (by simp [Token.is]) noOpening noPoint

/-- The marks that close a bracket. -/
def closingBrackets : List String := [")", "]", "\x7d"]

theorem ne_of_closing {close other : String} (closing : close ∈ closingBrackets)
    (notClosing : other ∉ closingBrackets) : close ≠ other :=
  fun same => notClosing (same ▸ closing)

theorem Ends.of_endsItem {close : String} {tokens : List Token} {stratum : Stratum}
    (endsItem : EndsItem close tokens) (closing : close ∈ closingBrackets) :
    Ends stratum tokens := by
  rcases endsItem with comma | closes
  · exact .of_mark comma (by decide) (by decide)
  · exact .of_mark closes (ne_of_closing closing (by decide)) (ne_of_closing closing (by decide))

/-- An operand is followed by an operator of its chain or by what follows the chain. -/
theorem Ends.of_links {level : Precedence} {links : List Link} {rest : List Token}
    (levels : ∀ link ∈ links, precedence link.operator = level)
    (ends : Ends (.level level) rest) :
    Ends (.below level) (links.flatMap Link.tokens ++ rest) := by
  cases links with
  | nil => exact ends.below
  | cons link links =>
      refine ⟨by simp [Link.tokens, Token.is], by simp [Link.tokens, Token.is], ?_⟩
      intro operator covered
      rw [levels_below] at covered
      have different : operator ≠ link.operator := by
        rintro rfl
        rw [levels link (by simp)] at covered
        exact Nat.lt_irrefl _ covered
      have otherSymbol : link.operator.symbol ≠ operator.symbol :=
        fun same => different (symbol_injective same).symm
      simp [Link.tokens, Token.is, otherSymbol]

/-- An expression does not begin with a closing mark. -/
def Opening (token : Token) : Prop :=
  token.kind = .punctuation → token.text ∈ ["(", "[", "\x7b"]

theorem Denotes.notMark {token : Token} {value : Literal} (denotes : Denotes token value) :
    token.kind ≠ .punctuation ∧ token.kind ≠ .operator := by
  cases denotes <;> simp

theorem Derives.begins {stratum : Stratum} {phrase : Phrase Expression}
    (derives : Derives stratum phrase) :
    ∃ token others, phrase.tokens = token :: others ∧ Opening token ∧
      (stratum = .primary → token.kind ≠ .operator) := by
  induction derives with
  | chain _ _ _ ih _ =>
      rcases ih with ⟨token, others, tokensEq, opening, _⟩
      exact ⟨token, _, by rw [chained, tokensEq]; rfl, opening, by simp⟩
  | unary operator sign _ _ => exact ⟨_, _, rfl, by simp [Opening], by simp⟩
  | primary _ ih =>
      rcases ih with ⟨token, others, tokensEq, opening, _⟩
      exact ⟨token, others, tokensEq, opening, by simp⟩
  | literal denotes =>
      exact ⟨_, _, rfl, fun isMark => absurd isMark denotes.notMark.1,
        fun _ => denotes.notMark.2⟩
  | reference | property | call => exact ⟨_, _, rfl, by simp [Opening], by simp⟩
  | grouping | array | object => exact ⟨_, _, rfl, by simp [Opening], by simp⟩

theorem Derives.opensBefore {stratum : Stratum} {phrase : Phrase Expression}
    (derives : Derives stratum phrase) {close : String}
    (closing : close ∈ closingBrackets) : OpensBefore close phrase := by
  intro rest
  rcases derives.begins with ⟨token, others, tokensEq, opening, _⟩
  rw [tokensEq, List.cons_append, startsWith_cons, Bool.eq_false_iff]
  intro isClose
  rw [Token.is_eq_true.mp isClose] at opening
  have isOpening : close ∈ ["(", "[", "\x7b"] := opening rfl
  have notClosing : ∀ text ∈ ["(", "[", "\x7b"], text ∉ closingBrackets := by decide
  exact notClosing close isOpening closing

theorem ObjectItem.opensBefore (item : ObjectItem) (close : String) :
    OpensBefore close item.phrase := by
  intro rest
  simp [ObjectItem.phrase, Token.is]

theorem objectEntry_takes {value : Recogniser Expression} {item : ObjectItem}
    {before : List Token → Prop} (takes : value.Takes item.value before) :
    (objectEntry value).Takes item.phrase before := by
  intro rest isBefore
  have taken := takes rest isBefore
  simp [objectEntry, string, tokenOf, mark, demand, ObjectItem.phrase, Token.is, taken]

theorem chainFrom_takes {level : Precedence} {links : List Link} {budget : Nat}
    (levels : ∀ link ∈ links, precedence link.operator = level)
    (takes : ∀ link ∈ links, ∀ smaller, link.operand.need ≤ smaller →
      (operand smaller level).Takes link.operand (Ends (.below level)))
    (fits : linksNeed 1 links ≤ budget) (left : Expression) {rest : List Token}
    (ends : Ends (.level level) rest) :
    chainFrom budget level left (links.flatMap Link.tokens ++ rest) =
      .ok (links.foldl Link.apply left, rest) := by
  induction links generalizing budget left with
  | nil =>
      cases rest with
      | nil =>
          rw [chainFrom.eq_def]
          rfl
      | cons token rest =>
          have noOperator : binaryOperator? level token = none := by
            rw [Option.eq_none_iff_forall_not_mem]
            intro operator found
            rcases binaryOperator?_eq_some.mp found with ⟨rfl, isSign⟩
            have refused := ends.noOperator operator (Nat.lt_succ_self _)
            rw [isSign] at refused
            simp [Token.is] at refused
          rw [List.flatMap_nil, List.nil_append, chainFrom_cons, noOperator]
          rfl
  | cons link links ih =>
      rw [linksNeed, Nat.max_le] at fits
      cases budget with
      | zero => omega
      | succ smaller =>
          have operandFits : link.operand.need ≤ smaller := by omega
          -- One unit has been spent, and the links behind it are counted from one again.
          have linksFit : linksNeed 1 links ≤ smaller := linksNeed_succ_le.mp fits.2
          have levels' := fun next member => levels next (List.mem_cons_of_mem link member)
          have isOperator : binaryOperator? level (Token.ofSign link.operator.symbol link.place) =
              some link.operator :=
            binaryOperator?_eq_some.mpr ⟨levels link (by simp), rfl⟩
          have taken := takes link (by simp) smaller operandFits _ (ends.of_links levels')
          have takenLinks := ih levels'
            (fun next member => takes next (List.mem_cons_of_mem link member)) linksFit
            (.binary link.operator left link.operand.tree)
          rw [List.flatMap_cons, Link.tokens, List.append_assoc, List.cons_append,
            chainFrom_cons, isOperator]
          simp only [spending, bind_apply, taken, takenLinks]
          rfl

/-- Expressions with commas between them are taken before the mark that closes them. -/
theorem arguments_take (close : String) {budget : Nat} {phrases : List (Phrase Expression)}
    {inside : Phrase (List Expression)} (separated : Separated phrases inside)
    (derives : ∀ phrase ∈ phrases, IsExpression phrase)
    (takes : ∀ phrase ∈ phrases, (recogniserOf budget .whole).Takes phrase (Ends .whole))
    (closing : close ∈ closingBrackets) (place : Location) (rest : List Token) :
    separatedUpTo close (chain budget .disjunction)
        (inside.tokens ++ Token.ofMark close place :: rest) =
      .ok (inside.tree, Token.ofMark close place :: rest) := by
  refine separatedUpTo_takes close separated (ne_of_closing closing (by decide)) ?_ ?_ _
    (by simp [Token.is])
  · exact fun phrase member => (takes phrase member).mono
      fun rest endsItem => .of_endsItem endsItem closing
  · exact fun phrase member => (derives phrase member).opensBefore closing

/-- A recogniser takes every expression of its stratum that fits its budget. -/
theorem Derives.takes {stratum : Stratum} {phrase : Phrase Expression}
    (derives : Derives stratum phrase) (budget : Nat) (fits : phrase.need ≤ budget) :
    (recogniserOf budget stratum).Takes phrase (Ends stratum) := by
  -- Brackets and prefix operators leave one unit less to what is inside, so the budget varies.
  induction derives generalizing budget with
  | @chain level first links _ levels _ ih ihLinks =>
      intro rest ends
      simp only [chained, Nat.max_le] at fits
      have taken := ih budget fits.1 _ (ends.of_links levels)
      have takenLinks := chainFrom_takes levels
        (fun link member smaller => by rw [operand_eq]; exact ihLinks link member smaller)
        fits.2 first.tree ends
      rw [recogniserOf, chain.eq_def, bind_apply, operand_eq]
      simp only [chained, List.append_assoc, taken, takenLinks]
  | unary operator sign _ ih =>
      intro rest ends
      cases budget with
      | zero => simp at fits
      | succ smaller =>
          have taken := ih smaller (by simp at fits; omega) rest ends
          have isOperator : unaryOperator? (Token.ofSign operator.symbol sign) = some operator :=
            unaryOperator?_eq_some.mpr rfl
          rw [List.cons_append, recogniserOf, unary_cons, isOperator]
          simp only [recogniserOf] at taken
          simp [spending, taken]
  | primary derives ih =>
      intro rest ends
      rcases derives.begins with ⟨token, others, tokensEq, _, noOperator⟩
      have taken := ih budget fits rest ⟨ends.noArguments, ends.noAccess, by simp [Stratum.levels]⟩
      -- A primary expression does not begin like a prefix operator, so none is tried.
      have noUnary : unaryOperator? token = none := by
        rw [Option.eq_none_iff_forall_not_mem]
        intro operator found
        exact noOperator rfl (by rw [unaryOperator?_eq_some.mp found])
      rw [tokensEq, List.cons_append] at taken ⊢
      rw [recogniserOf, unary_cons, noUnary]
      exact taken
  | literal denotes =>
      intro rest _
      rw [recogniserOf, List.cons_append, primary_cons, literal?_eq_ok.mpr denotes]
      rfl
  | reference name place =>
      intro rest ends
      rw [recogniserOf, List.cons_append, primary_name]
      simp [named_eq, accept, ends.noArguments, ends.noAccess]
  | property owner name ownerPlace point namePlace =>
      intro rest ends
      rw [recogniserOf, List.cons_append, primary_name]
      simp [named_eq, accept, Token.is, propertyOf, identifier, tokenOf, isNext,
        ends.noAccess]
  | @call name place opening closing arguments inside derives separated ih =>
      intro rest _
      cases budget with
      | zero => simp at fits
      | succ smaller =>
          have insideFits : inside.need ≤ smaller := by simp at fits; omega
          have taken := arguments_take ")" separated derives
            (fun argument member => ih argument member smaller
              (separated.need_le.mp insideFits argument member))
            (by decide) closing rest
          rw [List.cons_append, recogniserOf, primary_name, List.cons_append, named_parenthesis,
            List.append_assoc]
          apply bracketed_of_inside
          exact taken
  | @grouping opening closing inside _ ih =>
      intro rest _
      cases budget with
      | zero => simp at fits
      | succ smaller =>
          have taken := ih smaller (by simp at fits; omega) (Token.ofMark ")" closing :: rest)
            (.before (by decide) (by decide) closing rest)
          rw [List.cons_append, recogniserOf, primary_parenthesis, List.append_assoc]
          apply bracketed_of_inside
          exact taken
  | @array opening closing elements inside derives separated ih =>
      intro rest _
      cases budget with
      | zero => simp at fits
      | succ smaller =>
          have insideFits : inside.need ≤ smaller := by simp at fits; omega
          have taken := arguments_take "]" separated derives
            (fun element member => ih element member smaller
              (separated.need_le.mp insideFits element member))
            (by decide) closing rest
          rw [List.cons_append, recogniserOf, primary_bracket, List.append_assoc]
          apply bracketed_of_inside
          exact taken
  | @object opening closing items inside derives separated ih =>
      intro rest _
      cases budget with
      | zero => simp at fits
      | succ smaller =>
          have insideFits : inside.need ≤ smaller := by simp at fits; omega
          have itemsFit := separated.need_le.mp insideFits
          have taken := separatedUpTo_takes "\x7d" separated (by decide)
            (List.forall_mem_map.mpr fun item member => objectEntry_takes
              ((ih item member smaller (itemsFit _ (List.mem_map_of_mem member))).mono
                fun rest endsItem => .of_endsItem endsItem (by decide)))
            (List.forall_mem_map.mpr fun item member => item.opensBefore _)
            (Token.ofMark "\x7d" closing :: rest) (by simp [Token.is])
          rw [List.cons_append, recogniserOf, primary_brace, List.append_assoc]
          apply bracketed_of_inside
          exact taken

theorem expression_takes {phrase : Phrase Expression} (isExpression : IsExpression phrase)
    {budget : Nat} (fits : phrase.need ≤ budget) :
    (expression budget).Takes phrase (Ends .whole) :=
  Derives.takes isExpression budget fits

end TwinSwarm.Grammar
