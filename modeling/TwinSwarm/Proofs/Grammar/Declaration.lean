import TwinSwarm.Grammar.Declaration
import TwinSwarm.Proofs.Grammar.Statement

/-!
# The language of declarations

The grammar of declarations and of the items of twins and swarms.  None of them spends
any nesting, so the need of a declaration is the largest need of an expression or a
block in it.  What stands behind a keyword is a phrase of its own, which carries the
place of the keyword.
-/

namespace TwinSwarm.Grammar

open Phrase Recogniser

variable {α β : Type}

/-! ## The grammar -/

/-- A phrase behind the keyword that says what it is. -/
def behind (word : String) (place : Location) (make : α → β) (phrase : Phrase α) : Phrase β :=
  ⟨Token.ofKeyword word place :: phrase.tokens, make phrase.tree, phrase.need⟩

/-- A phrase with the semicolon that ends it. -/
def ended (final : Location) (phrase : Phrase α) : Phrase α :=
  ⟨phrase.tokens ++ [Token.ofMark ";" final], phrase.tree, phrase.need⟩

/-- Items in braces, which spend nothing. -/
def enclosed (opening closing : Location) (items : List (Phrase α)) : Phrase (List α) :=
  ⟨Token.ofMark "\x7b" opening :: ((succession items).tokens ++ [Token.ofMark "\x7d" closing]),
    (succession items).tree, (succession items).need⟩

/-- A name by itself. -/
inductive IsName : Phrase String → Prop where
  | intro (name : String) (place : Location) : IsName ⟨[Token.ofName name place], name, 0⟩

/-- A string by itself. -/
inductive IsString : Phrase String → Prop where
  | intro (quoted : String) (place : Location) :
      IsString ⟨[⟨.string, quoted, place⟩], unquoted quoted, 0⟩

/-- A name and a type with a colon between them. -/
def typed (name type : String) (namePlace colon typePlace : Location) : List Token :=
  [Token.ofName name namePlace, Token.ofMark ":" colon, Token.ofName type typePlace]

/-- A property behind its keyword. -/
inductive IsProperty (place : Location) : Phrase PropertyItem → Prop where
  | intro (name type : String) (namePlace colon typePlace final : Location)
      {value : Phrase (Option Expression)} :
      Optionally .operator "=" IsExpression value →
      IsProperty place
        ⟨typed name type namePlace colon typePlace ++
            (value.tokens ++ [Token.ofMark ";" final]),
          ⟨name, type, value.tree, place⟩, value.need⟩

/-- A key and a value of a configuration. -/
inductive IsSetting : Phrase (Entry Expression) → Prop where
  | intro (key : String) (place colon : Location) {value : Phrase Expression} :
      IsExpression value →
      IsSetting
        ⟨Token.ofName key place :: Token.ofMark ":" colon :: value.tokens, ⟨key, value.tree⟩,
          value.need⟩

/-- A sensor or an actuator behind its keyword. -/
inductive IsDevice (place : Location) : Phrase Device → Prop where
  | bare (name type : String) (namePlace colon typePlace final : Location) :
      IsDevice place
        ⟨typed name type namePlace colon typePlace ++ [Token.ofMark ";" final],
          ⟨name, type, [], place⟩, 0⟩
  | configured (name type : String) (namePlace colon typePlace opening closing : Location)
      {settings : List (Phrase (Entry Expression))}
      {inside : Phrase (List (Entry Expression))} :
      (∀ setting ∈ settings, IsSetting setting) → Listed settings inside →
      IsDevice place
        ⟨typed name type namePlace colon typePlace ++
            Token.ofMark "\x7b" opening :: (inside.tokens ++ [Token.ofMark "\x7d" closing]),
          ⟨name, type, inside.tree, place⟩, inside.need⟩

/-- A reference to an action. -/
inductive IsReference (place : Location) : Phrase ActionReference → Prop where
  | plain (name : String) (namePlace : Location) :
      IsReference place ⟨[Token.ofName name namePlace], ⟨name, [], place⟩, 0⟩
  | applied (name : String) (namePlace : Location) {arguments : Phrase (List Expression)} :
      IsArguments arguments →
      IsReference place
        ⟨Token.ofName name namePlace :: arguments.tokens, ⟨name, arguments.tree, place⟩,
          arguments.need⟩

/-- A transition behind its keyword. -/
inductive IsTransition (place : Location) : Phrase Transition → Prop where
  | intro (target : String) (targetPlace final : Location)
      {condition : Phrase (Option Expression)} :
      Optionally .keyword "when" IsExpression condition →
      IsTransition place
        ⟨Token.ofName target targetPlace :: (condition.tokens ++ [Token.ofMark ";" final]),
          ⟨target, condition.tree, place⟩, condition.need⟩

/-- A clause of a state. -/
inductive IsClause : Phrase StateClause → Prop where
  | entry (place final : Location) {reference : Phrase ActionReference} :
      IsReference place reference →
      IsClause (behind "entry" place .entry (ended final reference))
  | exit (place final : Location) {reference : Phrase ActionReference} :
      IsReference place reference →
      IsClause (behind "exit" place .exit (ended final reference))
  | transition (place : Location) {item : Phrase Transition} :
      IsTransition place item → IsClause (behind "transition" place .transition item)

/-- A state behind its keyword. -/
inductive IsState (place : Location) : Phrase StateItem → Prop where
  | intro (name : String) (namePlace opening closing : Location)
      {clauses : List (Phrase StateClause)} :
      (∀ clause ∈ clauses, IsClause clause) →
      IsState place
        ⟨Token.ofName name namePlace :: (enclosed opening closing clauses).tokens,
          { name
            entryActions := (clauses.map tree).filterMap StateClause.entry?
            exitActions := (clauses.map tree).filterMap StateClause.exit?
            transitions := (clauses.map tree).filterMap StateClause.transition?
            location := place },
          (enclosed opening closing clauses).need⟩

/-- An item of a twin. -/
inductive IsTwinItem : Phrase TwinItem → Prop where
  | property (place : Location) {item : Phrase PropertyItem} :
      IsProperty place item → IsTwinItem (behind "property" place .property item)
  | sensor (place : Location) {item : Phrase Device} :
      IsDevice place item → IsTwinItem (behind "sensor" place .sensor item)
  | actuator (place : Location) {item : Phrase Device} :
      IsDevice place item → IsTwinItem (behind "actuator" place .actuator item)
  | state (place : Location) {item : Phrase StateItem} :
      IsState place item → IsTwinItem (behind "state" place .state item)

/-- A twin behind its keyword. -/
inductive IsTwin (place : Location) : Phrase Twin → Prop where
  | intro (name : String) (namePlace opening closing : Location)
      {parent : Phrase (Option String)} {items : List (Phrase TwinItem)} :
      Optionally .keyword "extends" IsName parent → (∀ item ∈ items, IsTwinItem item) →
      IsTwin place
        ⟨Token.ofName name namePlace ::
            (parent.tokens ++ (enclosed opening closing items).tokens),
          { name
            parent := parent.tree
            properties := (items.map tree).filterMap TwinItem.property?
            sensors := (items.map tree).filterMap TwinItem.sensor?
            actuators := (items.map tree).filterMap TwinItem.actuator?
            states := (items.map tree).filterMap TwinItem.state?
            location := place },
          (enclosed opening closing items).need⟩

/-- A number of instances and the bracket behind it. -/
inductive IsCount : Phrase Int64 → Prop where
  | intro {text : String} {count : Int64} (place closing : Location) :
      '.' ∉ text.toList → Numeral.integer? text.toList = some count →
      IsCount ⟨[⟨.number, text, place⟩, Token.ofMark "]" closing], count, 0⟩

/-- A reference to a twin behind its keyword. -/
inductive IsTwinReference (place : Location) : Phrase TwinReference → Prop where
  | intro (type : String) (typePlace final : Location) {instanceName : Phrase (Option String)}
      {count : Phrase (Option Int64)} :
      Optionally .keyword "as" IsName instanceName →
      Optionally .punctuation "[" IsCount count →
      IsTwinReference place
        ⟨Token.ofName type typePlace ::
            (instanceName.tokens ++ (count.tokens ++ [Token.ofMark ";" final])),
          ⟨type, instanceName.tree, count.tree, place⟩, 0⟩

/-- A reference to a rule behind its keyword. -/
inductive IsRuleReference (place : Location) : Phrase RuleReference → Prop where
  | intro (name : String) (namePlace final : Location) :
      IsRuleReference place
        ⟨[Token.ofName name namePlace, Token.ofMark ";" final], ⟨name, place⟩, 0⟩

/-- A member of a swarm. -/
inductive IsMember : Phrase SwarmMember → Prop where
  | twin (place : Location) {reference : Phrase TwinReference} :
      IsTwinReference place reference → IsMember (behind "twin" place .twin reference)
  | rule (place : Location) {reference : Phrase RuleReference} :
      IsRuleReference place reference → IsMember (behind "rule" place .rule reference)

/-- A swarm behind its keyword. -/
inductive IsSwarm (place : Location) : Phrase Swarm → Prop where
  | intro (name : String) (namePlace opening closing : Location)
      {members : List (Phrase SwarmMember)} :
      (∀ member ∈ members, IsMember member) →
      IsSwarm place
        ⟨Token.ofName name namePlace :: (enclosed opening closing members).tokens,
          { name
            twins := (members.map tree).filterMap SwarmMember.twin?
            rules := (members.map tree).filterMap SwarmMember.rule?
            location := place },
          0⟩

/-- A parameter, which stands at the place of its name. -/
inductive IsParameter : Phrase Parameter → Prop where
  | intro (name type : String) (place colon typePlace : Location) :
      IsParameter ⟨typed name type place colon typePlace, ⟨name, type, place⟩, 0⟩

/-- Parameters in parentheses, or nothing. -/
inductive IsParameters : Phrase (List Parameter) → Prop where
  | absent : IsParameters ⟨[], [], 0⟩
  | present (opening closing : Location) {parameters : List (Phrase Parameter)}
      {inside : Phrase (List Parameter)} :
      (∀ parameter ∈ parameters, IsParameter parameter) → Separated parameters inside →
      IsParameters
        ⟨Token.ofMark "(" opening :: (inside.tokens ++ [Token.ofMark ")" closing]),
          inside.tree, 0⟩

/-- An event behind its keyword. -/
inductive IsEvent (place : Location) : Phrase Event → Prop where
  | intro (name : String) (namePlace final : Location) {parameters : Phrase (List Parameter)} :
      IsParameters parameters →
      IsEvent place
        ⟨Token.ofName name namePlace :: (parameters.tokens ++ [Token.ofMark ";" final]),
          ⟨name, parameters.tree, place⟩, 0⟩

/-- An action behind its keyword. -/
inductive IsAction (place : Location) : Phrase Action → Prop where
  | intro (name : String) (namePlace : Location) {parameters : Phrase (List Parameter)}
      {body : Phrase (List Statement)} :
      IsParameters parameters → IsBlock body →
      IsAction place
        ⟨Token.ofName name namePlace :: (parameters.tokens ++ body.tokens),
          ⟨name, parameters.tree, body.tree, place⟩, body.need⟩

/-- A rule behind its keyword. -/
inductive IsRule (place : Location) : Phrase Rule → Prop where
  | intro (name : String) (namePlace opening whenPlace middle thenPlace closing : Location)
      {condition : Phrase Expression} {actions : Phrase (List Statement)} :
      IsExpression condition → IsBlock actions →
      IsRule place
        ⟨Token.ofName name namePlace :: Token.ofMark "\x7b" opening ::
            Token.ofKeyword "when" whenPlace ::
            (condition.tokens ++ Token.ofMark ";" middle :: Token.ofKeyword "then" thenPlace ::
              (actions.tokens ++ [Token.ofMark "\x7d" closing])),
          ⟨name, some condition.tree, actions.tree, place⟩, max condition.need actions.need⟩

/-- An import behind its keyword. -/
inductive IsImport (place : Location) : Phrase Import → Prop where
  | intro (name : String) (namePlace final : Location) {path : Phrase (Option String)} :
      Optionally .keyword "from" IsString path →
      IsImport place
        ⟨Token.ofName name namePlace :: (path.tokens ++ [Token.ofMark ";" final]),
          ⟨name, path.tree, place⟩, 0⟩

/-- The phrases that are declarations. -/
inductive IsDeclaration : Phrase Declaration → Prop where
  | twin (place : Location) {item : Phrase Twin} :
      IsTwin place item → IsDeclaration (behind "twin" place .twin item)
  | swarm (place : Location) {item : Phrase Swarm} :
      IsSwarm place item → IsDeclaration (behind "swarm" place .swarm item)
  | event (place : Location) {item : Phrase Event} :
      IsEvent place item → IsDeclaration (behind "event" place .event item)
  | action (place : Location) {item : Phrase Action} :
      IsAction place item → IsDeclaration (behind "action" place .action item)
  | rule (place : Location) {item : Phrase Rule} :
      IsRule place item → IsDeclaration (behind "rule" place .rule item)
  | imported (place : Location) {item : Phrase Import} :
      IsImport place item → IsDeclaration (behind "import" place .imported item)

/-! ## What is found -/

section Finds

variable {budget : Nat} {place : Location} {tokens rest : List Token}

/-- What a branch finds behind the keyword that selects it. -/
theorem branch_finds {recogniser : Recogniser α} {inside : Phrase α → Prop} {make : α → β}
    {tree : β} (finds : recogniser.Finds (Within budget inside)) (word : String)
    (place : Location)
    (found : (recogniser >>= fun value => pure (make value)) tokens = .ok (tree, rest)) :
    ∃ phrase, Within budget inside phrase ∧ (behind word place make phrase).tree = tree ∧
      Token.ofKeyword word place :: tokens = (behind word place make phrase).tokens ++ rest := by
  simp only [bind_eq_ok, pure_apply, Except.ok.injEq, Prod.mk.injEq] at found
  rcases found with ⟨value, _, parsed, rfl, rfl⟩
  rcases finds _ _ _ parsed with ⟨phrase, isInside, rfl, rfl⟩
  exact ⟨phrase, isInside, rfl, rfl⟩

/-- Items that are read up to the closing brace are the items of an enclosed list. -/
theorem enclosed_finds {item : Recogniser α} {kind : Phrase α → Prop} {trees : List α}
    (finds : item.Finds (Within budget kind)) (opening closing : Location)
    (found : repeatedUpTo "\x7d" item tokens =
      .ok (trees, Token.ofMark "\x7d" closing :: rest)) :
    ∃ items, (∀ phrase ∈ items, kind phrase) ∧
      (enclosed opening closing items).need ≤ budget ∧ trees = items.map tree ∧
      Token.ofMark "\x7b" opening :: tokens =
        (enclosed opening closing items).tokens ++ rest := by
  rcases repeatedUpTo_finds "\x7d" finds _ _ _ found with ⟨_, ⟨items, kinds, rfl⟩, rfl, rfl⟩
  have fits : (succession items).need ≤ budget :=
    succession_need_le.mpr fun phrase member => (kinds phrase member).2
  exact ⟨items, fun phrase member => (kinds phrase member).1, fits, rfl, by simp [enclosed]⟩

theorem name_finds (budget : Nat) (site : String) :
    (identifier site).Finds (Within budget IsName) := by
  intro tokens tree rest found
  rcases identifier_eq_ok.mp found with ⟨place, rfl⟩
  exact ⟨_, ⟨.intro tree place, Nat.zero_le _⟩, rfl, rfl⟩

end Finds

theorem propertyItem_eq (budget : Nat) (place : Location) :
    propertyItem budget place = (do
      let name ← identifier "after 'property'"
      mark ":" "after property name"
      let type ← identifier "as property type"
      let value ← optionally .operator "=" (expression budget)
      semicolon "after property declaration"
      return ⟨name, type, value, place⟩) := by
  simp only [propertyItem, optionally_bind]

theorem propertyItem_finds (budget : Nat) (place : Location) :
    (propertyItem budget place).Finds (Within budget (IsProperty place)) := by
  intro tokens tree rest found
  rw [propertyItem_eq] at found
  simp only [bind_eq_ok, identifier_eq_ok, mark_eq_ok, semicolon_eq_ok, pure_apply,
    Except.ok.injEq, Prod.mk.injEq] at found
  rcases found with ⟨name, _, ⟨namePlace, rfl⟩, _, _, ⟨colon, rfl⟩, type, _, ⟨typePlace, rfl⟩,
    _, _, parsed, _, _, ⟨final, rfl⟩, rfl, rfl⟩
  rcases optionally_finds (expression_finds budget) _ _ _ parsed with
    ⟨value, ⟨isValue, fits⟩, rfl, rfl⟩
  exact ⟨_, ⟨.intro name type namePlace colon typePlace final isValue, fits⟩, rfl,
    by simp [typed]⟩

theorem setting_finds (budget : Nat) : (setting budget).Finds (Within budget IsSetting) := by
  intro tokens tree rest found
  simp only [setting, bind_eq_ok, identifier_eq_ok, mark_eq_ok, pure_apply, Except.ok.injEq,
    Prod.mk.injEq] at found
  rcases found with ⟨key, _, ⟨place, rfl⟩, _, _, ⟨colon, rfl⟩, _, _, parsed, rfl, rfl⟩
  rcases expression_finds budget _ _ _ parsed with ⟨value, ⟨isValue, fits⟩, rfl, rfl⟩
  exact ⟨_, ⟨.intro key place colon isValue, fits⟩, rfl, rfl⟩

/-- What follows the type of a device. -/
def configuration (budget : Nat) (word name type : String) (place : Location) :
    Recogniser Device := do
  if ← accept .punctuation "\x7b" then
    let configuration ← listedUpTo "\x7d" (setting budget)
    mark "\x7d" ("after " ++ word ++ " configuration")
    return ⟨name, type, configuration, place⟩
  else
    demand .punctuation ";" (.deviceEnd word)
    return ⟨name, type, [], place⟩

theorem device_eq (budget : Nat) (word : String) (place : Location) :
    device budget word place = (do
      let name ← identifier ("after '" ++ word ++ "'")
      mark ":" ("after " ++ word ++ " name")
      let type ← identifier ("as " ++ word ++ " type")
      configuration budget word name type place) := rfl

theorem device_finds (budget : Nat) (word : String) (place : Location) :
    (device budget word place).Finds (Within budget (IsDevice place)) := by
  intro tokens tree rest found
  simp only [device_eq, bind_eq_ok, identifier_eq_ok, mark_eq_ok] at found
  rcases found with ⟨name, _, ⟨namePlace, rfl⟩, _, _, ⟨colon, rfl⟩, type, _, ⟨typePlace, rfl⟩,
    found⟩
  rw [configuration, accept_bind_eq_ok] at found
  rcases found with ⟨opening, _, rfl, found⟩ | ⟨_, found⟩
  · simp only [bind_eq_ok, mark_eq_ok, pure_apply, Except.ok.injEq, Prod.mk.injEq] at found
    rcases found with ⟨_, _, parsed, _, _, ⟨closing, rfl⟩, rfl, rfl⟩
    rcases listedUpTo_finds "\x7d" (setting_finds budget) _ _ _ parsed with
      ⟨inside, ⟨settings, kinds, listed⟩, rfl, rfl⟩
    have fits : inside.need ≤ budget :=
      listed.need_le.mpr fun phrase member => (kinds phrase member).2
    exact ⟨_, ⟨.configured name type namePlace colon typePlace opening closing
      (fun phrase member => (kinds phrase member).1) listed, fits⟩, rfl, by simp [typed]⟩
  · simp only [bind_eq_ok, demand_eq_ok, pure_apply, Except.ok.injEq, Prod.mk.injEq] at found
    rcases found with ⟨_, _, ⟨final, rfl⟩, rfl, rfl⟩
    exact ⟨_, ⟨.bare name type namePlace colon typePlace final, Nat.zero_le _⟩, rfl,
      by simp [typed]⟩

theorem actionReference_finds (budget : Nat) (place : Location) :
    (actionReference budget place).Finds (Within budget (IsReference place)) := by
  intro tokens tree rest found
  rw [actionReference, bind_eq_ok] at found
  rcases found with ⟨name, _, isName, found⟩
  rcases identifier_eq_ok.mp isName with ⟨namePlace, rfl⟩
  rw [accept_bind_eq_ok] at found
  rcases found with ⟨opening, _, rfl, found⟩ | ⟨_, found⟩
  · simp only [bind_eq_ok, mark_eq_ok, pure_apply, Except.ok.injEq, Prod.mk.injEq] at found
    rcases found with ⟨_, _, parsed, _, _, ⟨closing, rfl⟩, rfl, rfl⟩
    rcases arguments_finds opening closing parsed with
      ⟨arguments, ⟨isArguments, fits⟩, rfl, tokensEq⟩
    exact ⟨_, ⟨.applied name namePlace isArguments, fits⟩, rfl, by rw [tokensEq]; rfl⟩
  · cases found
    exact ⟨_, ⟨.plain name namePlace, Nat.zero_le _⟩, rfl, rfl⟩

theorem transition_eq (budget : Nat) (place : Location) :
    transition budget place = (do
      let target ← identifier "as transition target"
      let condition ← optionally .keyword "when" (expression budget)
      semicolon "after transition"
      return ⟨target, condition, place⟩) := by
  simp only [transition, optionally_bind]

theorem transition_finds (budget : Nat) (place : Location) :
    (transition budget place).Finds (Within budget (IsTransition place)) := by
  intro tokens tree rest found
  rw [transition_eq] at found
  simp only [bind_eq_ok, identifier_eq_ok, semicolon_eq_ok, pure_apply, Except.ok.injEq,
    Prod.mk.injEq] at found
  rcases found with ⟨target, _, ⟨targetPlace, rfl⟩, _, _, parsed, _, _, ⟨final, rfl⟩, rfl, rfl⟩
  rcases optionally_finds (expression_finds budget) _ _ _ parsed with
    ⟨condition, ⟨isCondition, fits⟩, rfl, rfl⟩
  exact ⟨_, ⟨.intro target targetPlace final isCondition, fits⟩, rfl, by simp⟩

/-- A reference with the semicolon that ends its clause. -/
theorem endedReference_finds {budget : Nat} {place : Location} {site : String}
    {make : ActionReference → β} (word : String) {tokens rest : List Token} {tree : β}
    (found : (actionReference budget place >>= fun reference =>
      semicolon site >>= fun _ => pure (make reference)) tokens = .ok (tree, rest)) :
    ∃ final reference, Within budget (IsReference place) reference ∧
      (behind word place make (ended final reference)).tree = tree ∧
      Token.ofKeyword word place :: tokens =
        (behind word place make (ended final reference)).tokens ++ rest := by
  simp only [bind_eq_ok, semicolon_eq_ok, pure_apply, Except.ok.injEq, Prod.mk.injEq] at found
  rcases found with ⟨_, _, parsed, _, _, ⟨final, rfl⟩, rfl, rfl⟩
  rcases actionReference_finds budget place _ _ _ parsed with ⟨reference, isReference, rfl, rfl⟩
  exact ⟨final, reference, isReference, rfl, by simp [behind, ended]⟩

theorem stateClause_finds (budget : Nat) :
    (stateClause budget).Finds (Within budget IsClause) := by
  intro tokens tree rest found
  rw [stateClause, here_bind, accept_bind_eq_ok] at found
  rcases found with ⟨place, _, rfl, found⟩ | ⟨_, found⟩
  · rcases endedReference_finds "entry" found with ⟨final, reference, ⟨isReference, fits⟩, same⟩
    exact ⟨_, ⟨.entry place final isReference, fits⟩, same⟩
  rw [accept_bind_eq_ok] at found
  rcases found with ⟨place, _, rfl, found⟩ | ⟨_, found⟩
  · rcases endedReference_finds "exit" found with ⟨final, reference, ⟨isReference, fits⟩, same⟩
    exact ⟨_, ⟨.exit place final isReference, fits⟩, same⟩
  rw [accept_bind_eq_ok] at found
  rcases found with ⟨place, _, rfl, found⟩ | ⟨_, found⟩
  · rcases branch_finds (transition_finds budget place) "transition" place found with
      ⟨item, ⟨isItem, fits⟩, same⟩
    exact ⟨_, ⟨.transition place isItem, fits⟩, same⟩
  simp [fail] at found

theorem stateItem_finds (budget : Nat) (place : Location) :
    (stateItem budget place).Finds (Within budget (IsState place)) := by
  intro tokens tree rest found
  simp only [stateItem, bind_eq_ok, identifier_eq_ok, mark_eq_ok, pure_apply, Except.ok.injEq,
    Prod.mk.injEq] at found
  rcases found with ⟨name, _, ⟨namePlace, rfl⟩, _, _, ⟨opening, rfl⟩, _, _, parsed, _, _,
    ⟨closing, rfl⟩, rfl, rfl⟩
  rcases enclosed_finds (stateClause_finds budget) opening closing parsed with
    ⟨clauses, kinds, fits, rfl, tokensEq⟩
  exact ⟨_, ⟨.intro name namePlace opening closing kinds, fits⟩, rfl, by rw [tokensEq]; rfl⟩

theorem twinItem_finds (budget : Nat) : (twinItem budget).Finds (Within budget IsTwinItem) := by
  intro tokens tree rest found
  rw [twinItem, here_bind, accept_bind_eq_ok] at found
  rcases found with ⟨place, _, rfl, found⟩ | ⟨_, found⟩
  · rcases branch_finds (propertyItem_finds budget place) "property" place found with
      ⟨item, ⟨isItem, fits⟩, same⟩
    exact ⟨_, ⟨.property place isItem, fits⟩, same⟩
  rw [accept_bind_eq_ok] at found
  rcases found with ⟨place, _, rfl, found⟩ | ⟨_, found⟩
  · rcases branch_finds (device_finds budget "sensor" place) "sensor" place found with
      ⟨item, ⟨isItem, fits⟩, same⟩
    exact ⟨_, ⟨.sensor place isItem, fits⟩, same⟩
  rw [accept_bind_eq_ok] at found
  rcases found with ⟨place, _, rfl, found⟩ | ⟨_, found⟩
  · rcases branch_finds (device_finds budget "actuator" place) "actuator" place found with
      ⟨item, ⟨isItem, fits⟩, same⟩
    exact ⟨_, ⟨.actuator place isItem, fits⟩, same⟩
  rw [accept_bind_eq_ok] at found
  rcases found with ⟨place, _, rfl, found⟩ | ⟨_, found⟩
  · rcases branch_finds (stateItem_finds budget place) "state" place found with
      ⟨item, ⟨isItem, fits⟩, same⟩
    exact ⟨_, ⟨.state place isItem, fits⟩, same⟩
  simp [fail] at found

theorem twin_finds (budget : Nat) (place : Location) :
    (twin budget place).Finds (Within budget (IsTwin place)) := by
  intro tokens tree rest found
  simp only [twin, bind_eq_ok, identifier_eq_ok, mark_eq_ok, pure_apply, Except.ok.injEq,
    Prod.mk.injEq] at found
  rcases found with ⟨name, _, ⟨namePlace, rfl⟩, _, _, parsedParent, _, _, ⟨opening, rfl⟩, _, _,
    parsed, _, _, ⟨closing, rfl⟩, rfl, rfl⟩
  rcases optionally_finds (name_finds budget _) _ _ _ parsedParent with
    ⟨parent, ⟨isParent, _⟩, rfl, rfl⟩
  rcases enclosed_finds (twinItem_finds budget) opening closing parsed with
    ⟨items, kinds, fits, rfl, tokensEq⟩
  exact ⟨_, ⟨.intro name namePlace opening closing isParent kinds, fits⟩, rfl,
    by rw [tokensEq]; simp⟩

/-! ### Swarms -/

theorem count_finds (budget : Nat) :
    (instanceCount >>= fun count =>
      mark "]" "after instance count" >>= fun _ => pure count).Finds (Within budget IsCount) := by
  intro tokens tree rest found
  simp only [bind_eq_ok, mark_eq_ok, pure_apply, Except.ok.injEq, Prod.mk.injEq] at found
  rcases found with ⟨_, _, parsed, _, _, ⟨closing, rfl⟩, rfl, rfl⟩
  cases tokens with
  | nil => cases parsed
  | cons token others =>
      rw [instanceCount] at parsed
      split at parsed
      next isNumber =>
        split at parsed
        next count isCount =>
          cases parsed
          rcases token with ⟨kind, text, place⟩
          rcases isNumber with ⟨rfl, noPoint⟩
          exact ⟨_, ⟨.intro place closing noPoint isCount, Nat.zero_le _⟩, rfl, rfl⟩
        next => cases parsed
      next => cases parsed

theorem bracketedCount_eq :
    bracketedCount = optionally .punctuation "["
      (instanceCount >>= fun count => mark "]" "after instance count" >>= fun _ => pure count) := by
  funext tokens
  cases starts : startsWith .punctuation "[" tokens with
  | true =>
      simp only [bracketedCount, optionally, bind_apply, accept, starts, if_true]
      cases instanceCount tokens.tail with
      | ok counted =>
          simp only
          cases mark "]" "after instance count" counted.2 <;> rfl
      | error failure => rfl
  | false => simp [bracketedCount, optionally, accept, starts]

theorem twinReference_finds (budget : Nat) (place : Location) :
    (twinReference place).Finds (Within budget (IsTwinReference place)) := by
  intro tokens tree rest found
  simp only [twinReference, bracketedCount_eq, bind_eq_ok, identifier_eq_ok, semicolon_eq_ok,
    pure_apply, Except.ok.injEq, Prod.mk.injEq] at found
  rcases found with ⟨type, _, ⟨typePlace, rfl⟩, _, _, parsedName, _, _, parsedCount, _, _,
    ⟨final, rfl⟩, rfl, rfl⟩
  rcases optionally_finds (name_finds budget _) _ _ _ parsedName with ⟨name, ⟨isName, _⟩, rfl, rfl⟩
  rcases optionally_finds (count_finds budget) _ _ _ parsedCount with
    ⟨count, ⟨isCount, _⟩, rfl, rfl⟩
  exact ⟨_, ⟨.intro type typePlace final isName isCount, Nat.zero_le _⟩, rfl, by simp⟩

theorem ruleReference_finds (budget : Nat) (place : Location) :
    (ruleReference place).Finds (Within budget (IsRuleReference place)) := by
  intro tokens tree rest found
  simp only [ruleReference, bind_eq_ok, identifier_eq_ok, semicolon_eq_ok, pure_apply,
    Except.ok.injEq, Prod.mk.injEq] at found
  rcases found with ⟨name, _, ⟨namePlace, rfl⟩, _, _, ⟨final, rfl⟩, rfl, rfl⟩
  exact ⟨_, ⟨.intro name namePlace final, Nat.zero_le _⟩, rfl, rfl⟩

theorem swarmMember_finds (budget : Nat) : swarmMember.Finds (Within budget IsMember) := by
  intro tokens tree rest found
  rw [swarmMember, here_bind, accept_bind_eq_ok] at found
  rcases found with ⟨place, _, rfl, found⟩ | ⟨_, found⟩
  · rcases branch_finds (twinReference_finds budget place) "twin" place found with
      ⟨reference, ⟨isReference, fits⟩, same⟩
    exact ⟨_, ⟨.twin place isReference, fits⟩, same⟩
  rw [accept_bind_eq_ok] at found
  rcases found with ⟨place, _, rfl, found⟩ | ⟨_, found⟩
  · rcases branch_finds (ruleReference_finds budget place) "rule" place found with
      ⟨reference, ⟨isReference, fits⟩, same⟩
    exact ⟨_, ⟨.rule place isReference, fits⟩, same⟩
  simp [fail] at found

theorem swarm_finds (budget : Nat) (place : Location) :
    (swarm place).Finds (Within budget (IsSwarm place)) := by
  intro tokens tree rest found
  simp only [swarm, bind_eq_ok, identifier_eq_ok, mark_eq_ok, pure_apply, Except.ok.injEq,
    Prod.mk.injEq] at found
  rcases found with ⟨name, _, ⟨namePlace, rfl⟩, _, _, ⟨opening, rfl⟩, _, _, parsed, _, _,
    ⟨closing, rfl⟩, rfl, rfl⟩
  rcases enclosed_finds (swarmMember_finds budget) opening closing parsed with
    ⟨members, kinds, _, rfl, tokensEq⟩
  exact ⟨_, ⟨.intro name namePlace opening closing kinds, Nat.zero_le _⟩, rfl,
    by rw [tokensEq]; rfl⟩

/-! ### Events, actions, rules and imports -/

theorem parameter_finds (budget : Nat) : parameter.Finds (Within budget IsParameter) := by
  intro tokens tree rest found
  rw [parameter, here_bind] at found
  simp only [bind_eq_ok, identifier_eq_ok, mark_eq_ok, pure_apply, Except.ok.injEq,
    Prod.mk.injEq] at found
  rcases found with ⟨name, _, ⟨place, rfl⟩, _, _, ⟨colon, rfl⟩, type, _, ⟨typePlace, rfl⟩, rfl,
    rfl⟩
  exact ⟨_, ⟨.intro name type place colon typePlace, Nat.zero_le _⟩, rfl, rfl⟩

theorem parameters_finds (budget : Nat) (owner : String) :
    (parameters owner).Finds (Within budget IsParameters) := by
  intro tokens tree rest found
  rw [parameters, accept_bind_eq_ok] at found
  rcases found with ⟨opening, _, rfl, found⟩ | ⟨_, found⟩
  · simp only [bind_eq_ok, mark_eq_ok, pure_apply, Except.ok.injEq, Prod.mk.injEq] at found
    rcases found with ⟨_, _, parsed, _, _, ⟨closing, rfl⟩, rfl, rfl⟩
    rcases separatedUpTo_finds ")" (parameter_finds budget) _ _ _ parsed with
      ⟨inside, ⟨phrases, kinds, separated⟩, rfl, rfl⟩
    exact ⟨_, ⟨.present opening closing (fun phrase member => (kinds phrase member).1) separated,
      Nat.zero_le _⟩, rfl, by simp⟩
  · cases found
    exact ⟨_, ⟨.absent, Nat.zero_le _⟩, rfl, rfl⟩

theorem event_finds (budget : Nat) (place : Location) :
    (event place).Finds (Within budget (IsEvent place)) := by
  intro tokens tree rest found
  simp only [event, bind_eq_ok, identifier_eq_ok, semicolon_eq_ok, pure_apply,
    Except.ok.injEq, Prod.mk.injEq] at found
  rcases found with ⟨name, _, ⟨namePlace, rfl⟩, _, _, parsed, _, _, ⟨final, rfl⟩, rfl, rfl⟩
  rcases parameters_finds budget _ _ _ _ parsed with ⟨list, ⟨isList, _⟩, rfl, rfl⟩
  exact ⟨_, ⟨.intro name namePlace final isList, Nat.zero_le _⟩, rfl, by simp⟩

theorem action_finds (budget : Nat) (place : Location) :
    (action budget place).Finds (Within budget (IsAction place)) := by
  intro tokens tree rest found
  simp only [action, bind_eq_ok, identifier_eq_ok, pure_apply, Except.ok.injEq,
    Prod.mk.injEq] at found
  rcases found with ⟨name, _, ⟨namePlace, rfl⟩, _, _, parsed, _, _, parsedBody, rfl, rfl⟩
  rcases parameters_finds budget _ _ _ _ parsed with ⟨list, ⟨isList, _⟩, rfl, rfl⟩
  rcases block_finds (fun smaller _ => statement_finds smaller) _ _ _ parsedBody with
    ⟨body, ⟨isBody, fits⟩, rfl, rfl⟩
  exact ⟨_, ⟨.intro name namePlace isList isBody, fits⟩, rfl, by simp⟩

theorem rule_finds (budget : Nat) (place : Location) :
    (rule budget place).Finds (Within budget (IsRule place)) := by
  intro tokens tree rest found
  simp only [rule, bind_eq_ok, identifier_eq_ok, mark_eq_ok, keyword_eq_ok, semicolon_eq_ok,
    pure_apply, Except.ok.injEq, Prod.mk.injEq] at found
  rcases found with ⟨name, _, ⟨namePlace, rfl⟩, _, _, ⟨opening, rfl⟩, _, _, ⟨whenPlace, rfl⟩, _, _,
    parsed, _, _, ⟨middle, rfl⟩, _, _, ⟨thenPlace, rfl⟩, _, _, parsedBody, _, _, ⟨closing, rfl⟩,
    rfl, rfl⟩
  rcases expression_finds budget _ _ _ parsed with ⟨condition, ⟨isCondition, fits⟩, rfl, rfl⟩
  rcases block_finds (fun smaller _ => statement_finds smaller) _ _ _ parsedBody with
    ⟨actions, ⟨isBlock, blockFits⟩, rfl, rfl⟩
  exact ⟨_, ⟨.intro name namePlace opening whenPlace middle thenPlace closing isCondition isBlock,
    Nat.max_le.mpr ⟨fits, blockFits⟩⟩, rfl, by simp⟩

theorem path_finds (budget : Nat) (site : String) :
    (string site).Finds (Within budget IsString) := by
  intro tokens tree rest found
  rcases string_eq_ok.mp found with ⟨quoted, place, rfl, rfl⟩
  exact ⟨_, ⟨.intro quoted place, Nat.zero_le _⟩, rfl, rfl⟩

theorem imported_finds (budget : Nat) (place : Location) :
    (imported place).Finds (Within budget (IsImport place)) := by
  intro tokens tree rest found
  simp only [imported, bind_eq_ok, identifier_eq_ok, semicolon_eq_ok, pure_apply,
    Except.ok.injEq, Prod.mk.injEq] at found
  rcases found with ⟨name, _, ⟨namePlace, rfl⟩, _, _, parsed, _, _, ⟨final, rfl⟩, rfl, rfl⟩
  rcases optionally_finds (path_finds budget _) _ _ _ parsed with ⟨path, ⟨isPath, _⟩, rfl, rfl⟩
  exact ⟨_, ⟨.intro name namePlace final isPath, Nat.zero_le _⟩, rfl, by simp⟩

/-- What is found where a declaration may stand is a declaration. -/
theorem declaration_finds (budget : Nat) :
    (declaration budget).Finds (Within budget IsDeclaration) := by
  intro tokens tree rest found
  rw [declaration, here_bind, accept_bind_eq_ok] at found
  rcases found with ⟨place, _, rfl, found⟩ | ⟨_, found⟩
  · rcases branch_finds (twin_finds budget place) "twin" place found with
      ⟨item, ⟨isItem, fits⟩, same⟩
    exact ⟨_, ⟨.twin place isItem, fits⟩, same⟩
  rw [accept_bind_eq_ok] at found
  rcases found with ⟨place, _, rfl, found⟩ | ⟨_, found⟩
  · rcases branch_finds (swarm_finds budget place) "swarm" place found with
      ⟨item, ⟨isItem, fits⟩, same⟩
    exact ⟨_, ⟨.swarm place isItem, fits⟩, same⟩
  rw [accept_bind_eq_ok] at found
  rcases found with ⟨place, _, rfl, found⟩ | ⟨_, found⟩
  · rcases branch_finds (event_finds budget place) "event" place found with
      ⟨item, ⟨isItem, fits⟩, same⟩
    exact ⟨_, ⟨.event place isItem, fits⟩, same⟩
  rw [accept_bind_eq_ok] at found
  rcases found with ⟨place, _, rfl, found⟩ | ⟨_, found⟩
  · rcases branch_finds (action_finds budget place) "action" place found with
      ⟨item, ⟨isItem, fits⟩, same⟩
    exact ⟨_, ⟨.action place isItem, fits⟩, same⟩
  rw [accept_bind_eq_ok] at found
  rcases found with ⟨place, _, rfl, found⟩ | ⟨_, found⟩
  · rcases branch_finds (rule_finds budget place) "rule" place found with
      ⟨item, ⟨isItem, fits⟩, same⟩
    exact ⟨_, ⟨.rule place isItem, fits⟩, same⟩
  rw [accept_bind_eq_ok] at found
  rcases found with ⟨place, _, rfl, found⟩ | ⟨_, found⟩
  · rcases branch_finds (imported_finds budget place) "import" place found with
      ⟨item, ⟨isItem, fits⟩, same⟩
    exact ⟨_, ⟨.imported place isItem, fits⟩, same⟩
  simp [fail] at found

/-! ## What is taken -/

theorem OpensBefore.behind {close word : String} (place : Location) (make : α → β)
    (phrase : Phrase α) : OpensBefore close (behind word place make phrase) := by
  intro rest
  simp [Grammar.behind, Token.is]

/-- Items in braces are taken if each of them is, whatever follows it. -/
theorem enclosed_takes {item : Recogniser α} {items : List (Phrase α)}
    (takes : ∀ phrase ∈ items, ∀ rest, item (phrase.tokens ++ rest) = .ok (phrase.tree, rest))
    (opens : ∀ phrase ∈ items, OpensBefore "\x7d" phrase) (closing : Location)
    (rest : List Token) :
    repeatedUpTo "\x7d" item ((succession items).tokens ++ Token.ofMark "\x7d" closing :: rest) =
      .ok (items.map tree, Token.ofMark "\x7d" closing :: rest) :=
  repeatedUpTo_takes "\x7d" (fun _ _ => trivial) (fun _ _ _ => trivial)
    (fun phrase member rest _ => takes phrase member rest) opens _ (by simp [Token.is])

theorem IsSetting.opensBefore {close : String} {phrase : Phrase (Entry Expression)}
    (isSetting : IsSetting phrase) : OpensBefore close phrase := by
  intro rest
  cases isSetting
  simp [Token.is]

theorem IsClause.opensBefore {close : String} {phrase : Phrase StateClause}
    (isClause : IsClause phrase) : OpensBefore close phrase := by
  cases isClause <;> exact .behind _ _ _

theorem IsTwinItem.opensBefore {close : String} {phrase : Phrase TwinItem}
    (isItem : IsTwinItem phrase) : OpensBefore close phrase := by
  cases isItem <;> exact .behind _ _ _

theorem IsMember.opensBefore {close : String} {phrase : Phrase SwarmMember}
    (isMember : IsMember phrase) : OpensBefore close phrase := by
  cases isMember <;> exact .behind _ _ _

theorem IsParameter.opensBefore {close : String} {phrase : Phrase Parameter}
    (isParameter : IsParameter phrase) : OpensBefore close phrase := by
  intro rest
  cases isParameter
  simp [typed, Token.is]

theorem IsBlock.noArguments {phrase : Phrase (List Statement)} (isBlock : IsBlock phrase)
    (rest : List Token) : startsWith .punctuation "(" (phrase.tokens ++ rest) = false := by
  cases isBlock
  simp [braced, Token.is]

theorem parameter_takes {phrase : Phrase Parameter} (isParameter : IsParameter phrase)
    {before : List Token → Prop} : parameter.Takes phrase before := by
  intro rest _
  cases isParameter
  simp [parameter, typed]

theorem identifierBehind_takes {word : String} {phrase : Phrase (Option String)}
    (isOptional : Optionally .keyword word IsName phrase) (site : String) (rest : List Token)
    (notStarts : startsWith .keyword word rest = false) :
    identifierBehind word site (phrase.tokens ++ rest) = .ok (phrase.tree, rest) := by
  cases isOptional with
  | absent => simp [identifierBehind, accept_of_not_startsWith notStarts]
  | present place isName =>
      cases isName
      simp [identifierBehind]

section Takes

variable {budget : Nat} {place : Location}

theorem propertyItem_takes {phrase : Phrase PropertyItem} (isProperty : IsProperty place phrase)
    (fits : phrase.need ≤ budget) (rest : List Token) :
    propertyItem budget place (phrase.tokens ++ rest) = .ok (phrase.tree, rest) := by
  cases isProperty with
  | intro name type namePlace colon typePlace final isValue =>
      have taken := optionally_takes isValue fits
        (fun _ isExpression => expression_takes isExpression) (Token.ofMark ";" final :: rest)
        ⟨by simp [Token.is], .before (by decide) (by decide) _ _⟩
      simp [propertyItem_eq, typed, taken]

theorem setting_takes {phrase : Phrase (Entry Expression)} (isSetting : IsSetting phrase)
    (fits : phrase.need ≤ budget) : (setting budget).Takes phrase (EndsItem "\x7d") := by
  intro rest endsItem
  cases isSetting with
  | intro key place colon isValue =>
      have taken := expression_takes isValue fits rest (.of_endsItem endsItem (by decide))
      simp [setting, taken]

theorem device_takes (word : String) {phrase : Phrase Device}
    (isDevice : IsDevice place phrase) (fits : phrase.need ≤ budget) (rest : List Token) :
    device budget word place (phrase.tokens ++ rest) = .ok (phrase.tree, rest) := by
  cases isDevice with
  | bare name type namePlace colon typePlace final =>
      simp [device_eq, typed, configuration, accept_cons, Token.is]
  | @configured name type namePlace colon typePlace opening closing settings inside isSetting
      listed =>
      have fitsEach := listed.need_le.mp fits
      have taken := listedUpTo_takes "\x7d" listed (by decide)
        (fun phrase member => setting_takes (isSetting phrase member) (fitsEach phrase member))
        (fun phrase member => (isSetting phrase member).opensBefore)
        (Token.ofMark "\x7d" closing :: rest) (by simp [Token.is])
      simp [device_eq, typed, configuration, taken]

theorem actionReference_takes {phrase : Phrase ActionReference}
    (isReference : IsReference place phrase) (fits : phrase.need ≤ budget) (final : Location)
    (rest : List Token) :
    actionReference budget place (phrase.tokens ++ Token.ofMark ";" final :: rest) =
      .ok (phrase.tree, Token.ofMark ";" final :: rest) := by
  cases isReference with
  | plain name namePlace => simp [actionReference, accept_cons, Token.is]
  | applied name namePlace isArguments =>
      rcases arguments_takes isArguments fits with ⟨opening, closing, inside, tokensEq, taken⟩
      simp [actionReference, tokensEq, taken]

theorem transition_takes {phrase : Phrase Transition} (isTransition : IsTransition place phrase)
    (fits : phrase.need ≤ budget) (rest : List Token) :
    transition budget place (phrase.tokens ++ rest) = .ok (phrase.tree, rest) := by
  cases isTransition with
  | intro target targetPlace final isCondition =>
      have taken := optionally_takes isCondition fits
        (fun _ isExpression => expression_takes isExpression) (Token.ofMark ";" final :: rest)
        ⟨by simp [Token.is], .before (by decide) (by decide) _ _⟩
      simp [transition_eq, taken]

theorem stateClause_takes {phrase : Phrase StateClause} (isClause : IsClause phrase)
    (fits : phrase.need ≤ budget) (rest : List Token) :
    stateClause budget (phrase.tokens ++ rest) = .ok (phrase.tree, rest) := by
  cases isClause with
  | entry place final isReference | exit place final isReference =>
      have taken := actionReference_takes isReference fits final rest
      simp [stateClause, behind, ended, accept_cons, Token.is, taken]
  | transition place isItem =>
      have taken := transition_takes isItem fits rest
      simp [stateClause, behind, accept_cons, Token.is, taken]

theorem stateItem_takes {phrase : Phrase StateItem} (isState : IsState place phrase)
    (fits : phrase.need ≤ budget) (rest : List Token) :
    stateItem budget place (phrase.tokens ++ rest) = .ok (phrase.tree, rest) := by
  cases isState with
  | intro name namePlace opening closing isClause =>
      have fitsEach := succession_need_le.mp fits
      have taken := enclosed_takes
        (fun phrase member => stateClause_takes (isClause phrase member) (fitsEach phrase member))
        (fun phrase member => (isClause phrase member).opensBefore) closing rest
      simp [stateItem, enclosed, taken]

theorem twinItem_takes {phrase : Phrase TwinItem} (isItem : IsTwinItem phrase)
    (fits : phrase.need ≤ budget) (rest : List Token) :
    twinItem budget (phrase.tokens ++ rest) = .ok (phrase.tree, rest) := by
  cases isItem with
  | property place isItem =>
      have taken := propertyItem_takes isItem fits rest
      simp [twinItem, behind, taken]
  | sensor place isItem | actuator place isItem =>
      have taken (word : String) := device_takes word isItem fits rest
      simp [twinItem, behind, accept_cons, Token.is, taken]
  | state place isItem =>
      have taken := stateItem_takes isItem fits rest
      simp [twinItem, behind, accept_cons, Token.is, taken]

theorem twin_takes {phrase : Phrase Twin} (isTwin : IsTwin place phrase)
    (fits : phrase.need ≤ budget) (rest : List Token) :
    twin budget place (phrase.tokens ++ rest) = .ok (phrase.tree, rest) := by
  cases isTwin with
  | @intro name namePlace opening closing parent items isParent isItem =>
      have fitsEach := succession_need_le.mp fits
      have parentTaken := identifierBehind_takes isParent "after 'extends'"
        (Token.ofMark "\x7b" opening :: ((succession items).tokens ++
          Token.ofMark "\x7d" closing :: rest)) (by simp [Token.is])
      have taken := enclosed_takes
        (fun phrase member => twinItem_takes (isItem phrase member) (fitsEach phrase member))
        (fun phrase member => (isItem phrase member).opensBefore) closing rest
      simp [twin, enclosed, parentTaken, taken]

theorem bracketedCount_takes {phrase : Phrase (Option Int64)}
    (isOptional : Optionally .punctuation "[" IsCount phrase) (final : Location)
    (rest : List Token) :
    bracketedCount (phrase.tokens ++ Token.ofMark ";" final :: rest) =
      .ok (phrase.tree, Token.ofMark ";" final :: rest) := by
  cases isOptional with
  | absent => simp [bracketedCount, accept_cons, Token.is]
  | present opening isCount =>
      cases isCount with
      | intro place closing noPoint isInteger =>
          simp [bracketedCount, instanceCount, noPoint, isInteger]

theorem twinReference_takes {phrase : Phrase TwinReference}
    (isReference : IsTwinReference place phrase) (rest : List Token) :
    twinReference place (phrase.tokens ++ rest) = .ok (phrase.tree, rest) := by
  cases isReference with
  | @intro type typePlace final instanceName count isName isCount =>
      have countTaken := bracketedCount_takes isCount final rest
      have nameTaken := identifierBehind_takes isName "after 'as'"
        (count.tokens ++ Token.ofMark ";" final :: rest)
        (by cases isCount <;> simp [Token.is])
      simp [twinReference, nameTaken, countTaken]

theorem swarmMember_takes {phrase : Phrase SwarmMember} (isMember : IsMember phrase)
    (rest : List Token) : swarmMember (phrase.tokens ++ rest) = .ok (phrase.tree, rest) := by
  cases isMember with
  | twin place isReference =>
      have taken := twinReference_takes isReference rest
      simp [swarmMember, behind, taken]
  | rule place isReference =>
      cases isReference
      simp [swarmMember, ruleReference, behind, accept_cons, Token.is]

theorem swarm_takes {phrase : Phrase Swarm} (isSwarm : IsSwarm place phrase)
    (rest : List Token) : swarm place (phrase.tokens ++ rest) = .ok (phrase.tree, rest) := by
  cases isSwarm with
  | intro name namePlace opening closing isMember =>
      have taken := enclosed_takes
        (fun phrase member => swarmMember_takes (isMember phrase member))
        (fun phrase member => (isMember phrase member).opensBefore) closing rest
      simp [swarm, enclosed, taken]

theorem parameters_takes {phrase : Phrase (List Parameter)} (isList : IsParameters phrase)
    (owner : String) (rest : List Token)
    (notStarts : startsWith .punctuation "(" rest = false) :
    parameters owner (phrase.tokens ++ rest) = .ok (phrase.tree, rest) := by
  cases isList with
  | absent => simp [parameters, accept_of_not_startsWith notStarts]
  | @present opening closing list inside isParameter separated =>
      have taken := separatedUpTo_takes ")" separated (by decide)
        (fun phrase member => parameter_takes (isParameter phrase member))
        (fun phrase member => (isParameter phrase member).opensBefore)
        (Token.ofMark ")" closing :: rest) (by simp [Token.is])
      simp [parameters, taken]

theorem event_takes {phrase : Phrase Event} (isEvent : IsEvent place phrase)
    (rest : List Token) : event place (phrase.tokens ++ rest) = .ok (phrase.tree, rest) := by
  cases isEvent with
  | intro name namePlace final isList =>
      have taken (owner : String) := parameters_takes isList owner
        (Token.ofMark ";" final :: rest) (by simp [Token.is])
      simp [event, taken]

/-- A block that fits the budget is taken, whatever follows it. -/
theorem IsBlock.takes {phrase : Phrase (List Statement)} (isBlock : IsBlock phrase)
    (fits : phrase.need ≤ budget) (owner : String) (rest : List Token) :
    block budget owner (phrase.tokens ++ rest) = .ok (phrase.tree, rest) := by
  cases isBlock with
  | intro opening closing isStatement =>
      exact block_takes isStatement
        (fun phrase member _ => statement_takes (isStatement phrase member)) opening closing fits
        owner rest trivial

theorem action_takes {phrase : Phrase Action} (isAction : IsAction place phrase)
    (fits : phrase.need ≤ budget) (rest : List Token) :
    action budget place (phrase.tokens ++ rest) = .ok (phrase.tree, rest) := by
  cases isAction with
  | intro name namePlace isList isBlock =>
      have bodyTaken := isBlock.takes fits "action body" rest
      have taken := parameters_takes isList "action" _ (isBlock.noArguments rest)
      simp [action, taken, bodyTaken]

theorem rule_takes {phrase : Phrase Rule} (isRule : IsRule place phrase)
    (fits : phrase.need ≤ budget) (rest : List Token) :
    rule budget place (phrase.tokens ++ rest) = .ok (phrase.tree, rest) := by
  cases isRule with
  | @intro name namePlace opening whenPlace middle thenPlace closing condition actions isCondition
      isBlock =>
      rcases Nat.max_le.mp fits with ⟨conditionFits, blockFits⟩
      have conditionTaken := expression_takes isCondition conditionFits
        (Token.ofMark ";" middle :: Token.ofKeyword "then" thenPlace ::
          (actions.tokens ++ Token.ofMark "\x7d" closing :: rest))
        (.before (by decide) (by decide) _ _)
      have actionsTaken := isBlock.takes blockFits "rule actions"
        (Token.ofMark "\x7d" closing :: rest)
      simp [rule, conditionTaken, actionsTaken]

theorem imported_takes {phrase : Phrase Import} (isImport : IsImport place phrase)
    (rest : List Token) : imported place (phrase.tokens ++ rest) = .ok (phrase.tree, rest) := by
  cases isImport with
  | intro name namePlace final isPath =>
      cases isPath with
      | absent => simp [imported, importPath, accept_cons, Token.is]
      | present pathPlace isString =>
          cases isString
          simp [imported, importPath, string]

/-- A declaration that fits the budget is taken, whatever follows it. -/
theorem declaration_takes {phrase : Phrase Declaration} (isDeclaration : IsDeclaration phrase)
    (fits : phrase.need ≤ budget) (rest : List Token) :
    declaration budget (phrase.tokens ++ rest) = .ok (phrase.tree, rest) := by
  cases isDeclaration with
  | twin place isTwin =>
      have taken := twin_takes isTwin fits rest
      simp [declaration, behind, taken]
  | swarm place isSwarm =>
      have taken := swarm_takes isSwarm rest
      simp [declaration, behind, accept_cons, Token.is, taken]
  | event place isEvent =>
      have taken := event_takes isEvent rest
      simp [declaration, behind, accept_cons, Token.is, taken]
  | action place isAction =>
      have taken := action_takes isAction fits rest
      simp [declaration, behind, accept_cons, Token.is, taken]
  | rule place isRule =>
      have taken := rule_takes isRule fits rest
      simp [declaration, behind, accept_cons, Token.is, taken]
  | imported place isImport =>
      have taken := imported_takes isImport rest
      simp [declaration, behind, accept_cons, Token.is, taken]

end Takes

end TwinSwarm.Grammar
