import TwinSwarm.Grammar.Recogniser

/-!
# What single tokens allow

Each recogniser of a single token is characterised by the tokens on which it
succeeds.  A token that the grammar fixes is written with its place, since no
grammar function looks at where a token stands.
-/

namespace TwinSwarm

namespace Token

/-- The keyword of this spelling at a place. -/
abbrev ofKeyword (word : String) (location : Location) : Token := ⟨.keyword, word, location⟩

/-- The punctuation mark of this spelling at a place. -/
abbrev ofMark (text : String) (location : Location) : Token := ⟨.punctuation, text, location⟩

/-- The operator of this spelling at a place. -/
abbrev ofSign (text : String) (location : Location) : Token := ⟨.operator, text, location⟩

/-- The identifier of this spelling at a place. -/
abbrev ofName (text : String) (location : Location) : Token := ⟨.identifier, text, location⟩

theorem is_eq_true {token : Token} {kind : Kind} {text : String} :
    token.is kind text = true ↔ token = ⟨kind, text, token.location⟩ := by
  cases token with
  | mk kind' text' location => simp [is]

theorem eq_ofName {token : Token} (isName : token.kind = .identifier) :
    token = ofName token.text token.location := by
  cases token
  cases isName
  rfl

end Token

namespace Grammar

variable {α β : Type} {tokens rest : List Token}

@[simp] theorem startsWith_nil (kind : Token.Kind) (text : String) :
    startsWith kind text [] = false := rfl

@[simp] theorem startsWith_cons (kind : Token.Kind) (text : String) (token : Token)
    (rest : List Token) : startsWith kind text (token :: rest) = token.is kind text := rfl

theorem startsWith_eq_true {kind : Token.Kind} {text : String} :
    startsWith kind text tokens = true ↔
      ∃ location rest, tokens = ⟨kind, text, location⟩ :: rest := by
  cases tokens with
  | nil => simp
  | cons token rest =>
      rw [startsWith_cons, Token.is_eq_true]
      constructor
      · intro equal
        exact ⟨token.location, rest, by rw [← equal]⟩
      · rintro ⟨location, rest', equal⟩
        cases equal
        rfl

/-! ## Success -/

theorem demand_eq_ok {kind : Token.Kind} {text : String} {wanted : Expectation} {done : Unit} :
    demand kind text wanted tokens = .ok (done, rest) ↔
      ∃ location, tokens = ⟨kind, text, location⟩ :: rest := by
  by_cases starts : startsWith kind text tokens = true
  · rcases startsWith_eq_true.mp starts with ⟨location, behind, rfl⟩
    simp [demand, Token.is]
  · have notStarts : ∀ location, tokens ≠ ⟨kind, text, location⟩ :: rest := by
      intro location equal
      exact starts (startsWith_eq_true.mpr ⟨location, rest, equal⟩)
    simp [demand, starts, notStarts]

theorem mark_eq_ok {text place : String} {done : Unit} :
    mark text place tokens = .ok (done, rest) ↔
      ∃ location, tokens = Token.ofMark text location :: rest :=
  demand_eq_ok

theorem semicolon_eq_ok {place : String} {done : Unit} :
    semicolon place tokens = .ok (done, rest) ↔
      ∃ location, tokens = Token.ofMark ";" location :: rest :=
  demand_eq_ok

theorem keyword_eq_ok {word place : String} {done : Unit} :
    keyword word place tokens = .ok (done, rest) ↔
      ∃ location, tokens = Token.ofKeyword word location :: rest :=
  demand_eq_ok

theorem tokenOf_eq_ok {kind : Token.Kind} {wanted : Expectation} {text : String} :
    tokenOf kind wanted tokens = .ok (text, rest) ↔
      ∃ location, tokens = ⟨kind, text, location⟩ :: rest := by
  cases tokens with
  | nil => simp [tokenOf]
  | cons token behind =>
      cases token with
      | mk kind' text' location =>
          by_cases same : kind' = kind
          · simp [tokenOf, same]
          · simp [tokenOf, same]

theorem identifier_eq_ok {place text : String} :
    identifier place tokens = .ok (text, rest) ↔
      ∃ location, tokens = Token.ofName text location :: rest :=
  tokenOf_eq_ok

theorem string_eq_ok {place text : String} :
    string place tokens = .ok (text, rest) ↔
      ∃ quoted location, tokens = ⟨.string, quoted, location⟩ :: rest ∧
        text = unquoted quoted := by
  simp only [string, Recogniser.bind_eq_ok, tokenOf_eq_ok, Recogniser.pure_apply,
    Except.ok.injEq, Prod.mk.injEq]
  constructor
  · rintro ⟨quoted, middle, ⟨location, rfl⟩, rfl, rfl⟩
    exact ⟨quoted, location, rfl, rfl⟩
  · rintro ⟨quoted, location, rfl, rfl⟩
    exact ⟨quoted, rest, ⟨location, rfl⟩, rfl, rfl⟩

theorem fail_ne_ok {complaint : Complaint} {result : α × List Token} :
    (fail complaint : Recogniser α) tokens ≠ .ok result := by
  simp [fail]

@[simp] theorem here_cons (token : Token) (rest : List Token) :
    here (token :: rest) = .ok (token.location, token :: rest) := rfl

@[simp] theorem peek_cons (token : Token) (rest : List Token) :
    peek (token :: rest) = .ok (some token, token :: rest) := rfl

theorem here_bind (next : Location → Recogniser α) (tokens : List Token) :
    (here >>= next) tokens = next ((tokens.head?.map Token.location).getD .nowhere) tokens := rfl

theorem accept_cons (kind : Token.Kind) (text : String) (token : Token) (rest : List Token) :
    accept kind text (token :: rest) =
      if token.is kind text then .ok (true, rest) else .ok (false, token :: rest) := rfl

theorem accept_of_not_startsWith {kind : Token.Kind} {text : String}
    (notStarts : startsWith kind text tokens = false) :
    accept kind text tokens = .ok (false, tokens) := by
  simp [accept, notStarts]

@[simp] theorem demand_self (kind : Token.Kind) (text : String) (wanted : Expectation)
    (location : Location) (rest : List Token) :
    demand kind text wanted (⟨kind, text, location⟩ :: rest) = .ok ((), rest) :=
  demand_eq_ok.mpr ⟨location, rfl⟩

@[simp] theorem mark_self (text place : String) (location : Location) (rest : List Token) :
    mark text place (Token.ofMark text location :: rest) = .ok ((), rest) :=
  demand_self ..

@[simp] theorem semicolon_self (place : String) (location : Location) (rest : List Token) :
    semicolon place (Token.ofMark ";" location :: rest) = .ok ((), rest) :=
  mark_self ..

@[simp] theorem keyword_self (word place : String) (location : Location) (rest : List Token) :
    keyword word place (Token.ofKeyword word location :: rest) = .ok ((), rest) :=
  demand_self ..

@[simp] theorem tokenOf_self (kind : Token.Kind) (wanted : Expectation) (text : String)
    (location : Location) (rest : List Token) :
    tokenOf kind wanted (⟨kind, text, location⟩ :: rest) = .ok (text, rest) :=
  tokenOf_eq_ok.mpr ⟨location, rfl⟩

@[simp] theorem identifier_self (place name : String) (location : Location) (rest : List Token) :
    identifier place (Token.ofName name location :: rest) = .ok (name, rest) :=
  tokenOf_self ..

@[simp] theorem accept_self (kind : Token.Kind) (text : String) (location : Location)
    (rest : List Token) :
    accept kind text (⟨kind, text, location⟩ :: rest) = .ok (true, rest) := by
  simp [accept, Token.is]

/-- A choice by the next token succeeds in one of its branches. -/
theorem accept_bind_eq_ok {kind : Token.Kind} {text : String} {yes no : Recogniser α}
    {result : α × List Token} :
    (accept kind text >>= fun taken => if taken = true then yes else no) tokens =
        .ok result ↔
      (∃ location behind, tokens = ⟨kind, text, location⟩ :: behind ∧ yes behind = .ok result) ∨
        (startsWith kind text tokens = false ∧ no tokens = .ok result) := by
  by_cases starts : startsWith kind text tokens = true
  · rcases startsWith_eq_true.mp starts with ⟨location, behind, rfl⟩
    have isNext : accept kind text (⟨kind, text, location⟩ :: behind) = .ok (true, behind) := by
      simp [accept, Token.is]
    rw [Recogniser.bind_apply, isNext]
    constructor
    · intro continued
      exact .inl ⟨location, behind, rfl, continued⟩
    · rintro (⟨_, _, equal, continued⟩ | ⟨notStarts, _⟩)
      · cases equal
        exact continued
      · simp [starts] at notStarts
  · have notStarts : startsWith kind text tokens = false := by simpa using starts
    rw [Recogniser.bind_apply, accept_of_not_startsWith notStarts]
    constructor
    · intro continued
      exact .inr ⟨notStarts, continued⟩
    · rintro (⟨location, behind, rfl, _⟩ | ⟨_, continued⟩)
      · simp [Token.is] at starts
      · exact continued

/-! ## Spending a unit of the budget -/

/-- Go on with a budget that is one unit smaller. -/
def spending (budget : Nat) (next : Nat → Recogniser α) : Recogniser α :=
  match budget with
  | 0 => fail .nestedTooDeeply
  | deeper + 1 => next deeper

@[simp] theorem spending_succ (deeper : Nat) (next : Nat → Recogniser α) :
    spending (deeper + 1) next = next deeper := rfl

theorem spending_eq_ok {budget : Nat} {next : Nat → Recogniser α} {result : α × List Token} :
    spending budget next tokens = .ok result ↔
      ∃ deeper, budget = deeper + 1 ∧ next deeper tokens = .ok result := by
  cases budget with
  | zero => simp [spending, fail]
  | succ deeper => simp

/-- What stands behind an opening bracket: something that spends a unit, and the closing
bracket. -/
def bracketed (budget : Nat) (close place : String) (inside : Nat → Recogniser α)
    (make : α → β) : Recogniser β :=
  spending budget fun deeper => do
    let inner ← inside deeper
    mark close place
    return make inner

theorem bracketed_eq_ok {budget : Nat} {close place : String} {inside : Nat → Recogniser α}
    {make : α → β} {tree : β} :
    bracketed budget close place inside make tokens = .ok (tree, rest) ↔
      ∃ deeper inner closing, budget = deeper + 1 ∧
        inside deeper tokens = .ok (inner, Token.ofMark close closing :: rest) ∧
        tree = make inner := by
  simp only [bracketed, spending_eq_ok, Recogniser.bind_eq_ok, mark_eq_ok,
    Recogniser.pure_apply, Except.ok.injEq, Prod.mk.injEq]
  constructor
  · rintro ⟨deeper, rfl, inner, _, parsed, _, _, ⟨closing, rfl⟩, rfl, rfl⟩
    exact ⟨deeper, inner, closing, rfl, parsed, rfl⟩
  · rintro ⟨deeper, inner, closing, rfl, parsed, rfl⟩
    exact ⟨deeper, rfl, inner, _, parsed, (), rest, ⟨closing, rfl⟩, rfl, rfl⟩

theorem bracketed_of_inside {deeper : Nat} {close place : String} {inside : Nat → Recogniser α}
    {make : α → β} {inner : α} {closing : Location}
    (taken : inside deeper tokens = .ok (inner, Token.ofMark close closing :: rest)) :
    bracketed (deeper + 1) close place inside make tokens = .ok (make inner, rest) :=
  bracketed_eq_ok.mpr ⟨deeper, inner, closing, rfl, taken, rfl⟩

end Grammar

end TwinSwarm
