import TwinSwarm.Proofs.Grammar.Recogniser

/-!
# Phrases

A phrase is a list of tokens with the tree that it stands for and the nesting that it
needs.  The grammar says which phrases there are.  A recogniser agrees with it if it
finds only phrases of the grammar, and takes each of them where nothing that follows
could continue it.  Lists of phrases are read by three combinators, so both directions
are proved once for each combinator.
-/

namespace TwinSwarm.Grammar

variable {α β : Type}

/-- Tokens with the tree they stand for and the nesting they need. -/
@[ext]
structure Phrase (α : Type) where
  tokens : List Token
  tree : α
  need : Nat

/-- The largest of several numbers; of none it is zero. -/
def largest (numbers : List Nat) : Nat := numbers.foldr max 0

@[simp] theorem largest_nil : largest [] = 0 := rfl

@[simp] theorem largest_cons (first : Nat) (rest : List Nat) :
    largest (first :: rest) = max first (largest rest) := rfl

theorem largest_le {numbers : List Nat} {bound : Nat} :
    largest numbers ≤ bound ↔ ∀ number ∈ numbers, number ≤ bound := by
  induction numbers with
  | nil => simp
  | cons first rest ih => rw [largest_cons, Nat.max_le, ih, List.forall_mem_cons]

theorem le_largest {numbers : List Nat} {number : Nat} (isMember : number ∈ numbers) :
    number ≤ largest numbers :=
  largest_le.mp (Nat.le_refl _) number isMember

namespace Phrase

/-- The same tokens with a tree made from the tree. -/
def map (make : α → β) (phrase : Phrase α) : Phrase β :=
  ⟨phrase.tokens, make phrase.tree, phrase.need⟩

/-- Phrases one behind the other. -/
def succession (phrases : List (Phrase α)) : Phrase (List α) :=
  ⟨phrases.flatMap tokens, phrases.map tree, largest (phrases.map need)⟩

/-- Phrases with commas between them. -/
inductive Separated : List (Phrase α) → Phrase (List α) → Prop where
  | none : Separated [] ⟨[], [], 0⟩
  | one (only : Phrase α) : Separated [only] ⟨only.tokens, [only.tree], only.need⟩
  | more {first second : Phrase α} {others : List (Phrase α)} {inside : Phrase (List α)}
      (comma : Location) :
      Separated (second :: others) inside →
      Separated (first :: second :: others)
        ⟨first.tokens ++ Token.ofMark "," comma :: inside.tokens, first.tree :: inside.tree,
          max first.need inside.need⟩

/-- Phrases with commas between them and perhaps one behind the last. -/
inductive Listed : List (Phrase α) → Phrase (List α) → Prop where
  | plain {phrases : List (Phrase α)} {inside : Phrase (List α)} :
      Separated phrases inside → Listed phrases inside
  | trailing {first : Phrase α} {others : List (Phrase α)} {inside : Phrase (List α)}
      (comma : Location) :
      Separated (first :: others) inside →
      Listed (first :: others)
        ⟨inside.tokens ++ [Token.ofMark "," comma], inside.tree, inside.need⟩

/-- A phrase of a kind behind a token, or nothing. -/
inductive Optionally (kind : Token.Kind) (text : String) (inside : Phrase α → Prop) :
    Phrase (Option α) → Prop where
  | absent : Optionally kind text inside ⟨[], none, 0⟩
  | present (place : Location) {phrase : Phrase α} :
      inside phrase →
      Optionally kind text inside
        ⟨⟨kind, text, place⟩ :: phrase.tokens, some phrase.tree, phrase.need⟩

theorem Separated.need_eq {phrases : List (Phrase α)} {inside : Phrase (List α)}
    (separated : Separated phrases inside) : inside.need = largest (phrases.map need) := by
  induction separated with
  | none => rfl
  | one only => simp
  | more comma _ ih => simp [ih]

theorem Separated.tree_eq {phrases : List (Phrase α)} {inside : Phrase (List α)}
    (separated : Separated phrases inside) : inside.tree = phrases.map tree := by
  induction separated with
  | none => rfl
  | one only => rfl
  | more comma _ ih => simp [ih]

theorem Separated.need_le {phrases : List (Phrase α)} {inside : Phrase (List α)} {bound : Nat}
    (separated : Separated phrases inside) :
    inside.need ≤ bound ↔ ∀ phrase ∈ phrases, phrase.need ≤ bound := by
  rw [separated.need_eq, largest_le]
  simp

/-- A further phrase before listed ones. -/
theorem Listed.more {phrases : List (Phrase α)} {inside : Phrase (List α)}
    (listed : Listed phrases inside) (first : Phrase α) (comma : Location) :
    ∃ whole, Listed (first :: phrases) whole ∧
      whole.tokens = first.tokens ++ Token.ofMark "," comma :: inside.tokens ∧
      whole.tree = first.tree :: inside.tree := by
  cases listed with
  | plain separated =>
      cases phrases with
      | nil =>
          cases separated
          exact ⟨_, .trailing comma (.one first), rfl, rfl⟩
      | cons second others => exact ⟨_, .plain (.more comma separated), rfl, rfl⟩
  | trailing last separated =>
      exact ⟨_, .trailing last (.more comma separated), by simp, rfl⟩

/-- A comma behind the last phrase changes neither the tree nor the need. -/
theorem Listed.separated {phrases : List (Phrase α)} {inside : Phrase (List α)}
    (listed : Listed phrases inside) :
    ∃ plain, Separated phrases plain ∧ inside.tree = plain.tree ∧ inside.need = plain.need := by
  cases listed with
  | plain separated => exact ⟨_, separated, rfl, rfl⟩
  | trailing comma separated => exact ⟨_, separated, rfl, rfl⟩

theorem Listed.need_le {phrases : List (Phrase α)} {inside : Phrase (List α)} {bound : Nat}
    (listed : Listed phrases inside) :
    inside.need ≤ bound ↔ ∀ phrase ∈ phrases, phrase.need ≤ bound := by
  rcases listed.separated with ⟨plain, separated, _, needEq⟩
  rw [needEq, separated.need_le]

theorem succession_need_le {phrases : List (Phrase α)} {bound : Nat} :
    (succession phrases).need ≤ bound ↔ ∀ phrase ∈ phrases, phrase.need ≤ bound := by
  simp [succession, largest_le]

end Phrase

open Phrase Recogniser

/-- The phrases of a kind that need no more nesting than is allowed. -/
def Within (budget : Nat) (kind : Phrase α → Prop) (phrase : Phrase α) : Prop :=
  kind phrase ∧ phrase.need ≤ budget

namespace Recogniser

/-- All that the recogniser finds are phrases of a kind. -/
def Finds (recogniser : Recogniser α) (kind : Phrase α → Prop) : Prop :=
  ∀ tokens tree rest, recogniser tokens = .ok (tree, rest) →
    ∃ phrase, kind phrase ∧ phrase.tree = tree ∧ tokens = phrase.tokens ++ rest

/-- The recogniser takes the phrase in front of certain tokens. -/
def Takes (recogniser : Recogniser α) (phrase : Phrase α) (before : List Token → Prop) :
    Prop :=
  ∀ rest, before rest → recogniser (phrase.tokens ++ rest) = .ok (phrase.tree, rest)

theorem Finds.mono {recogniser : Recogniser α} {kind kind' : Phrase α → Prop}
    (finds : recogniser.Finds kind) (weaker : ∀ phrase, kind phrase → kind' phrase) :
    recogniser.Finds kind' := by
  intro tokens tree rest found
  rcases finds tokens tree rest found with ⟨phrase, isKind, treeEq, tokensEq⟩
  exact ⟨phrase, weaker phrase isKind, treeEq, tokensEq⟩

theorem Takes.mono {recogniser : Recogniser α} {phrase : Phrase α}
    {before before' : List Token → Prop} (takes : recogniser.Takes phrase before)
    (stronger : ∀ rest, before' rest → before rest) : recogniser.Takes phrase before' :=
  fun rest isBefore => takes rest (stronger rest isBefore)

end Recogniser

/-! ## Optional phrases -/

section Optional

variable {kind : Token.Kind} {text : String} {recogniser : Recogniser α}
  {inside : Phrase α → Prop} {budget : Nat}

/-- What a recogniser reads behind a token, if the token is there. -/
def optionally (kind : Token.Kind) (text : String) (recogniser : Recogniser α) :
    Recogniser (Option α) := do
  if ← accept kind text then return some (← recogniser)
  return none

/-- A recogniser that branches on a token, and goes on alike in both branches. -/
theorem optionally_bind (next : Option α → Recogniser β) :
    (optionally kind text recogniser >>= next) = (do
      if ← accept kind text then
        let value ← recogniser
        next (some value)
      else next none) := by
  funext tokens
  cases starts : startsWith kind text tokens with
  | true =>
      simp only [optionally, bind_apply, accept, starts, if_true, pure_apply]
      cases recogniser tokens.tail <;> rfl
  | false => simp [optionally, accept, starts]

theorem optionally_finds (finds : recogniser.Finds (Within budget inside)) :
    (optionally kind text recogniser).Finds (Within budget (Optionally kind text inside)) := by
  intro tokens tree rest found
  rw [optionally, accept_bind_eq_ok] at found
  rcases found with ⟨place, behind, rfl, found⟩ | ⟨_, found⟩
  · simp only [bind_eq_ok, pure_apply, Except.ok.injEq, Prod.mk.injEq] at found
    rcases found with ⟨value, _, parsed, rfl, rfl⟩
    rcases finds _ _ _ parsed with ⟨phrase, ⟨isInside, fits⟩, rfl, rfl⟩
    exact ⟨_, ⟨.present place isInside, fits⟩, rfl, rfl⟩
  · cases found
    exact ⟨_, ⟨.absent, Nat.zero_le _⟩, rfl, rfl⟩

theorem optionally_takes {phrase : Phrase (Option α)} {before : List Token → Prop}
    (isOptional : Optionally kind text inside phrase) (fits : phrase.need ≤ budget)
    (takes : ∀ part, inside part → part.need ≤ budget → recogniser.Takes part before) :
    (optionally kind text recogniser).Takes phrase fun rest =>
      startsWith kind text rest = false ∧ before rest := by
  rintro rest ⟨notStarts, isBefore⟩
  cases isOptional with
  | absent => simp [optionally, accept_of_not_startsWith notStarts]
  | present place isInside =>
      have taken := takes _ isInside fits rest isBefore
      simp [optionally, taken]

end Optional

/-! ## What is found in lists -/

section Lists

variable {item : Recogniser α} {kind : Phrase α → Prop}

theorem separated_finds (finds : item.Finds kind) :
    (separated item).Finds fun inside =>
      ∃ phrases, phrases ≠ [] ∧ (∀ phrase ∈ phrases, kind phrase) ∧
        Separated phrases inside := by
  intro tokens
  fun_induction separated item tokens with
  | case1 tokens _ failure failed => simp
  | case2 tokens _ first rest parsed shorter failure failed ih => simp
  | case3 tokens _ first rest parsed shorter others rest' parsedOthers ih =>
      rintro tree rest'' ⟨⟩
      rcases finds _ _ _ parsed with ⟨phrase, isKind, rfl, tokensEq⟩
      rcases ih _ _ parsedOthers with ⟨inside, ⟨phrases, nonempty, kinds, separated⟩, rfl, restEq⟩
      rcases startsWith_eq_true.mp shorter.1 with ⟨comma, behind, commaEq⟩
      rcases List.exists_cons_of_ne_nil nonempty with ⟨second, more, rfl⟩
      rw [commaEq, List.tail_cons] at restEq
      refine ⟨_, ⟨phrase :: second :: more, by simp, ?_, .more comma separated⟩, rfl, ?_⟩
      · simpa [isKind] using kinds
      · calc tokens = phrase.tokens ++ rest := tokensEq
          _ = _ := by rw [commaEq, restEq]; simp
  | case4 tokens _ first rest parsed last =>
      rintro tree rest' ⟨⟩
      rcases finds _ _ _ parsed with ⟨phrase, isKind, rfl, tokensEq⟩
      exact ⟨_, ⟨[phrase], by simp, by simpa using isKind, .one phrase⟩, rfl, tokensEq⟩

theorem separatedUpTo_finds (close : String) (finds : item.Finds kind) :
    (separatedUpTo close item).Finds fun inside =>
      ∃ phrases, (∀ phrase ∈ phrases, kind phrase) ∧ Separated phrases inside := by
  intro tokens tree rest found
  simp only [separatedUpTo, isNext, Recogniser.bind_apply] at found
  split at found
  · cases found
    exact ⟨_, ⟨[], by simp, .none⟩, rfl, rfl⟩
  · rcases separated_finds finds _ _ _ found with ⟨inside, ⟨phrases, _, kinds, separated⟩, same⟩
    exact ⟨inside, ⟨phrases, kinds, separated⟩, same⟩

theorem listedUpTo_finds (close : String) (finds : item.Finds kind) :
    (listedUpTo close item).Finds fun inside =>
      ∃ phrases, (∀ phrase ∈ phrases, kind phrase) ∧ Listed phrases inside := by
  intro tokens
  fun_induction listedUpTo close item tokens with
  | case1 tokens _ closes =>
      rintro tree rest ⟨⟩
      exact ⟨_, ⟨[], by simp, .plain .none⟩, rfl, rfl⟩
  | case2 tokens _ opens failure failed => simp
  | case3 tokens _ opens first rest parsed shorter failure failed ih => simp
  | case4 tokens _ opens first rest parsed shorter others rest' parsedOthers ih =>
      rintro tree rest'' ⟨⟩
      rcases finds _ _ _ parsed with ⟨phrase, isKind, rfl, tokensEq⟩
      rcases ih _ _ parsedOthers with ⟨inside, ⟨phrases, kinds, listed⟩, rfl, restEq⟩
      rcases startsWith_eq_true.mp shorter.1 with ⟨comma, behind, commaEq⟩
      rw [commaEq, List.tail_cons] at restEq
      have tokensEq' : tokens = phrase.tokens ++ Token.ofMark "," comma ::
          (inside.tokens ++ rest') := by rw [← restEq, ← commaEq, ← tokensEq]
      have kinds' : ∀ phrase' ∈ phrase :: phrases, kind phrase' := by simpa [isKind] using kinds
      rcases listed.more phrase comma with ⟨whole, listed', tokensEq'', treeEq⟩
      exact ⟨whole, ⟨_, kinds', listed'⟩, treeEq, by rw [tokensEq', tokensEq'']; simp⟩
  | case5 tokens _ opens first rest parsed last =>
      rintro tree rest' ⟨⟩
      rcases finds _ _ _ parsed with ⟨phrase, isKind, rfl, tokensEq⟩
      exact ⟨_, ⟨[phrase], by simpa using isKind, .plain (.one phrase)⟩, rfl, tokensEq⟩

theorem repeatedUpTo_finds (close : String) (finds : item.Finds kind) :
    (repeatedUpTo close item).Finds fun whole =>
      ∃ phrases, (∀ phrase ∈ phrases, kind phrase) ∧ whole = succession phrases := by
  intro tokens
  fun_induction repeatedUpTo close item tokens with
  | case1 tokens _ closes =>
      rintro tree rest ⟨⟩
      exact ⟨_, ⟨[], by simp, rfl⟩, rfl, rfl⟩
  | case2 tokens _ opens failure failed => simp
  | case3 tokens _ opens first rest parsed shorter failure failed ih => simp
  | case4 tokens _ opens first rest parsed shorter others rest' parsedOthers ih =>
      rintro tree rest'' ⟨⟩
      rcases finds _ _ _ parsed with ⟨phrase, isKind, rfl, tokensEq⟩
      rcases ih _ _ parsedOthers with ⟨_, ⟨phrases, kinds, rfl⟩, rfl, restEq⟩
      refine ⟨_, ⟨phrase :: phrases, by simpa [isKind] using kinds, rfl⟩, rfl, ?_⟩
      calc tokens = phrase.tokens ++ rest := tokensEq
        _ = _ := by rw [restEq]; simp [succession]
  | case5 tokens _ opens first rest parsed last =>
      rintro tree rest' ⟨⟩
      rcases finds _ _ _ parsed with ⟨phrase, isKind, rfl, tokensEq⟩
      refine ⟨_, ⟨[phrase], by simpa using isKind, rfl⟩, rfl, ?_⟩
      calc tokens = phrase.tokens ++ rest := tokensEq
        _ = _ := by simp [succession]

end Lists

/-! ## What is taken in lists -/

/-- The tokens end an item of a list that is closed by a mark. -/
def EndsItem (close : String) (tokens : List Token) : Prop :=
  startsWith .punctuation "," tokens = true ∨ startsWith .punctuation close tokens = true

theorem EndsItem.comma (close : String) (location : Location) (rest : List Token) :
    EndsItem close (Token.ofMark "," location :: rest) :=
  .inl (by simp [Token.is])

/-- The phrase does not begin with a mark, whatever follows it. -/
def OpensBefore (close : String) (phrase : Phrase α) : Prop :=
  ∀ rest, startsWith .punctuation close (phrase.tokens ++ rest) = false

theorem OpensBefore.ne_nil {close : String} {phrase : Phrase α}
    (opens : OpensBefore close phrase) : phrase.tokens ≠ [] := by
  intro empty
  have starts := opens [Token.ofMark close default]
  simp [empty, Token.is] at starts

/-- A list that is closed by one mark does not go on with another. -/
theorem startsWith_other {close other : String} {tokens : List Token} (different : close ≠ other)
    (closes : startsWith .punctuation close tokens = true) :
    startsWith .punctuation other tokens = false := by
  rcases startsWith_eq_true.mp closes with ⟨location, rest, rfl⟩
  simp [Token.is, different]

section Lists

variable {item : Recogniser α} {close : String} {phrases : List (Phrase α)}
  {inside : Phrase (List α)}

theorem separated_takes (separatedInside : Separated phrases inside) (nonempty : phrases ≠ [])
    (notComma : close ≠ ",")
    (takes : ∀ phrase ∈ phrases, item.Takes phrase (EndsItem close)) :
    (separated item).Takes inside fun rest => startsWith .punctuation close rest = true := by
  intro rest closes
  induction separatedInside with
  | none => exact absurd rfl nonempty
  | one only =>
      have taken := takes only (by simp) rest (.inr closes)
      have last := startsWith_other notComma closes
      rw [separated, taken]
      simp [last]
  | @more first second others inside comma _ ih =>
      have taken := takes first (by simp) (Token.ofMark "," comma :: (inside.tokens ++ rest))
        (.comma close comma _)
      have takenOthers := ih (by simp)
        (fun phrase member => takes phrase (List.mem_cons_of_mem _ member))
      rw [separated]
      simp only [List.append_assoc, List.cons_append, taken]
      simp [Token.is, takenOthers]
      omega

theorem separatedUpTo_takes (close : String) (separatedInside : Separated phrases inside)
    (notComma : close ≠ ",")
    (takes : ∀ phrase ∈ phrases, item.Takes phrase (EndsItem close))
    (opens : ∀ phrase ∈ phrases, OpensBefore close phrase) :
    (separatedUpTo close item).Takes inside
      fun rest => startsWith .punctuation close rest = true := by
  intro rest closes
  cases phrases with
  | nil =>
      cases separatedInside
      simp [separatedUpTo, isNext, closes]
  | cons first others =>
      have opensFirst : startsWith .punctuation close (inside.tokens ++ rest) = false := by
        cases separatedInside with
        | one => exact opens first (by simp) rest
        | more comma _ => simpa using opens first (by simp) _
      have taken := separated_takes separatedInside (by simp) notComma takes rest closes
      simp [separatedUpTo, isNext, opensFirst, taken]

/-- Behind an item and a comma the list goes on. -/
theorem listedUpTo_more {first : Phrase α} {comma : Location} {tokens rest : List Token}
    {others : List α}
    (opens : OpensBefore close first) (takes : item.Takes first (EndsItem close))
    (takenOthers : listedUpTo close item tokens = .ok (others, rest)) :
    listedUpTo close item (first.tokens ++ Token.ofMark "," comma :: tokens) =
      .ok (first.tree :: others, rest) := by
  have opensFirst := opens (Token.ofMark "," comma :: tokens)
  have taken := takes (Token.ofMark "," comma :: tokens) (.comma close comma tokens)
  rw [listedUpTo]
  simp only [taken, opensFirst]
  simp [Token.is, takenOthers]
  omega

theorem listedUpTo_takes_separated (separatedInside : Separated phrases inside)
    (notComma : close ≠ ",")
    (takes : ∀ phrase ∈ phrases, item.Takes phrase (EndsItem close))
    (opens : ∀ phrase ∈ phrases, OpensBefore close phrase) {rest : List Token}
    (closes : startsWith .punctuation close rest = true) :
    listedUpTo close item (inside.tokens ++ rest) = .ok (inside.tree, rest) := by
  induction separatedInside with
  | none =>
      rw [listedUpTo]
      simp [closes]
  | one only =>
      have taken := takes only (by simp) rest (.inr closes)
      have opensOnly := opens only (by simp) rest
      have last := startsWith_other notComma closes
      rw [listedUpTo]
      simp [opensOnly, taken, last]
  | @more first second others inside comma _ ih =>
      have takenOthers := ih
        (fun phrase member => takes phrase (List.mem_cons_of_mem _ member))
        (fun phrase member => opens phrase (List.mem_cons_of_mem _ member))
      rw [List.append_assoc, List.cons_append]
      exact listedUpTo_more (opens first (by simp)) (takes first (by simp)) takenOthers

/-- A comma behind the last item makes no difference. -/
theorem listedUpTo_takes_trailing (separatedInside : Separated phrases inside)
    (nonempty : phrases ≠ [])
    (takes : ∀ phrase ∈ phrases, item.Takes phrase (EndsItem close))
    (opens : ∀ phrase ∈ phrases, OpensBefore close phrase) (last : Location)
    {rest : List Token} (closes : startsWith .punctuation close rest = true) :
    listedUpTo close item (inside.tokens ++ Token.ofMark "," last :: rest) =
      .ok (inside.tree, rest) := by
  induction separatedInside with
  | none => exact absurd rfl nonempty
  | one only =>
      have nothingLeft : listedUpTo close item rest = .ok ([], rest) := by
        rw [listedUpTo]
        simp [closes]
      exact listedUpTo_more (opens only (by simp)) (takes only (by simp)) nothingLeft
  | @more first second others inside comma _ ih =>
      have takenOthers := ih (by simp)
        (fun phrase member => takes phrase (List.mem_cons_of_mem _ member))
        (fun phrase member => opens phrase (List.mem_cons_of_mem _ member))
      rw [List.append_assoc, List.cons_append]
      exact listedUpTo_more (opens first (by simp)) (takes first (by simp)) takenOthers

theorem listedUpTo_takes (close : String) (listed : Listed phrases inside)
    (notComma : close ≠ ",")
    (takes : ∀ phrase ∈ phrases, item.Takes phrase (EndsItem close))
    (opens : ∀ phrase ∈ phrases, OpensBefore close phrase) :
    (listedUpTo close item).Takes inside
      fun rest => startsWith .punctuation close rest = true := by
  intro rest closes
  cases listed with
  | plain separated =>
      exact listedUpTo_takes_separated separated notComma takes opens closes
  | trailing comma separated =>
      simpa using
        listedUpTo_takes_trailing separated (by simp) takes opens comma closes

/-- Items are read up to the closing mark if each is taken before the next item and
before the closing mark. -/
theorem repeatedUpTo_takes (close : String) {before : List Token → Prop}
    (closing : ∀ rest, startsWith .punctuation close rest = true → before rest)
    (opening : ∀ phrase ∈ phrases, ∀ rest, before (phrase.tokens ++ rest))
    (takes : ∀ phrase ∈ phrases, item.Takes phrase before)
    (opens : ∀ phrase ∈ phrases, OpensBefore close phrase) :
    (repeatedUpTo close item).Takes (succession phrases)
      fun rest => startsWith .punctuation close rest = true := by
  intro rest closes
  induction phrases with
  | nil =>
      rw [repeatedUpTo]
      simp [succession, closes]
  | cons first others ih =>
      have takenOthers := ih
        (fun phrase member => opening phrase (List.mem_cons_of_mem _ member))
        (fun phrase member => takes phrase (List.mem_cons_of_mem _ member))
        (fun phrase member => opens phrase (List.mem_cons_of_mem _ member))
      -- An item stands before the next one, and the last one before the mark.
      have next : before ((succession others).tokens ++ rest) := by
        cases others with
        | nil => exact closing rest closes
        | cons second others =>
            simpa [succession] using opening second (by simp) _
      have taken := takes first (by simp) _ next
      have opensFirst := opens first (by simp)
      have someTokens := List.length_pos_iff.mpr opensFirst.ne_nil
      have split : (succession (first :: others)).tokens ++ rest =
          first.tokens ++ ((succession others).tokens ++ rest) := by simp [succession]
      rw [repeatedUpTo, split]
      simp [opensFirst _, opensFirst.ne_nil, taken, takenOthers, someTokens]
      rfl

end Lists

end TwinSwarm.Grammar
