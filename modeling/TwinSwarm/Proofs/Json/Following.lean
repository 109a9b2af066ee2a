import TwinSwarm.Proofs.Json.Scattered
import TwinSwarm.Proofs.Json.Skipped

/-!
# Readers and documents

A text that can be kept as a document can be read directly as well: the reader of a list or of a
node follows the document if the readers of its parts follow the parts of the document.
-/

namespace TwinSwarm.Json.Reading

variable {α β σ : Type} {levels : Nat} {passage next : Passage} {document : Json}

/-! ## Containers that are kept -/

/-- All values that the reader gives satisfy the condition. -/
def Gives (reading : Reading α) (condition : α → Prop) : Prop :=
  ∀ levels passage value next, reading levels passage = .ok (value, next) → condition value

theorem Gives.of_pure {condition : α → Prop} {value : α} (holds : condition value) :
    Gives (pure value) condition := by
  intro levels passage value next isRead
  cases isRead
  exact holds

theorem Gives.of_bind {reading : Reading α} {next : α → Reading β} {condition : β → Prop}
    (gives : ∀ value, Gives (next value) condition) : Gives (reading >>= next) condition := by
  intro levels passage value last isRead
  rw [bind_apply] at isRead
  split at isRead
  next first stand _ => exact gives first levels stand value last isRead
  next => cases isRead

theorem number_gives (manner : Manner) (negative : Bool) :
    Gives (number manner negative) IsScalar := by
  refine .of_bind fun whole => .of_bind fun fraction => .of_bind fun exponent => ?_
  cases manner with
  | skip => exact .of_pure trivial
  | keep =>
      intro levels passage value next isRead
      change valueOf _ levels passage = _ at isRead
      rw [valueOf] at isRead
      split at isRead
      next found isValue =>
        cases isRead
        rcases isNumber_of_value isValue with ⟨_, rfl⟩ | ⟨_, rfl⟩ <;> trivial
      next => cases isRead

/-- How the members of an object that is kept are taken. -/
def collect (inner : Reading Json) (members : List (Entry Json)) (key : String) :
    Reading (List (Entry Json)) := do
  colon
  return members ++ [⟨key, ← inner⟩]

/-- A value is no container, or it has been read between brackets. -/
theorem valueAround_cases {manner : Manner} {inner : Reading Json}
    (isRead : valueAround manner inner levels passage = .ok (document, next)) :
    (document.IsScalar ∧ passage.dropSpace.rest.head? ≠ some '[' ∧
      passage.dropSpace.rest.head? ≠ some '\x7b') ∨
      (passage.dropSpace.rest.head? = some '[' ∧ ∃ values, document = .array values ∧
        enclosed leaveList (items manner inner true) levels passage.dropSpace =
          .ok (values, next)) ∨
      passage.dropSpace.rest.head? = some '\x7b' ∧ ∃ members, document = .object members ∧
        enclosed leaveObject (foldMembers manner (collect inner) true []) levels passage.dropSpace =
          .ok (members, next) := by
  have isPeeked : peekBehindSpace levels passage =
      .ok (passage.dropSpace.rest.head?, passage.dropSpace) := rfl
  have ofPassed {third : Unit → Reading Json} (gives : Gives (third ()) IsScalar)
      (isRead : (pass >>= third) levels passage.dropSpace = .ok (document, next)) :
      document.IsScalar :=
    gives levels passage.dropSpace.advance document next isRead
  have ofEnclosed {α : Type} {leave : Passage → Passage × Option Cause} {inside : Reading α}
      {make : α → Json} (isRead : (enclosed leave inside >>= fun value => pure (make value)) levels
        passage.dropSpace = .ok (document, next)) :
      ∃ value, document = make value ∧
        enclosed leave inside levels passage.dropSpace = .ok (value, next) := by
    rw [bind_apply] at isRead
    split at isRead
    next value stand isEnclosed =>
      cases isRead
      exact ⟨value, rfl, isEnclosed⟩
    next => cases isRead
  rw [valueAround, bind_apply, isPeeked] at isRead
  dsimp only at isRead
  generalize passage.dropSpace.rest.head? = character at isRead ⊢
  split at isRead
  case h_1 => cases isRead
  case h_5 => exact .inl ⟨ofPassed (number_gives manner true) isRead, by decide, by decide⟩
  case h_7 => exact .inr (.inl ⟨rfl, ofEnclosed isRead⟩)
  case h_8 => exact .inr (.inr ⟨rfl, ofEnclosed isRead⟩)
  case h_9 noList noObject =>
    split at isRead
    · refine .inl ⟨number_gives manner false _ _ _ _ isRead, ?_, ?_⟩
      · exact fun isList => noList (Option.some.inj isList)
      · exact fun isObject => noObject (Option.some.inj isObject)
    · cases isRead
  -- Words and strings have no parts.
  all_goals
    exact .inl ⟨ofPassed (.of_bind fun _ => .of_pure trivial) isRead, by decide, by decide⟩

theorem enclosed_cases {leave : Passage → Passage × Option Cause} {inside : Reading α} {value : α}
    (isRead : enclosed leave inside (levels + 1) passage = .ok (value, next)) :
    ∃ stand, inside levels passage.advance = .ok (value, stand) ∧ leave stand = (next, none) := by
  rw [enclosed] at isRead
  split at isRead
  case h_1 | h_2 => cases isRead
  next read stand isInside =>
    split at isRead
    next last isLeft =>
      cases isRead
      exact ⟨stand, isInside, isLeft⟩
    next => cases isRead

theorem enclosed_of_inside {leave : Passage → Passage × Option Cause} {inside : Reading α}
    {value : α} {stand : Passage} (isInside : inside levels passage.advance = .ok (value, stand))
    (isLeft : leave stand = (next, none)) :
    enclosed leave inside (levels + 1) passage = .ok (value, next) := by
  rw [enclosed]
  simp only [isInside, isLeft]

/-- An array that is kept stands in brackets. -/
theorem kept_array {documents : List Json}
    (isKept : kept (levels + 1) passage = .ok (.array documents, next)) :
    passage.dropSpace.rest.head? = some '[' ∧ ∃ stand,
      items .keep (fun _ => kept levels) true levels passage.dropSpace.advance =
        .ok (documents, stand) ∧ leaveList stand = (next, none) := by
  rcases valueAround_cases isKept with ⟨isScalar, _⟩ | ⟨isNext, _, ⟨⟩, isRead⟩ | ⟨_, _, ⟨⟩, _⟩
  · exact isScalar.elim
  · exact ⟨isNext, enclosed_cases isRead⟩

/-- An object that is kept stands in braces. -/
theorem kept_object {members : List (Entry Json)}
    (isKept : kept (levels + 1) passage = .ok (.object members, next)) :
    passage.dropSpace.rest.head? = some '\x7b' ∧ ∃ stand,
      foldMembers .keep (collect fun _ => kept levels) true [] levels passage.dropSpace.advance =
        .ok (members, stand) ∧ leaveObject stand = (next, none) := by
  rcases valueAround_cases isKept with ⟨isScalar, _⟩ | ⟨_, _, ⟨⟩, _⟩ | ⟨isNext, _, ⟨⟩, isRead⟩
  · exact isScalar.elim
  · exact ⟨isNext, enclosed_cases isRead⟩

/-! ## Values and lists -/

/-- Wherever the document can be kept, the reader gives the value and leaves the same text behind
it. -/
def Follows (reading : Reading α) (levels : Nat) (document : Json) (value : α) : Prop :=
  ∀ passage next, kept levels passage = .ok (document, next) →
    reading levels passage = .ok (value, next)

theorem skipped_follows (levels : Nat) (document : Json) : Follows skipped levels document () :=
  fun _ _ isKept => skipped_of_kept isKept

theorem scalar_follows {test : Json → Except Cause α} {value : α} (isScalar : document.IsScalar)
    (isValue : test document = .ok value) : Follows (scalar test) levels document value := by
  intro passage next isKept
  have isRead := isKept
  rw [kept, value_eq_valueAround] at isRead
  rcases valueAround_cases isRead with ⟨_, noList, noObject⟩ | ⟨_, _, rfl, _⟩ | ⟨_, _, rfl, _⟩
  · rw [kept_skipsSpace] at isKept
    have isPeeked : peekBehindSpace levels passage =
        .ok (passage.dropSpace.rest.head?, passage.dropSpace) := rfl
    rw [scalar, bind_apply, isPeeked]
    dsimp only
    generalize passage.dropSpace.rest.head? = character at noList noObject ⊢
    split
    · exact absurd rfl noList
    · exact absurd rfl noObject
    next =>
      rw [bind_apply, isKept]
      dsimp only
      rw [isValue]
      rfl
  · exact isScalar.elim
  · exact isScalar.elim

theorem items_follow {inner : Reading Json} {item : Reading α} {documents : List Json}
    {values : List α} {first : Bool} (isInner : inner levels = kept levels)
    (follow : List.Forall₂ (item.Follows levels) documents values)
    (isRead : items .keep inner first levels passage = .ok (documents, next)) :
    items .keep item first levels passage = .ok (values, next) := by
  induction follow generalizing passage first with
  | nil =>
      rw [items] at isRead ⊢
      split at isRead
      case h_1 => cases isRead
      next stand isEnd =>
        cases isRead
        rfl
      next stand _ =>
        split at isRead
        case h_1 => cases isRead
        next => split at isRead <;> [split at isRead; skip] <;> cases isRead
  | @cons document value documents values ofFirst ofRest fromRest =>
      rw [items] at isRead
      split at isRead
      case h_1 | h_2 => cases isRead
      next stand isItem =>
        split at isRead
        case h_1 => cases isRead
        next read behind isKept =>
          rw [isInner] at isKept
          split at isRead
          next shorter =>
            split at isRead
            case h_1 => cases isRead
            next rest last isRest =>
              cases isRead
              have isValue := ofFirst stand behind isKept
              rw [items]
              simp only [isItem, isValue, dif_pos shorter, fromRest isRest]
          next notShorter =>
            cases isRead
            -- A reader that does not move on has read the last item.
            cases ofRest
            have isValue := ofFirst stand next isKept
            rw [items]
            simp only [isItem, isValue, dif_neg notShorter]

theorem list_follows {item : Reading α} {documents : List Json} {values : List α}
    (follow : List.Forall₂ (item.Follows levels) documents values) :
    (list item).Follows (levels + 1) (.array documents) values := by
  intro passage next isKept
  rcases kept_array isKept with ⟨isNext, stand, isRead, isLeft⟩
  have isEnclosed := enclosed_of_inside (items_follow (by rfl) follow isRead) isLeft
  simp only [list, bind_apply, peekBehindSpace, space, peek, isNext, isEnclosed]

/-! ## Objects -/

/-- Wherever a colon and the document behind it can be kept, the reader gives the value and leaves
the same text behind it. -/
def FollowsColon (reading : Reading α) (levels : Nat) (document : Json) (value : α) : Prop :=
  ∀ (passage between next : Passage), colon levels passage = .ok ((), between) →
    kept levels between = .ok (document, next) → reading levels passage = .ok (value, next)

theorem FollowsColon.of_follows {reading : Reading α} {value : α} {make : α → β}
    (follows : reading.Follows levels document value) :
    FollowsColon (colon >>= fun _ => reading >>= fun value => pure (make value)) levels document
      (make value) := by
  intro passage between next isColon isKept
  simp only [bind_apply, isColon, follows between next isKept, pure_apply]

theorem collect_eq_ok {inner : Reading Json} {before all : List (Entry Json)} {key : String}
    (isRead : collect inner before key levels passage = .ok (all, next)) :
    ∃ between value, colon levels passage = .ok ((), between) ∧
      inner levels between = .ok (value, next) ∧ all = before ++ [⟨key, value⟩] := by
  rw [collect, bind_apply] at isRead
  split at isRead
  case h_2 => cases isRead
  next between isColon =>
    rw [bind_apply] at isRead
    split at isRead
    case h_2 => cases isRead
    next value stand isValue =>
      cases isRead
      exact ⟨between, value, isColon, isValue, rfl⟩

/-- The members take a reader of members from one state to another one. -/
def TakesAll (take : σ → String → Reading σ) (levels : Nat) : List (Entry Json) → σ → σ → Prop
  | [], state, last => state = last
  | member :: rest, state, last =>
      ∃ between, FollowsColon (take state member.key) levels member.value between ∧
        TakesAll take levels rest between last

theorem TakesAll.append {take : σ → String → Reading σ} {members others : List (Entry Json)}
    {state between last : σ} (first : TakesAll take levels members state between)
    (second : TakesAll take levels others between last) :
    TakesAll take levels (members ++ others) state last := by
  induction members generalizing state with
  | nil =>
      cases first
      exact second
  | cons member members fromRest =>
      rcases first with ⟨next, ofMember, ofRest⟩
      exact ⟨next, ofMember, fromRest ofRest⟩

/-- Where the members of an object are kept, a reader of members that follows each of them takes
all of them. -/
theorem foldMembers_follows {inner : Reading Json} {first : Bool} {before all : List (Entry Json)}
    (isInner : inner levels = kept levels)
    (isRead : foldMembers .keep (collect inner) first before levels passage = .ok (all, next)) :
    ∃ members, all = before ++ members ∧ ∀ {σ : Type} {take : σ → String → Reading σ}
      {state last : σ}, TakesAll take levels members state last →
        foldMembers .keep take first state levels passage = .ok (last, next) := by
  -- The members come out of the reading of the kept ones, and every other reader is run along it.
  induction size : passage.size using Nat.strongRecOn generalizing passage first before with
  | ind size ih =>
      rw [foldMembers] at isRead
      split at isRead
      case h_1 => cases isRead
      next stand isEnd =>
        cases isRead
        refine ⟨[], (List.append_nil _).symm, ?_⟩
        intro σ take state last takes
        cases takes
        rw [foldMembers]
        simp only [isEnd]
      next key stand isKey =>
        split at isRead
        case h_1 => cases isRead
        next between behind isTaken =>
          rcases collect_eq_ok isTaken with ⟨value, middle, isColon, isValue, rfl⟩
          rw [isInner] at isValue
          split at isRead
          next shorter =>
            rcases ih behind.size (size ▸ shorter) isRead rfl with ⟨members, rfl, ofTakes⟩
            refine ⟨⟨key, _⟩ :: members, List.append_assoc _ _ _, ?_⟩
            rintro σ take state last ⟨between, ofMember, ofRest⟩
            have isTaken := ofMember stand _ behind isColon isValue
            rw [foldMembers]
            simp only [isKey, isTaken, dif_pos shorter, ofTakes ofRest]
          next notShorter =>
            cases isRead
            refine ⟨[⟨key, _⟩], rfl, ?_⟩
            rintro σ take state last ⟨between, ofMember, rfl⟩
            have isTaken := ofMember stand _ next isColon isValue
            rw [foldMembers]
            simp only [isKey, isTaken, dif_neg notShorter]

/-- Between braces, a reader of members that follows each of them takes all of them. -/
theorem enclosed_follows {take : σ → String → Reading σ} {make : σ → Reading α} {value : α}
    {state last : σ} {members : List (Entry Json)} (takes : TakesAll take levels members state last)
    (isMade : ∀ passage, make last levels passage = .ok (value, passage))
    (isKept : kept (levels + 1) passage = .ok (.object members, next)) :
    passage.dropSpace.rest.head? = some '\x7b' ∧
      enclosed leaveObject (foldMembers .keep take true state >>= make) (levels + 1)
        passage.dropSpace = .ok (value, next) := by
  rcases kept_object isKept with ⟨isNext, stand, isRead, isLeft⟩
  rcases foldMembers_follows (by rfl) isRead with ⟨_, rfl, ofTakes⟩
  refine ⟨isNext, enclosed_of_inside ?_ isLeft⟩
  rw [bind_apply, ofTakes takes]
  exact isMade stand

/-! ## Nodes -/

section Nodes

variable {variants : List (Variant α)} {typeName : String} {variant : Variant α} {value : α}
variable {members before after : List (Entry Json)}

theorem tag_follows (chosen : choose (Variant.entries variants) typeName = .ok variant) :
    (tag variants).Follows levels (.string typeName) variant :=
  scalar_follows trivial chosen

theorem takesAll_of_plain (plain : tagKey ∉ members.map Entry.key) (found : Option (Variant α))
    (others : List (Entry Json)) :
    TakesAll (splitMember variants) levels members (found, others) (found, others ++ members) := by
  induction members generalizing others with
  | nil => exact congrArg (Prod.mk found) (List.append_nil others).symm
  | cons member members fromRest =>
      rw [List.map_cons, List.mem_cons, not_or] at plain
      refine ⟨(found, others ++ [member]), ?_, ?_⟩
      · show FollowsColon (if member.key = tagKey then _ else _) levels member.value _
        rw [if_neg (Ne.symm plain.1)]
        exact .of_follows fun _ _ isKept => isKept
      · have takes := fromRest plain.2 (others ++ [member])
        rw [List.append_assoc] at takes
        exact takes

/-- A node is read as the kind that it names, wherever the name stands. -/
theorem node_follows (description : String)
    (chosen : choose (Variant.entries variants) typeName = .ok variant)
    (plain : tagKey ∉ (before ++ after).map Entry.key)
    (decodes : variant.body (.object (before ++ after)) = .ok value) :
    (node description variants).Follows (levels + 1)
      (.object (before ++ ⟨tagKey, .string typeName⟩ :: after)) value := by
  rw [List.map_append, List.mem_append, not_or] at plain
  have ofTag : FollowsColon (splitMember variants (none, before) tagKey) levels (.string typeName)
      (some variant, before) := by
    rw [splitMember, if_pos rfl]
    exact .of_follows (tag_follows chosen)
  have takes : TakesAll (splitMember variants) levels
      (before ++ ⟨tagKey, .string typeName⟩ :: after) (none, []) (some variant, before ++ after) :=
    (takesAll_of_plain plain.1 none []).append ⟨_, ofTag, takesAll_of_plain plain.2 _ _⟩
  intro passage next isKept
  have isRead : passage.dropSpace.rest.head? = some '\x7b' ∧
      enclosed leaveObject (nodeMembers variants) (levels + 1) passage.dropSpace =
        .ok ((variant, .object (before ++ after)), next) :=
    enclosed_follows takes (fun _ => rfl) isKept
  simp only [node, bind_apply, peekBehindSpace, space, peek, isRead.1, isRead.2, settledLater,
    decodes, pure_apply]

end Nodes

/-! ## Records -/

section Records

variable {types : List Type} {fields : Fields Reading types} {members : List (Entry Json)}

/-- A member that belongs to no field is passed over. -/
theorem fill_follows_of_notMem : {types : List Type} → (fields : Fields Reading types) →
    (slots : Slots types) → {key : String} → key ∉ fields.names →
      FollowsColon (fill fields slots key) levels document slots
  | _, .nil, slots, _, _ => .of_follows (skipped_follows levels document)
  | _, .cons field rest, (slot, slots), key, unknown => by
      rw [Fields.names, List.mem_cons, not_or] at unknown
      intro passage between next isColon isKept
      have isRest := fill_follows_of_notMem rest slots unknown.2 passage between next isColon isKept
      show (if key = field.name then _ else _ : Reading _) levels passage = _
      rw [if_neg unknown.1, bind_apply, isRest]
      rfl

theorem takesAll_of_foreign (foreign : ∀ member ∈ members, member.key ∉ fields.names)
    (slots : Slots types) : TakesAll (fill fields) levels members slots slots := by
  induction members with
  | nil => rfl
  | cons member members fromRest =>
      rw [List.forall_mem_cons] at foreign
      exact ⟨slots, fill_follows_of_notMem fields slots foreign.1, fromRest foreign.2⟩

/-- The first field of a record takes its member. -/
theorem fill_follows_first {field : Field Reading α} {value : α} {slots : Slots types}
    (follows : field.decoder.Follows levels document value) :
    FollowsColon (fill (.cons field fields) (none, slots) field.name) levels document
      (some value, slots) := by
  show FollowsColon (if field.name = field.name then _ else _) levels document _
  rw [if_pos rfl]
  exact .of_follows follows

/-- A record is read from members that fill its slots. -/
theorem record_follows {build : Values types → α} {slots : Slots types} {values : Values types}
    (description : String) (takes : TakesAll (fill fields) levels members (.empty types) slots)
    (areFinished : fields.finish slots = .ok values) :
    (record description fields build).Follows (levels + 1) (.object members) (build values) := by
  intro passage next isKept
  have isRead : passage.dropSpace.rest.head? = some '\x7b' ∧
      enclosed leaveObject (recordMembers fields) (levels + 1) passage.dropSpace =
        .ok (values, next) := by
    refine enclosed_follows takes (fun passage => ?_) isKept
    rw [areFinished]
    rfl
  simp only [record, bind_apply, peekBehindSpace, space, peek, isRead.1, isRead.2, pure_apply]

end Records

/-! ## Whole texts -/

theorem wholeText_of_follows {reading : Reading α} {value : α} {text : String}
    (follows : reading.Follows levelLimit document value)
    (isKept : wholeText kept text = .ok document) : wholeText reading text = .ok value := by
  rw [wholeText] at isKept ⊢
  split at isKept
  case h_1 => cases isKept
  next read passage isRead =>
    dsimp only at isKept
    split at isKept
    next isEnd =>
      cases isKept
      rw [follows _ _ isRead]
      exact if_pos isEnd
    next => cases isKept

end TwinSwarm.Json.Reading
