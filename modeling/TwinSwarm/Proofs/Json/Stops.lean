import TwinSwarm.Proofs.Json.Decoder

/-!
# Where readers stop

A reader that takes its text up to a part for which it stops reports the cause of that part.  So the
cause for which a part of a document is refused can be followed from the inside to the outside.
-/

namespace TwinSwarm.Json.Reading

variable {α β σ : Type} {levels depth : Nat} {text middle tail after : List Char} {cause : Cause}
variable {reading : Reading α}

/-- The reader stops at the text for the cause. -/
def StopsFor (reading : Reading α) (levels : Nat) (text : List Char) (cause : Cause) : Prop :=
  ∀ passage : Passage, passage.rest = text →
    ∃ stop, reading levels passage = .error stop ∧ stop.fault.cause = cause

namespace StopsFor

theorem of_bind {next : α → Reading β} (stops : reading.StopsFor levels text cause) :
    (reading >>= next).StopsFor levels text cause := by
  intro passage isText
  rcases stops passage isText with ⟨stop, stopped, isCause⟩
  exact ⟨stop, by rw [bind_apply, stopped], isCause⟩

/-- A reader that stops behind one that takes its text. -/
theorem of_taken {next : α → Reading β} {value : α}
    (taken : reading.Answers levels text middle (some value))
    (stops : (next value).StopsFor levels middle cause) :
    (reading >>= next).StopsFor levels text cause := by
  intro passage isText
  rcases taken passage isText with ⟨stand, isTaken, isMiddle⟩
  rw [bind_apply, isTaken]
  exact stops stand isMiddle

theorem of_behindSpace {next : Option Char → Reading β}
    (isMiddle : text.dropWhile Passage.isSpace = middle)
    (stops : (next middle.head?).StopsFor levels middle cause) :
    (peekBehindSpace >>= next).StopsFor levels text cause := by
  subst isMiddle
  exact of_taken (Answers.of_peekBehindSpace levels text) stops

theorem of_settled (levels : Nat) (text : List Char) (cause : Cause) :
    (settled (.error cause) : Reading α).StopsFor levels text cause :=
  fun _ _ => ⟨_, rfl, rfl⟩

theorem of_settledLater (levels : Nat) (text : List Char) (cause : Cause) :
    (settledLater (.error cause) : Reading α).StopsFor levels text cause :=
  fun _ _ => ⟨_, rfl, rfl⟩

end StopsFor

/-! ## Lists -/

section Lists

variable {item : Reading α} {manner : Manner} {first : Bool}

theorem items_stops_here (moves : (nextItem manner first).Answers levels text middle (some true))
    (stops : item.StopsFor levels middle cause) :
    (items manner item first).StopsFor levels text cause := by
  intro passage isText
  rcases moves passage isText with ⟨stand, moved, isMiddle⟩
  rcases stops stand isMiddle with ⟨stop, stopped, isCause⟩
  refine ⟨stop, ?_, isCause⟩
  rw [items]
  simp only [moved, stopped]

theorem items_stops_later {value : α}
    (moves : (nextItem manner first).Answers levels text middle (some true))
    (taken : item.Answers levels middle tail (some value)) (shorter : tail.length < text.length)
    (stops : (items manner item false).StopsFor levels tail cause) :
    (items manner item first).StopsFor levels text cause := by
  intro passage isText
  rcases moves passage isText with ⟨stand, moved, isMiddle⟩
  rcases taken stand isMiddle with ⟨next, isTaken, isTail⟩
  have shrinks : next.size < passage.size := by
    rw [next.size_eq, passage.size_eq, isTail, isText]
    exact shorter
  rcases stops next isTail with ⟨stop, stopped, isCause⟩
  refine ⟨stop, ?_, isCause⟩
  rw [items]
  simp only [moved, isTaken, dif_pos shrinks, stopped]

/-- The inside of a container stops the whole. -/
theorem enclosed_stops {leave : Passage → Passage × Option Cause} {inside : Reading α}
    (opening : Char) (stops : inside.StopsFor levels text cause) :
    (enclosed leave inside).StopsFor (levels + 1) (opening :: text) cause := by
  intro passage isText
  rcases stops passage.advance (passage.rest_advance isText) with ⟨stop, stopped, isCause⟩
  rw [enclosed, stopped]
  cases stop with
  | placed other offset => exact ⟨_, rfl, isCause⟩
  | loose other stand => exact ⟨_, rfl, isCause⟩

variable {before after : List Json} {document : Json}

/-- If the items of a list are answered up to one for which the reader stops, it stops for that. -/
theorem items_stops {last : List Char}
    (answers : ∀ value ∈ before, ∀ tail, Delimits tail → ∃ read,
      item.Answers levels (textAt depth value tail) tail (some read))
    (stops : ∀ tail, Delimits tail → item.StopsFor levels (textAt depth document tail) cause)
    (delimits : Delimits last) : (items .keep item false).StopsFor levels
      (itemsText depth (before ++ document :: after) last) cause := by
  induction before with
  | nil =>
      apply items_stops_here (nextItem_answers_comma .keep (opens_textAt depth document _))
      exact stops _ (delimits.itemsText depth after)
  | cons first before fromRest =>
      rw [List.forall_mem_cons] at answers
      rcases answers.1 _ (delimits.itemsText depth (before ++ document :: after)) with
        ⟨read, isRead⟩
      apply items_stops_later (nextItem_answers_comma .keep (opens_textAt depth first _)) isRead
      · exact Nat.lt_succ_of_lt (length_lt_item depth first _)
      · exact fromRest answers.2

/-- So does the reader of the list. -/
theorem list_stops {outer : List Char}
    (answers : ∀ value ∈ before, ∀ tail, Delimits tail → ∃ read,
      item.Answers levels (textAt (depth + 1) value tail) tail (some read))
    (stops : ∀ tail, Delimits tail →
      item.StopsFor levels (textAt (depth + 1) document tail) cause) :
    (list item).StopsFor (levels + 1)
      (' ' :: textAt depth (.array (before ++ document :: after)) outer) cause := by
  apply StopsFor.of_behindSpace (opens_textAt depth _ outer).dropWhile_space
  cases before with
  | nil =>
      apply enclosed_stops '['
      apply items_stops_here (nextItem_answers_first .keep (opens_textAt (depth + 1) document _))
      exact stops _ ((Delimits.line depth _).itemsText (depth + 1) after)
  | cons first before =>
      rw [List.forall_mem_cons] at answers
      rcases answers.1 _ ((Delimits.line depth (']' :: outer)).itemsText (depth + 1)
        (before ++ document :: after)) with ⟨read, isRead⟩
      apply enclosed_stops '['
      apply items_stops_later
        (nextItem_answers_first .keep (opens_textAt (depth + 1) first _)) isRead
      · exact length_lt_item (depth + 1) first _
      · exact items_stops answers.2 stops (.line depth _)

end Lists

/-! ## Members -/

section Members

variable {take : σ → String → Reading σ} {manner : Manner} {first : Bool} {state : σ}
variable {name : String}

theorem foldMembers_stops_here
    (moves : (nextKey manner first).Answers levels text middle (some (some name)))
    (stops : (take state name).StopsFor levels middle cause) :
    (foldMembers manner take first state).StopsFor levels text cause := by
  intro passage isText
  rcases moves passage isText with ⟨stand, moved, isMiddle⟩
  rcases stops stand isMiddle with ⟨stop, stopped, isCause⟩
  refine ⟨stop, ?_, isCause⟩
  rw [foldMembers]
  simp only [moved, stopped]

theorem foldMembers_stops_later {next : σ}
    (moves : (nextKey manner first).Answers levels text middle (some (some name)))
    (taken : (take state name).Answers levels middle tail (some next))
    (shorter : tail.length < text.length)
    (stops : (foldMembers manner take false next).StopsFor levels tail cause) :
    (foldMembers manner take first state).StopsFor levels text cause := by
  intro passage isText
  rcases moves passage isText with ⟨stand, moved, isMiddle⟩
  rcases taken stand isMiddle with ⟨last, isTaken, isTail⟩
  have shrinks : last.size < passage.size := by
    rw [last.size_eq, passage.size_eq, isTail, isText]
    exact shorter
  rcases stops last isTail with ⟨stop, stopped, isCause⟩
  refine ⟨stop, ?_, isCause⟩
  rw [foldMembers]
  simp only [moved, isTaken, dif_pos shrinks, stopped]

end Members

/-! ## Records, nodes and whole texts -/

/-- The reader of the members of a record stops the reader of the record. -/
theorem record_stops {types : List Type} {fields : Fields Reading types} {build : Values types → α}
    {members : List (Entry Json)} (description : String)
    (stops : (recordMembers fields).StopsFor levels (textAt depth (.object members) after).tail
      cause) :
    (record description fields build).StopsFor (levels + 1) (textAt depth (.object members) after)
      cause := by
  apply StopsFor.of_behindSpace (opens_textAt depth _ after).dropWhile_eq
  cases members with
  | nil => exact (enclosed_stops '\x7b' stops).of_bind
  | cons first rest => exact (enclosed_stops '\x7b' stops).of_bind

section Nodes

variable {variants : List (Variant α)} {typeName : String} {kind : Variant α}
variable {parts read : List (Entry Json)}

/-- The reader of a node stops at the name of an unknown kind. -/
theorem node_stops_for_name (description : String)
    (unknown : choose (Variant.entries variants) typeName = .error cause) :
    (node description variants).StopsFor (levels + 1) (textAt depth (.node typeName parts) after)
      cause := by
  have isName : (tag variants).StopsFor levels (' ' :: textAt (depth + 1) (.string typeName)
      (membersText (depth + 1) parts (lineText depth ('\x7d' :: after)))) cause := by
    have isKept : kept.Answers levels (textAt (depth + 1) (.string typeName) _) _ _ :=
      kept_answers_textAt (.string typeName)
        ((Delimits.line depth ('\x7d' :: after)).membersText (depth + 1) parts)
    apply StopsFor.of_behindSpace rfl
    apply StopsFor.of_taken isKept
    rw [chooseString, unknown]
    exact .of_settled _ _ cause
  apply StopsFor.of_behindSpace (opens_textAt depth _ after).dropWhile_eq
  apply StopsFor.of_bind
  apply enclosed_stops '\x7b'
  apply StopsFor.of_bind
  apply foldMembers_stops_here (nextKey_answers_first .keep tagKey)
  rw [splitMember, if_pos rfl]
  apply StopsFor.of_taken colon_answers
  exact isName.of_bind

/-- The reader of a node stops where its rest is refused. -/
theorem node_stops_for_rest (description : String)
    (chosen : choose (Variant.entries variants) typeName = .ok kind)
    (plain : tagKey ∉ parts.map Entry.key) (isRead : rereadMembers? levels parts = some read)
    (refused : kind.body (.object read) = .error cause) :
    (node description variants).StopsFor (levels + 1) (textAt depth (.node typeName parts) after)
      cause := by
  have members : (nodeMembers variants).Answers levels
      (textAt depth (.node typeName parts) after).tail ('\x7d' :: after)
      ((rereadMembers? levels parts).map fun read => (kind, .object read)) :=
    nodeMembers_answers chosen plain
  rw [isRead] at members
  apply StopsFor.of_behindSpace (opens_textAt depth _ after).dropWhile_eq
  apply StopsFor.of_taken (object_answers members)
  show StopsFor (settledLater (kind.body (.object read))) _ _ cause
  rw [refused]
  exact .of_settledLater _ _ cause

end Nodes

theorem wholeText_stops {text : String} (stops : reading.StopsFor levelLimit text.toList cause) :
    ∃ fault, wholeText reading text = .error fault ∧ fault.cause = cause := by
  rcases stops (.start text.toList) rfl with ⟨stop, stopped, isCause⟩
  refine ⟨stop.fault, ?_, isCause⟩
  rw [wholeText, stopped]

end TwinSwarm.Json.Reading
