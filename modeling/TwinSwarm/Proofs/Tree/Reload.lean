import TwinSwarm.Proofs.Json.Blame
import TwinSwarm.Proofs.Tree.Format

/-!
# Trees from any document can be written again

What is decoded from a document is written as a document that nests no deeper, although parts that
the document lacks are written out: where a location may be missing, something else nests as deep,
or the place is far from the deepest.  All its whole numbers fit 64 bits.  So the program of any
text that describes one is read back from its own text.
-/

namespace TwinSwarm

open Json (Buffered Fields Kinds Medium Values Variant WholesFit Written parts)

/-! ## Documents that can be read back -/

namespace Json

/-- The document does not nest too deeply, and its whole numbers fit 64 bits. -/
structure Fit (levels : Nat) (document : Json) : Prop where
  nesting : document.nesting ≤ levels
  wholes : WholesFit document.leaves

variable {levels : Nat} {values : List Json} {members : List (Entry Json)}

theorem wholesFit_leavesOfAll (fit : ∀ value ∈ values, WholesFit value.leaves) :
    WholesFit (leavesOfAll values) := by
  intro number isLeaf
  rcases mem_leavesOfAll_iff.mp isLeaf with ⟨value, isMember, isInside⟩
  exact fit value isMember number isInside

theorem fit_array (fit : ∀ value ∈ values, Fit levels value) :
    Fit (levels + 1) (.array values) where
  nesting := Nat.succ_le_succ
    (nestingOfAll_le_iff.mpr fun value isMember => (fit value isMember).nesting)
  wholes := wholesFit_leavesOfAll fun value isMember => (fit value isMember).wholes

theorem fit_object (fit : ∀ member ∈ members, Fit levels member.value) :
    Fit (levels + 1) (.object members) := by
  have valuesFit := List.forall_mem_map.mpr fit
  constructor
  · rw [nesting_eq_of_object]
    exact (fit_array valuesFit).nesting
  · rw [leaves, leavesOfMembers_eq]
    exact (fit_array valuesFit).wholes

theorem fit_string (levels : Nat) (text : String) : Fit levels (.string text) :=
  ⟨Nat.zero_le _, by simp [leaves]⟩

theorem fit_null (levels : Nat) : Fit levels .null :=
  ⟨Nat.zero_le _, by simp [leaves]⟩

theorem fit_headed (header : Option String) (fit : ∀ member ∈ members, Fit levels member.value) :
    Fit (levels + 1) (headed header members) := by
  cases header with
  | none => exact fit_object fit
  | some typeName => exact fit_object (List.forall_mem_cons.mpr ⟨fit_string levels typeName, fit⟩)

/-- The name of its kind does not make an object deeper. -/
theorem fit_node {tag : String} (fit : Fit levels (.object members)) :
    Fit levels (.node tag members) where
  nesting := by
    have shallow := fit.nesting
    simp only [Json.node, nesting, nestingOfMembers] at shallow ⊢
    omega
  wholes := by
    rw [leaves_node, wholesFit_cons]
    exact ⟨fun _ => Json.noConfusion, fit.wholes⟩

end Json

open Json (Fit)

/-! ## What decoders keep -/

/-- What is decoded from a document of limited nesting is written as one that can be read back.
This is said of those documents that a guard lets through. -/
def KeepsUnder (guard : Nat → Json → Nat → Prop) (size : Nat) {α : Type} (decoder : Buffered α)
    (encode : α → Json) : Prop :=
  ∀ document levels value, guard size document levels → document.nesting ≤ levels →
    decoder document = .ok value → Fit levels (encode value)

/-- The guard lets parts through, and what is left of documents.  Where there is room, two levels
are left. -/
structure Guards (room : Nat → Prop) (guard : Nat → Json → Nat → Prop) : Prop where
  part {size levels : Nat} {document part : Json} : guard size document (levels + 1) →
    part ∈ document.parts → guard (size - 1) part levels
  rest {size levels : Nat} {document rest : Json} : guard size document levels →
    Buffered.IsRest rest document → guard size rest levels
  roomy {size levels : Nat} {document : Json} : room (size - 1) → guard size document levels →
    2 ≤ levels

/-- The members that are written for the values of a record can be read back. -/
theorem Json.Written.fit {types : List Type} {fields : Fields Buffered types}
    {write : Values types → List (Entry Json)} {values : Values types} {among : List Json}
    {levels : Nat} {room : Prop} {R : {α : Type} → Buffered α → (α → Json) → Prop}
    (written : Written room R fields write) (drawn : fields.Drawn among values)
    (keeps : ∀ {α : Type} {decoder : Buffered α} {encode : α → Json}, R decoder encode →
      ∀ part ∈ among, ∀ value, decoder part = .ok value → Fit levels (encode value))
    (roomy : room → 1 ≤ levels) : ∀ member ∈ write values, Fit levels member.value := by
  induction written with
  | nil => exact List.forall_mem_nil _
  | lasting name _ ofPart _ fromRest =>
      rcases Fields.drawn_required drawn with ⟨⟨part, isPart, decoded⟩, others⟩
      exact List.forall_mem_cons.mpr ⟨keeps ofPart part isPart _ decoded, fromRest others⟩
  | nullable name _ ofPart _ _ fromRest =>
      rcases values with ⟨value, values⟩
      rcases Fields.drawn_nullable drawn with ⟨rfl | ⟨value, rfl, part, isPart, decoded⟩, others⟩
      · exact List.forall_mem_cons.mpr ⟨fit_null levels, fromRest others⟩
      · exact List.forall_mem_cons.mpr ⟨keeps ofPart part isPart value decoded, fromRest others⟩
  | @emptied _ _ _ encode _ _ name _ isRoomy isEmpty ofPart _ fromRest =>
      rcases values with ⟨value, values⟩
      rcases Fields.drawn_defaulted drawn with ⟨rfl | ⟨part, isPart, decoded⟩, others⟩
      · have emptyFits : Fit levels (encode []) := by
          rw [isEmpty]
          exact ⟨roomy isRoomy, by simp [leaves, leavesOfAll]⟩
        exact List.forall_mem_cons.mpr ⟨emptyFits, fromRest others⟩
      · exact List.forall_mem_cons.mpr ⟨keeps ofPart part isPart value decoded, fromRest others⟩
  | located isRoomy ofPart =>
      rcases values with ⟨place, ⟨⟩⟩
      rcases Fields.drawn_defaulted drawn with ⟨rfl | ⟨part, isPart, decoded⟩, _⟩
      · have placeFits : WholesFit Location.nowhere.toJson.leaves :=
          (Location.wholesFit_toJson _).mpr (by decide)
        exact List.forall_mem_singleton.mpr ⟨roomy isRoomy, placeFits⟩
      · exact List.forall_mem_singleton.mpr (keeps ofPart part isPart place decoded)

section Keeps

variable {room : Nat → Prop} {guard : Nat → Json → Nat → Prop} {size : Nat} {α : Type}
variable {decoder : Buffered α} {encode : α → Json}

/-- What has no parts is written without parts. -/
theorem keepsUnder_plain (flat : ∀ value, (encode value).nesting = 0)
    (fit : ∀ document value, decoder document = .ok value → WholesFit (encode value).leaves) :
    KeepsUnder guard size decoder encode := by
  intro document levels value _ _ decoded
  exact ⟨by rw [flat]; exact Nat.zero_le _, fit document value decoded⟩

/-- A natural number that has been decoded fits 64 bits. -/
theorem natural_eq_ok {document : Json} {number : Nat}
    (decoded : (Medium.natural : Buffered Nat) document = .ok number) : number < 2 ^ 64 := by
  cases document with
  | integer value =>
      simp only [Medium.natural, Medium.scalar] at decoded
      split at decoded
      next small =>
        cases decoded
        have upper : value < 2 ^ 64 := small.2
        omega
      next => cases decoded
  | _ => cases decoded

/-- What is left of a node keeps what the node keeps. -/
theorem keepsUnder_body {variants : List (Variant α)} {variant : Variant α}
    (describes : Json.Describes (KeepsUnder guard size) variants encode)
    (isVariant : variant ∈ variants) : KeepsUnder guard size variant.body encode := by
  intro rest levels value guarded shallow isBody
  rcases describes with ⟨made, kinds, _⟩
  rcases kinds.of_mem isVariant with ⟨β, bare, write, make, isKind⟩
  rw [isKind.body] at isBody
  cases decodedBare : bare rest with
  | error cause =>
      rw [decodedBare] at isBody
      cases isBody
  | ok part =>
      rw [decodedBare] at isBody
      cases isBody
      rw [isKind.encodes]
      exact Json.fit_node (isKind.format rest levels part guarded shallow decodedBare)

/-- The relation is closed under the ways in which formats are put together. -/
theorem keepsUnder_closed (guards : Guards room guard) : Closed room (KeepsUnder guard) where
  string _ := keepsUnder_plain (fun _ => rfl) fun _ _ _ => by simp [Json.leaves]
  word _ := keepsUnder_plain (fun _ => rfl) fun _ value _ => by
    simp [Json.leaves, Json.Numeral.fits_toInt]
  natural _ := keepsUnder_plain (fun _ => rfl) fun document number decoded => by
    have small := natural_eq_ok decoded
    simp [Json.leaves, Json.Numeral.Fits]
    omega
  literal _ := keepsUnder_plain (fun literal => by cases literal <;> rfl) fun _ literal _ => by
    cases literal <;> simp [Literal.toJson, Json.leaves, Json.Numeral.fits_toInt]
  binaryOperator _ := keepsUnder_plain (fun _ => rfl) fun _ _ _ => by
    simp [BinaryOperator.toJson, Json.leaves]
  unaryOperator _ := keepsUnder_plain (fun _ => rfl) fun _ _ _ => by
    simp [UnaryOperator.toJson, Json.leaves]
  list {size α decoder encode} keeps := by
    intro document levels values guarded shallow decoded
    rcases Buffered.list_eq_ok decoded with ⟨nested, ofItems⟩
    cases levels with
    | zero => omega
    | succ levels =>
        apply Json.fit_array
        intro _ isMember
        rcases List.mem_map.mp isMember with ⟨value, isItem, rfl⟩
        rcases ofItems value isItem with ⟨part, isPart, isValue⟩
        have lower := Json.nesting_lt_of_part isPart
        exact keeps part levels value (guards.part guarded isPart) (by omega) isValue
  record {size α types fields write build encode} description header names written _ _ _ encodes
      _ := by
    intro document levels value guarded shallow decoded
    rcases Buffered.record_eq_ok decoded with ⟨nested, values, drawn, rfl⟩
    cases levels with
    | zero => omega
    | succ levels =>
        rw [encodes]
        apply Json.fit_headed
        apply written.fit drawn
        · intro α decoder encode keeps part isPart value isValue
          have lower := Json.nesting_lt_of_part isPart
          exact keeps part levels value (guards.part guarded isPart) (by omega) isValue
        · intro isRoomy
          -- A location that is missing is written all the same, and nests one level.
          have enough := guards.roomy isRoomy guarded
          omega
  node {size α variants encode} description describes _ _ := by
    intro document levels value guarded shallow decoded
    rcases Buffered.node_eq_ok decoded with ⟨variant, isVariant, rest, isRest, isBody⟩
    exact keepsUnder_body describes isVariant rest levels value (guards.rest guarded isRest)
      (Nat.le_trans isRest.nesting shallow) isBody

end Keeps

/-! ## Two guards -/

/-- Documents up to a height are let through. -/
def UpTo (size : Nat) (document : Json) (_ : Nat) : Prop := document.height ≤ size

theorem guards_upTo : Guards (fun _ => False) UpTo where
  part low isPart := Nat.le_sub_one_of_lt (Nat.lt_of_lt_of_le (Json.height_lt_of_part isPart) low)
  rest low isRest := Nat.le_trans isRest.height low
  roomy isRoomy := isRoomy.elim

theorem keepsUnder_bounded : Bounded (KeepsUnder UpTo) where
  zero _ _ := by
    intro document levels value low
    have positive := document.height_pos
    exact absurd low (by unfold UpTo; omega)
  smaller isSmaller keeps document levels value low :=
    keeps document levels value (Nat.le_trans low isSmaller)
  ofHeight keeps _ document levels value _ :=
    keeps document.height document levels value (Nat.le_refl _)

/-- Documents of which enough levels are left are let through. -/
def Above (size : Nat) (_ : Json) (levels : Nat) : Prop := size ≤ levels

theorem guards_above : Guards (1 ≤ ·) Above where
  part deep _ := Nat.sub_le_of_le_add deep
  rest deep _ := deep
  roomy isRoomy deep := by
    unfold Above at deep
    omega

/-! ## Expressions and statements -/

/-- Expressions have no locations, so they need no room. -/
theorem Expression.keepsUnder (guard : Nat → Json → Nat → Prop) (size : Nat) :
    KeepsUnder guard size decoder toJson :=
  fun document levels value _ => Expression.format (keepsUnder_closed guards_upTo)
    keepsUnder_bounded document.height document levels value (Nat.le_refl _)

/-- One of the fields has to be there and is decoded only from what nests. -/
inductive Json.Fields.Nests : {types : List Type} → Fields Buffered types → Prop where
  | here {α : Type} {types : List Type} {decoder : Buffered α} {rest : Fields Buffered types}
      (name : String) : (∀ document value, decoder document = .ok value → 0 < document.nesting) →
        Nests (.required name decoder rest)
  | later {α : Type} {types : List Type} {field : Json.Field Buffered α}
      {rest : Fields Buffered types} : Nests rest → Nests (.cons field rest)

theorem Json.Fields.Nests.exists_part {types : List Type} {fields : Fields Buffered types}
    {among : List Json} {values : Values types} (nests : fields.Nests)
    (drawn : fields.Drawn among values) : ∃ part ∈ among, 0 < part.nesting := by
  induction nests with
  | here name nested =>
      rcases (Fields.drawn_required drawn).1 with ⟨part, isPart, decoded⟩
      exact ⟨part, isPart, nested part _ decoded⟩
  | later _ fromRest => exact fromRest (Fields.drawn_cons drawn).2

theorem Json.Buffered.record_nests {α : Type} {types : List Type} {description : String}
    {fields : Fields Buffered types} {build : Values types → α} {document : Json} {value : α}
    (nests : fields.Nests) (decoded : record description fields build document = .ok value) :
    2 ≤ document.nesting := by
  rcases record_eq_ok decoded with ⟨_, values, drawn, _⟩
  rcases nests.exists_part drawn with ⟨part, isPart, nested⟩
  have lower := Json.nesting_lt_of_part isPart
  omega

namespace Statement

variable {inner : Buffered Statement}

/-- Each statement has an expression or a list next to its own location. -/
theorem nesting_of_decoded {document : Json} {statement : Statement}
    (decoded : (Medium.node description (variants inner) : Buffered Statement) document =
      .ok statement) : 2 ≤ document.nesting := by
  have ofExpression (document : Json) (value : Expression)
      (decoded : (Expression.decoder : Buffered Expression) document = .ok value) :
      0 < document.nesting := by
    cases document with
    | array _ | object _ => exact Nat.succ_pos _
    | _ => cases decoded
  have ofList {α : Type} {item : Buffered α} (document : Json) (values : List α)
      (decoded : (Medium.list item : Buffered (List α)) document = .ok values) :
      0 < document.nesting := (Buffered.list_eq_ok decoded).1
  rcases Buffered.node_eq_ok decoded with ⟨variant, isVariant, rest, isRest, isBody⟩
  refine Nat.le_trans ?_ isRest.nesting
  simp only [variants, List.mem_cons, List.not_mem_nil, or_false] at isVariant
  rcases isVariant with rfl | rfl | rfl | rfl | rfl | rfl | rfl
  · exact Buffered.record_nests (.here "condition" ofExpression) isBody
  · exact Buffered.record_nests (.later (.here "iterable" ofExpression)) isBody
  · exact Buffered.record_nests (.here "message" ofExpression) isBody
  · exact Buffered.record_nests (.here "message" ofExpression) isBody
  · exact Buffered.record_nests (.here "target" ofExpression) isBody
  · exact Buffered.record_nests (.later (.here "value" ofExpression)) isBody
  · exact Buffered.record_nests (.later (.here "arguments" ofList)) isBody

/-- As the documents of statements nest, there is room for locations. -/
theorem keepsUnder_step (keeps : KeepsUnder Above 0 inner toJson) :
    KeepsUnder Above 0 (Medium.node description (variants inner)) toJson := by
  have ofDeep : KeepsUnder Above 2 (Medium.node description (variants inner)) toJson := by
    apply Statement.format_step (keepsUnder_closed guards_above) (Expression.keepsUnder Above)
    · exact Nat.le_refl 1
    · exact fun smaller _ document levels value _ => keeps document levels value (Nat.zero_le _)
  intro document levels value _ shallow decoded
  have nested := nesting_of_decoded decoded
  exact ofDeep document levels value (Nat.le_trans nested shallow) shallow decoded

theorem keepsUnder (size : Nat) : KeepsUnder Above size decoder toJson := by
  have ofWithin (height : Nat) : KeepsUnder Above 0 (ofJsonWithin height) toJson := by
    induction height with
    | zero =>
        intro document levels value _ _ decoded
        cases decoded
    | succ height fromBelow => exact keepsUnder_step fromBelow
  have ofInner : KeepsUnder Above 0 ofJson toJson := fun document =>
    ofWithin document.height document
  exact fun document levels value _ => keepsUnder_step ofInner document levels value (Nat.zero_le _)

end Statement

/-! ## Programs -/

namespace Program

open Json.Reading (IsKept Meets)

/-- Declarations are far from the deepest level, so there is room for their locations. -/
theorem declaration_keeps {variant : Variant Declaration} {document : Json} {levels : Nat}
    {declaration : Declaration} (isVariant : variant ∈ Declaration.variants) (deep : 6 ≤ levels)
    (shallow : document.nesting ≤ levels) (decoded : variant.body document = .ok declaration) :
    Fit levels declaration.toJson := by
  have described : Json.Describes (KeepsUnder Above 6) Declaration.variants Declaration.toJson :=
    Declaration.format (keepsUnder_closed guards_above) (Expression.keepsUnder Above)
      Statement.keepsUnder fun smaller near => by omega
  exact keepsUnder_body described isVariant document levels declaration deep shallow decoded

/-- Where a program is read, its declarations are kept at the level that they have in its
document. -/
theorem decoder_meets (text : List Char) :
    Meets (decoder : Json.Reading Program) Json.Reading.levelLimit text
      (fun program => Fit Json.Reading.levelLimit program.toJson) fun _ => True := by
  have faults : ∀ cause : Json.Cause, cause.category ≠ .data → True := fun _ _ => trivial
  have ofDeclaration : Meets (Declaration.decoder : Json.Reading Declaration) 125 text
      (fun declaration => Fit 125 declaration.toJson) fun _ => True := by
    apply Json.Reading.node_meets faults trivial trivial (fun _ _ _ _ => trivial)
      (fun _ _ => trivial)
    · intro variant isVariant rest declaration isKept decoded
      exact declaration_keeps isVariant (by decide) isKept.nesting decoded
    · exact fun _ _ _ _ _ _ => trivial
  have ofList : Meets (Json.Reading.list Declaration.decoder) 126 text
      (fun declarations => ∀ declaration ∈ declarations, Fit 125 declaration.toJson)
      fun _ => True := by
    apply Json.Reading.list_meets faults
    · rintro deeper ⟨⟩
      exact ofDeclaration
    · exact fun _ _ => trivial
  have ofProgram : Meets (decoder : Json.Reading Program) 127 text (fun program =>
      ∃ declarations : List Declaration,
        (∀ declaration ∈ declarations, Fit 125 declaration.toJson) ∧
        ⟨declarations⟩ = program) fun _ => True := by
    apply Json.Reading.record_meets faults trivial trivial trivial fun _ _ => trivial
    rintro deeper ⟨⟩
    exact ofList
  refine ofProgram.mono ?_
  rintro _ ⟨declarations, fit, rfl⟩
  have listFits : Fit 126 (.array (declarations.map Declaration.toJson)) :=
    Json.fit_array (List.forall_mem_map.mpr fit)
  exact Json.fit_node (Json.fit_object (List.forall_mem_singleton.mpr listFits))

/-- The program of a text is read back from the text that is written for it. -/
theorem reload_is_stable {program : Program} {text : String}
    (isRead : ofJsonText text = .ok program) :
    program.toJson.nesting ≤ Json.Reading.levelLimit ∧
      ((∀ value, .float value ∈ program.toJson.leaves → value.reread? = some value) →
        ofJsonText program.jsonText = .ok program) := by
  have isWhole : Json.Reading.wholeText decoder text = .ok program := by
    unfold ofJsonText Json.Reading.report at isRead
    cases outcome : Json.Reading.wholeText (decoder : Json.Reading Program) text with
    | error fault =>
        rw [outcome] at isRead
        cases isRead
    | ok other =>
        rw [outcome] at isRead
        cases isRead
        rfl
  have fit := Json.Reading.wholeText_meets (fun _ _ => trivial) (decoder_meets text.toList)
  rw [isWhole] at fit
  exact ⟨fit.nesting, fun same => (ofJsonText_jsonText_iff fit.wholes).mpr ⟨fit.nesting, same⟩⟩

/-- A program with arrays for objects, a number that is spelt in an unusual way and no location. -/
def spareText : String := "[[[\"rule_declaration\",\"r\",[\"literal\",20e-1],[]]]]"

/-- The program that the spare text describes. -/
def spare : Program := ⟨[.rule ⟨"r", some (.literal (.decimal .two)), [], .nowhere⟩]⟩

theorem spare_is_reloaded :
    ofJsonText spareText = .ok spare ∧ ofJsonText spare.jsonText = .ok spare := by
  have isRead : ofJsonText spareText = .ok spare := by decide +kernel
  refine ⟨isRead, (reload_is_stable isRead).2 ?_⟩
  intro value isLeaf
  have isTwo : value = .two := by
    simpa [spare, toJson, Declaration.toJson, Declaration.members, Location.member,
      Location.toJson, Expression.optionalToJson, Expression.toJson, Literal.toJson,
      Statement.allToJson_eq_map, Json.leavesOfMembers, Json.leavesOfAll, Json.leaves] using isLeaf
  rw [isTwo, Double.reread?_two]

end Program

end TwinSwarm
