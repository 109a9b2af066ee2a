import TwinSwarm.Proofs.Json.Rereading
import TwinSwarm.Proofs.Tree.Location

/-!
# Programs are read back from their documents

Reading the document of a program succeeds and gives the same program exactly if the
document does not nest too deeply and each of its doubles is read as itself.
-/

namespace TwinSwarm

open Json (Reading WholesFit)
open Json.Reading (Answers)

/-! ## Declarations -/

namespace Declaration

/-- What is read where a declaration has been written. -/
def reread? (levels : Nat) (declaration : Declaration) : Option Declaration := do
  let kind ← (Json.choose (Json.Variant.entries variants) declaration.typeName).toOption
  let read ← Json.rereadMembers? levels declaration.members
  (kind.body (.object read)).toOption

theorem members_plain (declaration : Declaration) :
    Json.tagKey ∉ declaration.members.map Entry.key := by
  cases declaration <;> simp [members, Json.tagKey, Location.member]

theorem decoder_answers {declaration : Declaration} {levels depth : Nat} {after : List Char}
    (fit : WholesFit declaration.toJson.leaves) :
    (decoder : Reading Declaration).Answers (levels + 1)
      (Json.textAt depth declaration.toJson after) after (declaration.reread? levels) := by
  rcases exists_variant fit with ⟨kind, chosen, _⟩
  rw [reread?, chosen]
  exact Json.Reading.node_answers "Declaration" chosen declaration.members_plain

/-- With other doubles, the kind of a declaration takes its members to a declaration. -/
theorem body_mapDoubles {declaration : Declaration} {kind : Json.Variant Declaration}
    (change : Double → Double) (fit : WholesFit declaration.toJson.leaves)
    (chosen : Json.choose (Json.Variant.entries variants) declaration.typeName = .ok kind) :
    ∃ other : Declaration, other.toJson = declaration.toJson.mapDoubles change ∧
      kind.body (.object (Json.mapDoublesOfMembers change declaration.members)) = .ok other := by
  rcases declaration.exists_toJson_eq_mapDoubles change with ⟨other, changed⟩
  have otherFit : WholesFit other.toJson.leaves := changed ▸ fit.mapDoubles change
  rcases exists_variant otherFit with ⟨otherKind, otherChosen, decoded⟩
  have named : Json.node other.typeName other.members = .node declaration.typeName
      (Json.mapDoublesOfMembers change declaration.members) := changed
  rcases Json.node_inj.mp named with ⟨sameKind, sameMembers⟩
  rw [sameKind, chosen] at otherChosen
  cases otherChosen
  rw [sameMembers] at decoded
  exact ⟨other, changed, decoded⟩

/-- A declaration is read back exactly if its document is not too deep for the levels and
each of its doubles is read as itself. -/
theorem reread?_eq_some_iff {declaration : Declaration} {levels : Nat}
    (fit : WholesFit declaration.toJson.leaves) :
    declaration.reread? levels = some declaration ↔
      Json.nestingOfMembers declaration.members ≤ levels ∧
        ∀ value, .float value ∈ declaration.toJson.leaves → value.reread? = some value := by
  rcases exists_variant fit with ⟨kind, chosen, decoded⟩
  have membersFit : WholesFit (Json.leavesOfMembers declaration.members) :=
    (Json.wholesFit_cons.mp fit).2
  have isOutcome : declaration.reread? levels =
      (Json.rereadMembers? levels declaration.members).bind fun read =>
        (kind.body (.object read)).toOption := by
    rw [reread?, chosen]
    rfl
  rw [isOutcome, Option.bind_eq_some_iff]
  have isLeaf_iff (value : Double) : .float value ∈ declaration.toJson.leaves ↔
      .float value ∈ Json.leavesOfMembers declaration.members := by
    simp [toJson]
  constructor
  · rintro ⟨read, isRead, isDeclaration⟩
    rcases (Json.rereadMembers?_eq_some_iff _ membersFit).mp isRead with ⟨shallow, returns, rfl⟩
    -- What is read is the document with each double read once more, and that document is one of a
    -- declaration as well.
    rcases body_mapDoubles Double.reread fit chosen with ⟨other, changed, otherDecoded⟩
    rw [otherDecoded] at isDeclaration
    cases isDeclaration
    refine ⟨shallow, ?_⟩
    intro value isLeaf
    rw [Double.reread?_eq_some_self_iff]
    exact ⟨returns value ((isLeaf_iff value).mp isLeaf),
      (Json.mapDoubles_eq_self_iff _).mp changed.symm value isLeaf⟩
  · rintro ⟨shallow, same⟩
    have same (value : Double) (isLeaf : .float value ∈ Json.leavesOfMembers declaration.members) :=
      value.reread?_eq_some_self_iff.mp (same value ((isLeaf_iff value).mpr isLeaf))
    refine ⟨declaration.members, ?_, ?_⟩
    · rw [Json.rereadMembers?_eq_some_iff _ membersFit, Json.mapDoublesOfMembers_eq_self_iff]
      exact ⟨shallow, fun value isLeaf => (same value isLeaf).1,
        fun value isLeaf => (same value isLeaf).2⟩
    · rw [decoded]
      rfl

end Declaration

/-! ## Programs -/

namespace Program

variable {program : Program} {levels : Nat} {after : List Char}

/-- The one field of a program. -/
def fields : Json.Fields Reading [List Declaration] :=
  .required "declarations" (Json.Medium.list Declaration.decoder) .nil

/-- The document of a program, under any name and with any documents of declarations. -/
def documentOf (typeName : String) (declared : List Json) : Json :=
  .node typeName [⟨"declarations", .array declared⟩]

theorem declarations_answers {depth : Nat} (fit : WholesFit program.toJson.leaves)
    (after : List Char) :
    (Json.Reading.list Declaration.decoder).Answers (levels + 2)
      (' ' :: Json.textAt depth (.array (program.declarations.map Declaration.toJson)) after) after
      (program.declarations.mapM (Declaration.reread? levels)) :=
  Json.Reading.list_answers_space fun _ isMember _ _ =>
    Declaration.decoder_answers (Json.wholesFit_of_item fit (List.mem_map_of_mem isMember)
      (.head _))

theorem fill_answers_kind (typeName : String) (after : List Char) :
    (Json.Reading.fill fields (none, ()) Json.tagKey).Answers levels
      (':' :: ' ' :: Json.stringText typeName after) after (some (none, ())) := by
  have passed : (Json.Reading.fill .nil () Json.tagKey).Answers levels
      (':' :: ' ' :: Json.stringText typeName after) after (some ()) := by
    apply Answers.of_taken Json.Reading.colon_answers
    apply Answers.of_taken (Json.Reading.skipped_answers_string typeName)
    exact Answers.of_pure () levels after
  show Answers (if Json.tagKey = "declarations" then _ else _) levels _ after _
  rw [if_neg (by decide)]
  exact Answers.of_map (fun slots => (none, slots)) passed

section Documents

variable {declared : List Json} {outcome : Option (List Declaration)}
variable (answers : (Json.Reading.list Declaration.decoder).Answers (levels + 2)
  (' ' :: Json.textAt 1 (.array declared) (Json.lineText 0 ['\x7d'])) (Json.lineText 0 ['\x7d'])
  outcome)

include answers

theorem fill_answers_declarations :
    (Json.Reading.fill fields (none, ()) "declarations").Answers (levels + 2)
      (':' :: ' ' :: Json.textAt 1 (.array declared) (Json.lineText 0 ['\x7d']))
      (Json.lineText 0 ['\x7d']) (outcome.map fun declarations => (some declarations, ())) := by
  show Answers (if "declarations" = "declarations" then _ else _) (levels + 2) _ _ _
  rw [if_pos rfl]
  apply Answers.of_taken Json.Reading.colon_answers
  exact Answers.of_map (fun declarations => (some declarations, ())) answers

theorem foldMembers_answers (typeName : String) :
    (Json.Reading.foldMembers .keep (Json.Reading.fill fields) true (none, ())).Answers (levels + 2)
      (Json.textAt 0 (documentOf typeName declared) []).tail ['\x7d']
      (outcome.map fun declarations => (some declarations, ())) := by
  have listTaken : (Json.Reading.foldMembers .keep (Json.Reading.fill fields) false
      (none, ())).Answers (levels + 2)
        (Json.membersText 1 [⟨"declarations", .array declared⟩] (Json.lineText 0 ['\x7d'])) ['\x7d']
        ((outcome.map fun declarations => (some declarations, ())).bind some) := by
    apply Json.Reading.foldMembers_answers_step
      (Json.Reading.nextKey_answers_comma .keep "declarations") (fill_answers_declarations answers)
    · exact Nat.lt_succ_of_lt (Json.length_lt_member 1 "declarations" (.array declared) _)
    · intro slots _
      exact Json.Reading.foldMembers_answers_end (Json.dropWhile_lineText rfl)
  rw [Option.bind_fun_some] at listTaken
  change Answers _ _ (Json.lineText 1 (Json.keyText Json.tagKey _)) _
    ((some ((none, ()) : Json.Slots [List Declaration])).bind fun _ =>
      outcome.map fun declarations => (some declarations, ()))
  apply Json.Reading.foldMembers_answers_step (Json.Reading.nextKey_answers_first .keep Json.tagKey)
    (fill_answers_kind typeName _)
  · exact Json.length_lt_member 1 Json.tagKey (.string typeName) _
  · intro slots isNext
    cases isNext
    exact listTaken

/-- Whatever a program is called, it is decoded to the declarations that are read. -/
theorem decoder_answers_documentOf (typeName : String) :
    (decoder : Reading Program).Answers (levels + 3)
      (Json.textAt 0 (documentOf typeName declared) []) [] (outcome.map Program.mk) := by
  have inside : (Json.Reading.recordMembers fields).Answers (levels + 2)
      (Json.textAt 0 (documentOf typeName declared) []).tail ['\x7d']
      (outcome.bind fun declarations => some (declarations, ())) := by
    apply Answers.of_mapped (foldMembers_answers answers typeName)
    intro declarations
    exact Answers.of_settledLater (.ok (declarations, ())) (levels + 2) ['\x7d']
  have taken : (decoder : Reading Program).Answers (levels + 3)
      (Json.textAt 0 (documentOf typeName declared) []) [] _ :=
    Json.Reading.record_answers "struct Program" inside
  rw [Option.map_bind] at taken
  rw [Option.map_eq_bind]
  exact taken

end Documents

/-- The document of a program is decoded to what is read where its declarations have been
written. -/
theorem decoder_answers (fit : WholesFit program.toJson.leaves) :
    (decoder : Reading Program).Answers (levels + 3) (Json.textAt 0 program.toJson []) []
      ((program.declarations.mapM (Declaration.reread? levels)).map Program.mk) :=
  decoder_answers_documentOf (declarations_answers fit _) "program"

/-- Reading a list gives the list itself exactly if reading each of its items gives the item. -/
theorem mapM_eq_some_self_iff {α : Type} {read : α → Option α} {values : List α} :
    values.mapM read = some values ↔ ∀ value ∈ values, read value = some value := by
  induction values with
  | nil => simp
  | cons first rest fromRest =>
      simp only [List.mapM_cons, Option.bind_eq_bind, Option.bind_eq_some_iff,
        List.forall_mem_cons, ← fromRest]
      constructor
      · rintro ⟨_, isFirst, _, isRest, same⟩
        cases same
        exact ⟨isFirst, isRest⟩
      · rintro ⟨isFirst, isRest⟩
        exact ⟨first, isFirst, rest, isRest, rfl⟩

/-- A program nests three levels more than the parts of its declarations. -/
theorem nesting_le_iff : program.toJson.nesting ≤ levels + 3 ↔
    ∀ declaration ∈ program.declarations,
      Json.nestingOfMembers declaration.members ≤ levels := by
  simp [toJson, Json.node, Json.nesting, Json.nestingOfMembers, Json.nestingOfAll_le_iff,
    Declaration.toJson]

theorem isLeaf_iff (value : Double) : .float value ∈ program.toJson.leaves ↔
    ∃ declaration ∈ program.declarations, .float value ∈ declaration.toJson.leaves := by
  simp [toJson, Json.leavesOfMembers, Json.leaves, Json.mem_leavesOfAll_iff]

/-- A program is read back from its document exactly if the document does not nest deeper than
any document may and each of its doubles is read as itself. -/
theorem ofJsonText_jsonText_iff (fit : WholesFit program.toJson.leaves) :
    ofJsonText program.jsonText = .ok program ↔
      program.toJson.nesting ≤ Json.Reading.levelLimit ∧
        ∀ value, .float value ∈ program.toJson.leaves → value.reread? = some value := by
  -- The braces of the program and of its declarations, and the brackets around these, take three of
  -- the levels.
  have outcome : (ofJsonText program.jsonText).toOption =
      (program.declarations.mapM (Declaration.reread? 124)).map Program.mk := by
    rw [ofJsonText, Json.Reading.toOption_report]
    exact Json.Reading.toOption_wholeText (decoder_answers fit)
  have isOk : ofJsonText program.jsonText = .ok program ↔
      (ofJsonText program.jsonText).toOption = some program := by
    cases ofJsonText program.jsonText <;> simp [Except.toOption]
  have declarationFits (declaration : Declaration) (isMember : declaration ∈ program.declarations) :
      WholesFit declaration.toJson.leaves :=
    Json.wholesFit_of_item fit (List.mem_map_of_mem isMember) (.head _)
  have isMapped : (program.declarations.mapM (Declaration.reread? 124)).map Program.mk =
      some program ↔
        program.declarations.mapM (Declaration.reread? 124) = some program.declarations := by
    cases program
    simp
  have isShallow : program.toJson.nesting ≤ Json.Reading.levelLimit ↔
      ∀ declaration ∈ program.declarations, Json.nestingOfMembers declaration.members ≤ 124 :=
    nesting_le_iff
  rw [isOk, outcome, isMapped, mapM_eq_some_self_iff, isShallow]
  constructor
  · intro same
    have parts (declaration : Declaration) (isMember : declaration ∈ program.declarations) :=
      (Declaration.reread?_eq_some_iff (declarationFits declaration isMember)).mp
        (same declaration isMember)
    constructor
    · intro declaration isMember
      exact (parts declaration isMember).1
    · intro value isLeaf
      rcases (isLeaf_iff value).mp isLeaf with ⟨declaration, isMember, isLeaf⟩
      exact (parts declaration isMember).2 value isLeaf
  · rintro ⟨shallow, same⟩
    intro declaration isMember
    rw [Declaration.reread?_eq_some_iff (declarationFits declaration isMember)]
    constructor
    · exact shallow declaration isMember
    · intro value isLeaf
      exact same value ((isLeaf_iff value).mpr ⟨declaration, isMember, isLeaf⟩)

/-- A program is read back from its document, and the document is validated like the program,
if the document does not nest deeper than any document may, the locations fit 64 bits and
each double is read as itself. -/
theorem ofJsonText_jsonText (shallow : program.toJson.nesting ≤ Json.Reading.levelLimit)
    (locationsFit : ∀ location ∈ program.locations, location.Fits)
    (sameDoubles : ∀ value, .float value ∈ program.toJson.leaves → value.reread? = some value) :
    ofJsonText program.jsonText = .ok program ∧
      validateJsonText program.jsonText = program.validate := by
  have isRead : ofJsonText program.jsonText = .ok program :=
    (ofJsonText_jsonText_iff (wholesFit locationsFit)).mpr ⟨shallow, sameDoubles⟩
  constructor
  · exact isRead
  · rw [validateJsonText, isRead]

end Program

/-- The double two.  Its text has a point, which tells it from the integer. -/
def Double.two : Double := ⟨false, Double.leadingBit, 1023, by decide⟩

theorem Double.reread?_two : Double.two.reread? = some Double.two := by
  have isNearest : nearest? two.negative (2 ^ 1) 1 = some two :=
    nearest?_pow (show two.significand = 2 ^ 52 from rfl) (by decide)
  have oneDigit : digitCount 2 = 1 := by decide
  have isDecimal : ofDecimal? two.negative 2 (-(0 : Nat)) = some two := by
    simpa [ofDecimal?, oneDigit, exponentMargin] using isNearest
  exact reread?_eq_self rfl (decide_eq_true isDecimal) (Nat.zero_le _) (by decide)

/-- A rule with the double two and the integer two. -/
def Program.pairOfNumbers : Program :=
  ⟨[.rule ⟨"Größe", some (.binary .greater (.reference "x") (.literal (.decimal .two))),
    [.assignment "y" (.literal (.integer 2)) ⟨2, 5⟩], ⟨1, 1⟩⟩]⟩

theorem Program.pairOfNumbers_is_read_back :
    ofJsonText pairOfNumbers.jsonText = .ok pairOfNumbers ∧
      validateJsonText pairOfNumbers.jsonText = pairOfNumbers.validate := by
  apply ofJsonText_jsonText
  · decide
  · intro location isLocation
    have isEither : location = ⟨1, 1⟩ ∨ location = ⟨2, 5⟩ := by
      simpa [pairOfNumbers, locations, Declaration.locations, Statement.locationsOfAll,
        Statement.locations] using isLocation
    rcases isEither with rfl | rfl
    · decide
    · decide
  · intro value isLeaf
    have isTwo : value = .two := by
      simpa [pairOfNumbers, toJson, Declaration.toJson, Declaration.members, Location.member,
        Location.toJson, Expression.optionalToJson, Expression.toJson, BinaryOperator.toJson,
        Literal.toJson, Statement.toJson, Json.leavesOfMembers, Json.leavesOfAll,
        Json.leaves] using isLeaf
    rw [isTwo, Double.reread?_two]

end TwinSwarm
