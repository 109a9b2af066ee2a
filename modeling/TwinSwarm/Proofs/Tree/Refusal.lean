import TwinSwarm.Proofs.Json.Blame
import TwinSwarm.Proofs.Tree.Format

/-!
# Why texts describe no program

A text that describes no program gives one diagnostic with the place of the fault.  It blames the
kind of a node exactly if its message says that a variant is unknown: if a node names an unknown
kind, but also if an operator is unknown, or if something else is wanted in place of a string that
happens to hold these words.
-/

namespace TwinSwarm

open Json (Buffered Cause Fields Kinds Medium Quiet Values Variant Written parts)

/-- The names by which operators are told apart. -/
def operatorNames : List (List String) :=
  [BinaryOperator.all.map BinaryOperator.symbol, UnaryOperator.all.map UnaryOperator.symbol]

namespace Json

/-! ## What causes say of strings -/

/-- What is the cause if the strings of the document satisfy a condition: one that does not say
that a variant is unknown, a string where something else is wanted, or an unknown name. -/
inductive Cause.About (source : String → Prop) : Cause → Prop where
  | quiet {cause : Cause} : Quiet cause.message.toList → About source cause
  | string {text wanted : String} : source text → Quiet wanted.toList →
      About source (.wrongType (.string text) wanted)
  | name {name : String} {known : List String} : source name → name ∉ known →
      known ∈ nodeKinds ++ operatorNames → About source (.unknownVariant name known)

namespace Cause.About

variable {source others : String → Prop} {cause : Cause} {document part : Json} {wanted : String}

theorem mono (about : About source cause) (weaker : ∀ text, source text → others text) :
    About others cause := by
  cases about with
  | quiet isQuiet => exact .quiet isQuiet
  | string isSource isQuiet => exact .string (weaker _ isSource) isQuiet
  | name isSource unknown isKnown => exact .name (weaker _ isSource) unknown isKnown

/-- A cause that is about a part is about the whole. -/
theorem of_part (isPart : part ∈ document.parts) (about : About (· ∈ part.strings) cause) :
    About (· ∈ document.strings) cause :=
  about.mono fun _ isString => strings_subset_of_part isPart isString

theorem wrongType (ofString : ∀ text ∈ document.strings, source text)
    (isQuiet : Quiet wanted.toList) : About source (.wrongType document.found wanted) := by
  cases document with
  | string text => exact .string (ofString text (List.mem_singleton.mpr rfl)) isQuiet
  | null | boolean _ | integer _ | float _ | array _ | object _ =>
      exact .quiet (Cause.quiet_wrongType (fun _ => Found.noConfusion) isQuiet)

end Cause.About

/-- A record is refused for the sake of a part or in a way that depends on its format alone. -/
theorem Fields.fails_cons {α : Type} {types : List Type} {field : Field Buffered α}
    {rest : Fields Buffered types} {among : List Json} {cause : Cause}
    (fails : Fields.Fails among (.cons field rest) cause) :
    (∃ part ∈ among, field.decoder part = .error cause) ∨ cause = .missingField field.name ∨
      cause = .duplicateField field.name ∨ rest.Fails among cause := by
  cases fails with
  | part isPart refused => exact .inl ⟨_, isPart, refused⟩
  | missing => exact .inr (.inl rfl)
  | repeated => exact .inr (.inr (.inl rfl))
  | later others => exact .inr (.inr (.inr others))

end Json

open Json (strings)

/-! ## Decoders of values -/

/-- The cause for which a document of limited height is refused is about the strings of the
document. -/
def Refuses (size : Nat) {α : Type} (decoder : Buffered α) (_ : α → Json) : Prop :=
  ∀ document cause, document.height ≤ size → decoder document = .error cause →
    cause.About (· ∈ document.strings)

section Refuses

variable {size : Nat} {α : Type} {decoder : Buffered α} {encode : α → Json}

theorem Json.Written.about {types : List Type} {fields : Fields Buffered types}
    {write : Values types → List (Entry Json)} {document : Json} {cause : Cause} {room : Prop}
    (written : Written room (Refuses size) fields write) (fails : fields.Fails document.parts cause)
    (low : document.height ≤ size + 1) (named : ∀ name ∈ fields.names, Quiet name.toList) :
    cause.About (· ∈ document.strings) := by
  have ofField {β : Type} {types : List Type} {field : Json.Field Buffered β}
      {rest : Fields Buffered types} (ofPart : ∀ part ∈ document.parts,
        field.decoder part = .error cause → cause.About (· ∈ part.strings))
      (ofRest : rest.Fails document.parts cause → cause.About (· ∈ document.strings))
      (isQuiet : Quiet field.name.toList) (fails : Fields.Fails document.parts (.cons field rest)
        cause) : cause.About (· ∈ document.strings) := by
    rcases Fields.fails_cons fails with ⟨part, isPart, refused⟩ | rfl | rfl | others
    · exact .of_part isPart (ofPart part isPart refused)
    · exact .quiet (Cause.quiet_missingField isQuiet)
    · exact .quiet (Cause.quiet_duplicateField isQuiet)
    · exact ofRest others
  have lower (part : Json) (isPart : part ∈ document.parts) : part.height ≤ size :=
    Nat.le_of_lt_succ (Nat.lt_of_lt_of_le (Json.height_lt_of_part isPart) low)
  induction written with
  | nil => cases fails
  | lasting name _ ofPart _ fromRest =>
      rcases List.forall_mem_cons.mp named with ⟨isQuiet, named⟩
      exact ofField (fun part isPart => ofPart part cause (lower part isPart))
        (fun others => fromRest others named) isQuiet fails
  | nullable name _ ofPart _ _ fromRest =>
      rcases List.forall_mem_cons.mp named with ⟨isQuiet, named⟩
      exact ofField (fun part isPart refused => ofPart part cause (lower part isPart)
        (Buffered.optional_eq_error refused)) (fun others => fromRest others named) isQuiet fails
  | emptied name _ _ _ ofPart _ fromRest =>
      rcases List.forall_mem_cons.mp named with ⟨isQuiet, named⟩
      exact ofField (fun part isPart => ofPart part cause (lower part isPart))
        (fun others => fromRest others named) isQuiet fails
  | located _ ofPart =>
      rcases List.forall_mem_cons.mp named with ⟨isQuiet, named⟩
      exact ofField (fun part isPart => ofPart part cause (lower part isPart))
        (fun others => by cases others) isQuiet fails

theorem Json.map_eq_error {α β : Type} {outcome : Except Cause α} {make : α → β} {cause : Cause}
    (isError : outcome.map make = .error cause) : outcome = .error cause := by
  cases outcome with
  | error other =>
      cases isError
      rfl
  | ok value => cases isError

theorem unit_eq_error {value : Json} {cause : Cause}
    (refused : Buffered.unit value = .error cause) :
    cause = .wrongType value.found "unit" := by
  unfold Buffered.unit at refused
  split at refused
  · cases refused
  · cases refused
  · cases refused
    rfl

theorem refuses_choice {entries : List (Entry α)}
    (isKnown : entries.map Entry.key ∈ nodeKinds ++ operatorNames) :
    Refuses size (Medium.choice entries) encode := by
  have ofName {source : String → Prop} {name : String} {cause : Cause} (isSource : source name)
      (refused : Json.choose entries name = .error cause) : cause.About source := by
    rcases Buffered.choose_eq_error refused with ⟨rfl, unknown⟩
    exact .name isSource unknown isKnown
  have noString : ∀ text, Json.Found.object ≠ .string text := fun _ => Json.Found.noConfusion
  intro document cause low refused
  cases document with
  | string name => exact ofName (List.mem_singleton.mpr rfl) refused
  | object members =>
      rcases members with _ | ⟨⟨key, value⟩, _ | ⟨second, members⟩⟩
      · cases refused
        exact .quiet (Cause.quiet_wrongValue noString (by decide))
      · simp only [Medium.choice, Buffered.choice] at refused
        cases chosen : Json.choose entries key with
        | error cause =>
            rw [chosen] at refused
            cases refused
            exact ofName List.mem_cons_self chosen
        | ok result =>
            rw [chosen] at refused
            rw [unit_eq_error (Json.map_eq_error refused)]
            refine .wrongType ?_ (by decide)
            intro text isString
            exact Json.mem_stringsOfMembers.mpr ⟨⟨key, value⟩, List.mem_cons_self, .inr isString⟩
      · cases refused
        exact .quiet (Cause.quiet_wrongValue noString (by decide))
  | null | boolean _ | integer _ | float _ | array _ =>
      cases refused
      exact .wrongType (fun _ isString => isString) (by decide)

theorem Json.Buffered.TagFails.about {known : List String} {part : Json} {cause : Cause}
    (fails : TagFails known part cause) (isKnown : known ∈ nodeKinds) :
    cause.About (· ∈ part.strings) := by
  cases fails with
  | name unknown =>
      exact .name (List.mem_singleton.mpr rfl) unknown (List.mem_append_left operatorNames isKnown)
  | form => exact .wrongType (fun _ isString => isString) (by decide)
  | index index count =>
      refine .quiet (Cause.quiet_wrongValue (fun _ => Json.Found.noConfusion) ?_)
      rw [String.toList_append]
      exact (Quiet.toString_nat count).behind (by decide)

theorem quiet_nodeWanted {description : String} (isQuiet : Quiet description.toList) :
    Quiet (Json.nodeWanted description).toList := by
  show Quiet ("internally tagged enum " ++ description).toList
  rw [String.toList_append]
  exact Quiet.behind (by decide) isQuiet

/-- What is left of a node is refused for a cause that is about its strings. -/
theorem refuses_body {variants : List (Variant α)} {variant : Variant α}
    (describes : Json.Describes (Refuses size) variants encode) (isVariant : variant ∈ variants) :
    Refuses size variant.body encode := by
  intro rest cause low refused
  rcases describes with ⟨made, kinds, _⟩
  rcases kinds.of_mem isVariant with ⟨β, bare, write, make, isKind⟩
  rw [isKind.body] at refused
  exact isKind.format rest cause low (Json.map_eq_error refused)

/-- The relation is closed under the ways in which formats are put together. -/
theorem refuses_closed : Closed (fun _ => True) Refuses where
  string _ := by
    intro document cause _ refused
    cases document <;> cases refused <;> exact .wrongType (fun _ isString => isString) (by decide)
  word _ := by
    intro document cause _ refused
    cases document with
    | integer value =>
        simp only [Medium.word, Medium.scalar] at refused
        split at refused
        · cases refused
        · cases refused
          exact .quiet (Cause.quiet_wrongValue (fun _ => Json.Found.noConfusion) (by decide))
    | _ =>
        cases refused
        exact .wrongType (fun _ isString => isString) (by decide)
  natural _ := by
    intro document cause _ refused
    cases document with
    | integer value =>
        simp only [Medium.natural, Medium.scalar] at refused
        split at refused
        · cases refused
        · cases refused
          exact .quiet (Cause.quiet_wrongValue (fun _ => Json.Found.noConfusion) (by decide))
    | _ =>
        cases refused
        exact .wrongType (fun _ isString => isString) (by decide)
  literal _ := by
    intro document cause _ refused
    have isUnsuited : cause = .noLiteral := by
      cases document with
      | integer value =>
          simp only [Literal.decoder, Medium.whole, Literal.ofJson] at refused
          split at refused
          · cases refused
          · split at refused
            · cases refused
            · cases refused
              rfl
      | array _ | object _ =>
          cases refused
          rfl
      | _ => cases refused
    rw [isUnsuited]
    exact .quiet Cause.quiet_noLiteral
  binaryOperator _ := refuses_choice (by decide)
  unaryOperator _ := refuses_choice (by decide)
  list {size α decoder encode} refuses := by
    intro document cause low refused
    rcases Buffered.list_eq_error refused with ⟨part, isPart, isRefused⟩ | rfl
    · have lower := Json.height_lt_of_part isPart
      exact .of_part isPart (refuses part cause (by omega) isRefused)
    · exact .wrongType (fun _ isString => isString) (by decide)
  record {size α types fields write build encode} description header names written named fit _ _
      _ := by
    intro document cause low refused
    have isQuiet : Quiet description.toList := fit.2 description List.mem_cons_self
    cases Buffered.record_eq_error refused with
    | field fails =>
        apply written.about fails
        · omega
        · rw [named]
          exact fun name isName => fit.2 name (List.mem_cons_of_mem description isName)
    | short length =>
        exact .quiet (Cause.quiet_wrongLength length (Json.quiet_elementsWanted isQuiet _))
    | long length =>
        refine .quiet (Cause.quiet_wrongLength length ?_)
        rw [String.toList_append]
        exact (Json.quiet_elementCount _).before (by decide)
    | form => exact .wrongType (fun _ isString => isString) isQuiet
  node {size α variants encode} description describes isKnown isQuiet := by
    intro document cause low refused
    cases Buffered.node_eq_error refused with
    | tag isPart fails => exact .of_part isPart (fails.about isKnown)
    | missing => exact .quiet (Cause.quiet_missingField (by decide))
    | repeated => exact .quiet (Cause.quiet_duplicateField (by decide))
    | body isVariant isRest isRefused =>
        have about := refuses_body describes isVariant _ cause
          (Nat.le_trans isRest.height low) isRefused
        exact about.mono fun _ isString => isRest.strings isString
    | form =>
        exact .wrongType (fun _ isString => isString) (quiet_nodeWanted isQuiet)

theorem refuses_bounded : Bounded Refuses where
  zero _ _ := by
    intro document cause low
    have positive := document.height_pos
    omega
  smaller isSmaller refuses document cause low :=
    refuses document cause (Nat.le_trans low isSmaller)
  ofHeight refuses _ document cause _ := refuses document.height document cause (Nat.le_refl _)

end Refuses

/-! ## Decoders of texts -/

namespace Program

open Json.Reading (AllSpelt IsKept Meets Spelt)

/-- What is left of a declaration is refused for a cause that is about its strings. -/
theorem declaration_refuses {variant : Variant Declaration}
    (isVariant : variant ∈ Declaration.variants)
    (size : Nat) : Refuses size variant.body Declaration.toJson :=
  refuses_body (Declaration.format refuses_closed (Expression.format refuses_closed refuses_bounded)
    (Statement.format refuses_closed refuses_bounded fun _ => trivial) fun _ _ => trivial) isVariant

/-- The cause for which a program is refused is about strings in the text. -/
theorem decoder_about (text : List Char) :
    Meets (decoder : Json.Reading Program) Json.Reading.levelLimit text (fun _ => True)
      (Cause.About (Spelt text)) := by
  have faults (cause : Cause) (notData : cause.category ≠ .data) : cause.About (Spelt text) :=
    .quiet (Cause.quiet_of_category notData)
  have ofTag (document : Json) (cause : Cause) (spelt : AllSpelt text document)
      (fails : Buffered.TagFails (Declaration.variants.map Variant.tag) document cause) :
      cause.About (Spelt text) := (fails.about Declaration.tags_mem).mono spelt
  have ofDeclaration (levels : Nat) : Meets (Declaration.decoder : Json.Reading Declaration) levels
      text (fun _ => True) (Cause.About (Spelt text)) := by
    apply Json.Reading.node_meets faults
    · exact .quiet (Cause.quiet_missingField (by decide))
    · exact .quiet (Cause.quiet_duplicateField (by decide))
    · exact ofTag
    · exact fun document spelt => .wrongType spelt (quiet_nodeWanted (by decide))
    · exact fun _ _ _ _ _ _ => trivial
    · intro variant isVariant rest cause isKept refused
      exact (declaration_refuses isVariant rest.height rest cause (Nat.le_refl _) refused).mono
        isKept.strings
  have ofList (levels : Nat) : Meets (Json.Reading.list Declaration.decoder) levels text
      (fun values => ∀ value ∈ values, True) (Cause.About (Spelt text)) := by
    apply Json.Reading.list_meets faults
    · exact fun deeper _ => ofDeclaration deeper
    · exact fun document spelt => .wrongType spelt (by decide)
  have isQuiet : Quiet "struct Program".toList := by decide
  have ofProgram : Meets (decoder : Json.Reading Program) Json.Reading.levelLimit text
      (fun program => ∃ declarations : List Declaration, (∀ value ∈ declarations, True) ∧
        ⟨declarations⟩ = program) (Cause.About (Spelt text)) := by
    apply Json.Reading.record_meets faults
    · exact .quiet (Cause.quiet_missingField (by decide))
    · exact .quiet (Cause.quiet_duplicateField (by decide))
    · exact .quiet (Cause.quiet_wrongLength 0 (Json.quiet_elementsWanted isQuiet 1))
    · exact fun document spelt => .wrongType spelt isQuiet
    · exact fun deeper _ => ofList deeper
  exact ofProgram.mono fun _ _ => trivial

end Program

/-! ## Diagnostics -/

/-- The cause says that a variant is unknown: a node names a kind, or an operator is one, that is
not among the known ones, or a string with these words stands where something else is wanted. -/
inductive Json.Cause.Blames (source : String → Prop) : Cause → Prop where
  | kind {name : String} {known : List String} : source name → name ∉ known → known ∈ nodeKinds →
      Blames source (.unknownVariant name known)
  | operator {name : String} {known : List String} : source name → name ∉ known →
      known ∈ operatorNames → Blames source (.unknownVariant name known)
  | words {text wanted : String} : source text →
      Program.holds Program.unknownKindWords.toList text.toList = true →
        Blames source (.wrongType (.string text) wanted)

namespace Program

open Json.Reading (Spelt)

theorem holds_of_blames {source : String → Prop} {cause : Cause} (blames : cause.Blames source) :
    holds unknownKindWords.toList cause.message.toList = true := by
  have ofName (name : String) (known : List String) :
      holds unknownKindWords.toList (Cause.unknownVariant name known).message.toList = true := by
    show holds unknownKindWords.toList
      ("unknown variant `" ++ name ++ "`, " ++ Json.alternatives known).toList = true
    have isStart : "unknown variant `".toList = unknownKindWords.toList ++ [' ', '`'] := by
      decide
    simp only [String.toList_append, isStart, List.append_assoc]
    exact holds_iff.mpr (List.prefix_append _ _).isInfix
  cases blames with
  | kind _ _ _ | operator _ _ _ => exact ofName _ _
  | @words text wanted _ inText =>
      show holds unknownKindWords.toList
        ("invalid type: " ++ ("string " ++ Text.quoted text) ++ ", expected " ++ wanted).toList =
          true
      simp only [String.toList_append, ← List.append_assoc]
      rw [List.append_assoc _ _ wanted.toList, holds_around_quoted, inText]
      simp

theorem toList_display (fault : Json.Fault) (text : List Char) :
    (fault.report text).display.toList =
      fault.cause.message.toList ++ (fault.report text).placeText.toList := by
  rw [Json.Report.display_eq, String.toList_append]
  rfl

theorem holds_display_of_blames {source : String → Prop} {fault : Json.Fault} (text : List Char)
    (blames : fault.cause.Blames source) :
    holds unknownKindWords.toList (fault.report text).display.toList = true := by
  rw [toList_display, holds_iff]
  exact (holds_iff.mp (holds_of_blames blames)).trans (List.prefix_append _ _).isInfix

/-- A cause about strings of a text says the words exactly if it blames the kind of a node. -/
theorem holds_display_iff {source : String → Prop} {fault : Json.Fault} (text : List Char)
    (about : fault.cause.About source) :
    holds unknownKindWords.toList (fault.report text).display.toList = true ↔
      fault.cause.Blames source := by
  refine ⟨?_, holds_display_of_blames text⟩
  intro inDisplay
  rw [toList_display] at inDisplay
  rcases fault with ⟨cause, offset⟩
  cases about with
  | quiet isQuiet =>
      have silent := Json.Report.quiet_placeText (Json.Fault.report ⟨cause, offset⟩ text) _ isQuiet
      exact absurd inDisplay (Bool.eq_false_iff.mp silent.holds_eq_false)
  | @string string wanted isSource isQuiet =>
      -- What is written around the string is quiet, so the words can only stand in the string.
      have isQuietBefore : Quiet ("invalid type: ".toList ++ "string ".toList) := by decide
      have isQuietAfter := Json.Report.quiet_placeText
        (Json.Fault.report ⟨.wrongType (.string string) wanted, offset⟩ text) _
          (Quiet.behind (by decide : Quiet.Separates ", expected ".toList) isQuiet)
      have isWhole : (Cause.wrongType (.string string) wanted).message.toList =
          "invalid type: ".toList ++ "string ".toList ++ (Text.quoted string).toList ++
            (", expected ".toList ++ wanted.toList) := by
        show ("invalid type: " ++ ("string " ++ Text.quoted string) ++ ", expected " ++
          wanted).toList = _
        simp only [String.toList_append, List.append_assoc]
      rw [isWhole, List.append_assoc, holds_around_quoted, isQuietBefore.holds_eq_false,
        isQuietAfter.holds_eq_false, Bool.false_or, Bool.or_false] at inDisplay
      exact .words isSource inDisplay
  | name isSource unknown isKnown =>
      rcases List.mem_append.mp isKnown with isKind | isOperator
      · exact .kind isSource unknown isKind
      · exact .operator isSource unknown isOperator

theorem validateJsonText_of_refused {text : String} {fault : Json.Fault}
    (isRefused : Json.Reading.wholeText (decoder : Json.Reading Program) text = .error fault) :
    ofJsonText text = .error (fault.report text.toList) ∧
      validateJsonText text = [unreadable (fault.report text.toList)] := by
  have isReport : ofJsonText text = .error (fault.report text.toList) := by
    rw [ofJsonText, Json.Reading.report, isRefused]
  exact ⟨isReport, by rw [validateJsonText, isReport]⟩

/-- A text that describes no program gives one diagnostic with the place of the fault, which blames
the kind of a node exactly if the cause does. -/
theorem refusal_is_reported {text : String} {report : Json.Report}
    (isRefused : ofJsonText text = .error report) :
    ∃ fault : Json.Fault, Json.Reading.wholeText decoder text = .error fault ∧
      report = fault.report text.toList ∧
      (validateJsonText text =
        [⟨.semantic, "Unknown node type: " ++ report.display, report.place, ""⟩] ↔
          fault.cause.Blames (Spelt text.toList)) ∧
      (validateJsonText text =
        [⟨.semantic, "Invalid program: " ++ report.display, report.place, ""⟩] ↔
          ¬fault.cause.Blames (Spelt text.toList)) := by
  unfold ofJsonText Json.Reading.report at isRefused
  cases outcome : Json.Reading.wholeText (decoder : Json.Reading Program) text with
  | ok program =>
      rw [outcome] at isRefused
      cases isRefused
  | error fault =>
      have about : fault.cause.About (Spelt text.toList) := by
        have met := Json.Reading.wholeText_meets
          (fun cause notData => .quiet (Cause.quiet_of_category notData))
          (decoder_about text.toList)
        rw [outcome] at met
        exact met
      rw [outcome] at isRefused
      cases isRefused
      refine ⟨fault, rfl, rfl, ?_⟩
      rw [← holds_display_iff text.toList about, (validateJsonText_of_refused outcome).2,
        unreadable]
      cases holds unknownKindWords.toList (fault.report text.toList).display.toList <;> simp

/-- A text with a string in place of a list.  No node of it names an unknown kind. -/
def stringForList : String := "\x7b\"declarations\":\"unknown variant\"\x7d"

theorem stringForList_is_blamed :
    ∃ fault : Json.Fault, Json.Reading.wholeText decoder stringForList = .error fault ∧
      fault.cause = .wrongType (.string "unknown variant") "a sequence" ∧
      fault.cause.Blames (Spelt stringForList.toList) := by
  have isRefused : ofJsonText stringForList = .error ⟨.data,
      "invalid type: string \"unknown variant\", expected a sequence", some ⟨1, 33⟩⟩ := by
    decide +kernel
  have isWhole : Json.Reading.wholeText decoder stringForList = (.error
      ⟨.wrongType (.string "unknown variant") "a sequence", some 33⟩ : Except _ Program) := by
    decide +kernel
  rcases refusal_is_reported isRefused with ⟨fault, isFault, _, blames_iff, _⟩
  have isCause : fault.cause = .wrongType (.string "unknown variant") "a sequence" := by
    rw [isWhole] at isFault
    cases isFault
    rfl
  exact ⟨fault, isFault, isCause, blames_iff.mp (by decide +kernel)⟩

end Program

end TwinSwarm
