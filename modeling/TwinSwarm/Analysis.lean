import TwinSwarm.Gap
import TwinSwarm.Lexeme
import TwinSwarm.Settings

/-!
# The analysis of a source text

A source text is cut into tokens, the tokens are read as a program, and the program is
searched for gaps.  Each stage needs the one before it to be without a fault: after
lexical faults nothing is read, and after faults of the grammar no gaps are searched.
The steps are recorded, so that a caller can follow what was done.
-/

namespace TwinSwarm

/-- A step of the analysis. -/
inductive Step where
  | readingFile (path : String)
  | fileUnreadable (path reason : String)
  | lexed (tokens diagnostics : Nat)
  | stoppedAfterLexing
  | resumed (resumption : Grammar.Resumption)
  | parsed (declarations diagnostics : Nat)
  | validated (declarations diagnostics : Nat)
  deriving Repr, DecidableEq, Inhabited

/-- How much attention a step deserves. -/
inductive Step.Level where
  | trace
  | debug
  | warning
  deriving Repr, DecidableEq, Inhabited

namespace Step

/-- The name under which a level is written. -/
def Level.name : Level → String
  | .trace => "trace"
  | .debug => "debug"
  | .warning => "warn"

/-- How much attention the step deserves. -/
def level : Step → Level
  | .resumed _ => .trace
  | .fileUnreadable .. => .warning
  | _ => .debug

/-- The step in words.  Going on at the end of the text is not worth a word. -/
def message? : Step → Option String
  | .readingFile path => some ("parsing " ++ path)
  | .fileUnreadable path reason => some ("failed to read " ++ path ++ ": " ++ reason)
  | .lexed tokens diagnostics =>
      some ("lexed " ++ toString tokens ++ " tokens, " ++ toString diagnostics ++
        " lexical errors")
  | .stoppedAfterLexing => some "skipping parse and validation after lexical errors"
  | .resumed .atEnd => none
  | .resumed (.afterSemicolon line) => some ("resynchronised after ';' at " ++ toString line)
  | .resumed (.atKeyword word line) =>
      some ("resynchronised at '" ++ word ++ "' on line " ++ toString line)
  | .parsed declarations diagnostics =>
      some ("parsed " ++ toString declarations ++ " declarations, " ++ toString diagnostics ++
        " syntax errors")
  | .validated declarations diagnostics =>
      some ("validated " ++ toString declarations ++ " declarations, " ++
        toString diagnostics ++ " semantic errors")

end Step

/-- The result of an analysis. -/
structure Analysis where
  program : Program
  diagnostics : List Diagnostic
  steps : List Step
  deriving Repr, DecidableEq, Inhabited

namespace Analysis

/-- The steps that are put into words, with their levels. -/
def messages (analysis : Analysis) : List (Step.Level × String) :=
  analysis.steps.filterMap fun step => step.message?.map (step.level, ·)

/-- Read the tokens of a source text, which has no lexical faults, and search the
program for gaps. -/
def ofTokens (settings : Settings) (source : SourceText) (tokens : List Token) : Analysis :=
  let parsing := Parsing.ofTokens settings.maxNestingDepth tokens
  let program := parsing.program
  let faults := parsing.diagnostics source settings.contextRadius
  let steps := parsing.resumptions.map Step.resumed ++
    [.parsed program.declarations.length faults.length]
  if faults = [] ∧ settings.validate then
    let gaps := program.validate
    ⟨program, gaps, steps ++ [.validated program.declarations.length gaps.length]⟩
  else ⟨program, faults, steps⟩

/-- Analyse a source text. -/
def ofSource (settings : Settings) (source : String) : Analysis :=
  let lexing := Lexing.ofText source.toList settings.contextRadius
  let step := Step.lexed lexing.tokens.length lexing.diagnostics.length
  if lexing.diagnostics = [] then
    let analysis := ofTokens settings (.ofString source) lexing.tokens
    { analysis with steps := step :: analysis.steps }
  else ⟨.empty, lexing.diagnostics, [step, .stoppedAfterLexing]⟩

/-! ## Files -/

/-- What a file system answers when it is asked for a file. -/
inductive FileContent where
  | missing
  | bytes (content : ByteArray)
  deriving Inhabited

/-- The text of a file, or the reason why there is none. -/
def FileContent.text : FileContent → Except String String
  | .missing => .error "No such file or directory (os error 2)"
  | .bytes content =>
      match String.fromUTF8? content with
      | some text => .ok text
      | none => .error "stream did not contain valid UTF-8"

/-- Analyse the text of a file.  A file that cannot be read gives one diagnostic, at no
place. -/
def ofFile (settings : Settings) (path : String) (content : FileContent) : Analysis :=
  match content.text with
  | .ok text =>
      let analysis := ofSource settings text
      { analysis with steps := .readingFile path :: analysis.steps }
  | .error reason =>
      let diagnostic : Diagnostic :=
        { kind := .inputOutput
          message := "Failed to read file '" ++ path ++ "': " ++ reason
          location := .nowhere
          context := path }
      ⟨.empty, [diagnostic], [.fileUnreadable path reason]⟩

end Analysis

end TwinSwarm
