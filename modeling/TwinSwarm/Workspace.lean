import TwinSwarm.Analysis
import TwinSwarm.Tree.OfJson
import TwinSwarm.Tree.Outline

/-!
# Workspaces

A workspace holds settings and a program, and changes them command by command: source
texts are read into the program, declarations are edited, and the program is written
out and read back.
-/

namespace TwinSwarm

namespace Declaration

/-- The declaration under another name. -/
def renamed (name : String) : Declaration → Declaration
  | .twin declared => .twin { declared with name }
  | .swarm declared => .swarm { declared with name }
  | .event declared => .event { declared with name }
  | .action declared => .action { declared with name }
  | .rule declared => .rule { declared with name }
  | .imported declared => .imported { declared with name }

/-- A rule without its condition; other declarations stay as they are. -/
def withoutCondition : Declaration → Declaration
  | .rule declared => .rule { declared with condition := none }
  | declaration => declaration

end Declaration

/-- Settings and a program. -/
structure Workspace where
  settings : Settings
  program : Program
  deriving Repr, DecidableEq, Inhabited

/-- What a workspace can be asked to do. -/
inductive Workspace.Command where
  | resetSettings
  | limitNesting (depth : Nat)
  | showAround (radius : Nat)
  | skipValidation
  | showSettings
  | parse (source : String)
  | append (source : String)
  | remove (index : Nat)
  | rename (index : Nat) (name : String)
  | clearCondition (index : Nat)
  | validate
  | reload
  | showProgram
  deriving Repr, DecidableEq, Inhabited

/-- What a workspace answers. -/
inductive Workspace.Reply where
  | settings (settings : Settings)
  | analysed (summary : List OutlineEntry) (diagnostics : List Diagnostic)
  | summary (summary : List OutlineEntry)
  | diagnostics (diagnostics : List Diagnostic)
  | reloaded (bytes : Nat) (equal : Bool) (findings : Nat)
  | unreadable (report : Json.Report)
  | program (program : Program)
  deriving Repr, DecidableEq, Inhabited

namespace Workspace

/-- The workspace without declarations, under the settings that hold unless told
otherwise. -/
def initial : Workspace := ⟨.default, .empty⟩

/-- Change the settings, and show them. -/
def changeSettings (workspace : Workspace) (settings : Settings) : Reply × Workspace :=
  (.settings settings, { workspace with settings })

/-- Change the list of declarations, and show it. -/
def edit (workspace : Workspace) (change : List Declaration → List Declaration) :
    Reply × Workspace :=
  let program : Program := ⟨change workspace.program.declarations⟩
  (.summary program.summary, { workspace with program })

/-- Read a source text, and put its declarations behind others. -/
def extend (workspace : Workspace) (before : List Declaration) (source : String) :
    Reply × Workspace :=
  let analysis := Analysis.ofSource workspace.settings source
  let program : Program := ⟨before ++ analysis.program.declarations⟩
  (.analysed program.summary analysis.diagnostics, { workspace with program })

/-- Write the program out and read it back. -/
def reload (workspace : Workspace) : Reply × Workspace :=
  let text := workspace.program.jsonText
  match Program.ofJsonText text with
  | .error report => (.unreadable report, workspace)
  | .ok program =>
      (.reloaded text.utf8ByteSize (program = workspace.program)
        (Program.validateJsonText text).length, { workspace with program })

/-- Carry out a command. -/
def run (workspace : Workspace) : Command → Reply × Workspace
  | .resetSettings => workspace.changeSettings .default
  | .limitNesting depth =>
      workspace.changeSettings { workspace.settings with maxNestingDepth := depth }
  | .showAround radius =>
      workspace.changeSettings { workspace.settings with contextRadius := radius }
  | .skipValidation => workspace.changeSettings { workspace.settings with validate := false }
  | .showSettings => (.settings workspace.settings, workspace)
  | .parse source => workspace.extend [] source
  | .append source => workspace.extend workspace.program.declarations source
  | .remove index => workspace.edit (·.eraseIdx index)
  | .rename index name => workspace.edit (·.modify index (Declaration.renamed name))
  | .clearCondition index => workspace.edit (·.modify index Declaration.withoutCondition)
  | .validate => (.diagnostics workspace.program.validate, workspace)
  | .reload => workspace.reload
  | .showProgram => (.program workspace.program, workspace)

/-- Carry out commands in order.  Each is answered. -/
def runAll (workspace : Workspace) : List Command → List Reply
  | [] => []
  | command :: rest =>
      let (reply, next) := workspace.run command
      reply :: next.runAll rest

end Workspace

end TwinSwarm
