import TwinSwarm.Proofs.Analysis.Concatenation
import TwinSwarm.Proofs.Analysis.Layout
import TwinSwarm.Proofs.Grammar.Gap
import TwinSwarm.Proofs.Grammar.Recovery
import TwinSwarm.Workspace
import TwinSwarm.Proofs.Tree.Requirement
import TwinSwarm.Proofs.Grammar.Limit
import TwinSwarm.Proofs.Walk.Basic
import TwinSwarm.Proofs.Walk.Grammar
import TwinSwarm.Proofs.Walk.Follows
import TwinSwarm.Proofs.Walk.Course
import TwinSwarm.Proofs.Walk.Program
import TwinSwarm.Proofs.Analysis.Presentation
import TwinSwarm.Proofs.Grammar.Precedence
import TwinSwarm.Proofs.Grammar.Height
import TwinSwarm.Proofs.Analysis.Blame
import TwinSwarm.Proofs.Analysis.Caret
import TwinSwarm.Proofs.Lexeme.Language
import TwinSwarm.Proofs.Lexeme.Spacing
import TwinSwarm.Proofs.Lexeme.Blanking
import TwinSwarm.Proofs.Walk.Restart
import TwinSwarm.Proofs.Walk.Balance
import TwinSwarm.Proofs.Grammar.Placed
import TwinSwarm.Proofs.Tree.Reload
import TwinSwarm.Proofs.Tree.Refusal
import TwinSwarm.Proofs.Tree.Retyping
import TwinSwarm.Proofs.Tree.Restoring
import TwinSwarm.Proofs.Tree.Decimal
