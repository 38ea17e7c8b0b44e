import ScriptCompiler.CommandLine.Flags
import ScriptCompiler.CommandLine.History
import ScriptCompiler.CommandLine.Run
import ScriptCompiler.Compilation.Executable
import ScriptCompiler.Compilation.Unit
import ScriptCompiler.Config.Load
import ScriptCompiler.Config.Moment
import ScriptCompiler.Config.Options
import ScriptCompiler.Config.Toml
import ScriptCompiler.Config.Toml.Statement
import ScriptCompiler.Config.Toml.Table
import ScriptCompiler.Config.Yaml
import ScriptCompiler.Config.Yaml.Cursor
import ScriptCompiler.Config.Yaml.Meaning
import ScriptCompiler.Config.Yaml.Node
import ScriptCompiler.Config.Yaml.Scalar
import ScriptCompiler.Config.Yaml.Token
import ScriptCompiler.Diagnostic
import ScriptCompiler.Dialogue
import ScriptCompiler.Files
import ScriptCompiler.IR.Assembler
import ScriptCompiler.IR.Function
import ScriptCompiler.IR.Instr
import ScriptCompiler.IR.Module
import ScriptCompiler.IR.Opcode
import ScriptCompiler.IR.Value
import ScriptCompiler.LLVM.Generate
import ScriptCompiler.LLVM.Listing
import ScriptCompiler.LLVM.Module
import ScriptCompiler.LLVM.Name
import ScriptCompiler.LLVM.Value
import ScriptCompiler.Log
import ScriptCompiler.Lowering.Entry
import ScriptCompiler.Lowering.Expr
import ScriptCompiler.Lowering.Fault
import ScriptCompiler.Lowering.Program
import ScriptCompiler.Lowering.State
import ScriptCompiler.Lowering.Stmt
import ScriptCompiler.Main
import ScriptCompiler.Number.Binary64
import ScriptCompiler.Number.Decimal
import ScriptCompiler.Number.Numeral
import ScriptCompiler.Optimize.DeadCode
import ScriptCompiler.Optimize.Folding
import ScriptCompiler.Optimize.Pipeline
import ScriptCompiler.Report
import ScriptCompiler.Scope.Handle
import ScriptCompiler.Scope.Symbol
import ScriptCompiler.Scope.Table
import ScriptCompiler.Session
import ScriptCompiler.Source.File
import ScriptCompiler.Source.Position
import ScriptCompiler.Syntax.Dump
import ScriptCompiler.Syntax.Parser
import ScriptCompiler.Syntax.Precedence
import ScriptCompiler.Syntax.Tree
import ScriptCompiler.Text.Blank
import ScriptCompiler.Text.CodeTable
import ScriptCompiler.Text.Composed
import ScriptCompiler.Text.Decomposition
import ScriptCompiler.Text.Letter
import ScriptCompiler.Text.LowerCase
import ScriptCompiler.Text.Path
import ScriptCompiler.Text.Printable
import ScriptCompiler.Text.Quoted
import ScriptCompiler.Text.Rune
import ScriptCompiler.Token.Kind
import ScriptCompiler.Token.Scanner
import ScriptCompiler.Toolchain.Tools
import ScriptCompiler.Toolchain.Workspace
import ScriptCompiler.Ty
import ScriptCompiler.Proofs.Semantics.Source
import ScriptCompiler.Proofs.Semantics.Blocks
import ScriptCompiler.Proofs.Lowering.Inversion
import ScriptCompiler.Proofs.IR.Progress
import ScriptCompiler.Proofs.Lowering.WellFormed
import ScriptCompiler.Proofs.Syntax.Acceptance
import ScriptCompiler.Proofs.Lowering.WellTyped
import ScriptCompiler.Proofs.Statics.Programs
import ScriptCompiler.Proofs.Lowering.Dominance
import ScriptCompiler.Proofs.LLVM.Typing
import ScriptCompiler.Proofs.Optimize.Meaning
import ScriptCompiler.Proofs.Optimize.Soundness
import ScriptCompiler.Proofs.Token.Tiling
import ScriptCompiler.Proofs.Compilation.StartingPoint
import ScriptCompiler.Proofs.Compilation.Generation
import ScriptCompiler.Proofs.Statics.Answers
import ScriptCompiler.Proofs.LLVM.Meaning
import ScriptCompiler.Proofs.Compilation.Sessions
import ScriptCompiler.Proofs.Token.Munch
import ScriptCompiler.Proofs.Layout.Independence
import ScriptCompiler.Proofs.Reordering.Order
import ScriptCompiler.Proofs.Preservation.Bounded
import ScriptCompiler.Proofs.Preservation.Instructions
import ScriptCompiler.Proofs.Optimize.Unshared
import ScriptCompiler.Proofs.Token.Lines
import ScriptCompiler.Proofs.Preservation.Expressions
import ScriptCompiler.Proofs.Preservation.Functions
import ScriptCompiler.Proofs.Preservation.Programs
import ScriptCompiler.Proofs.Optimize.Arithmetic
import ScriptCompiler.Proofs.Scope.History
import ScriptCompiler.Proofs.Usage.Unused
import ScriptCompiler.Proofs.Diagnostics.Places
import ScriptCompiler.Proofs.Layout.Extents
import ScriptCompiler.Proofs.LLVM.Reported
import ScriptCompiler.Proofs.Dialogue.Chunks
import ScriptCompiler.Proofs.Token.Progress
import ScriptCompiler.Proofs.Token.Identifiers
import ScriptCompiler.Proofs.Syntax.WalkAgreement
