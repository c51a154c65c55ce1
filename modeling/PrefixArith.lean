import PrefixArith.Binary64.Read
import PrefixArith.CommandLine.Run
import PrefixArith.Main
import PrefixArith.Proofs.Formula.Answers
import PrefixArith.Proofs.Line.Extension
import PrefixArith.Proofs.Line.Faults
import PrefixArith.Proofs.Line.Simplify
import PrefixArith.Proofs.Script.Modes
import PrefixArith.Proofs.Line.Operation
import PrefixArith.Proofs.Formula.Language
import PrefixArith.Proofs.Script.Lines
import PrefixArith.Proofs.Script.Bytes
import PrefixArith.Proofs.Term.Erasure
import PrefixArith.Proofs.Token.Overwriting
import PrefixArith.Proofs.Line.Erasure
import PrefixArith.Proofs.Line.Parentheses
import PrefixArith.Proofs.Line.Messages
import PrefixArith.Proofs.CommandLine.FileRun
import PrefixArith.Proofs.Formula.Batch
import PrefixArith.Proofs.CommandLine.GeneratedRun
import PrefixArith.Proofs.Line.Relocation
import PrefixArith.Proofs.Term.Consumption
import PrefixArith.Proofs.Token.Separators
import PrefixArith.Proofs.Line.Separators
import PrefixArith.Proofs.Term.Wrapping
import PrefixArith.Proofs.Line.Events
import PrefixArith.Proofs.Script.Events
import PrefixArith.Proofs.Formula.Reach
import PrefixArith.Proofs.Term.FirstFault
import PrefixArith.Proofs.Line.Completion
import PrefixArith.Proofs.CommandLine.Logging
import PrefixArith.Proofs.Term.Folding
import PrefixArith.Proofs.Formula.Concatenation
import PrefixArith.Proofs.Random.Ledger
import PrefixArith.Proofs.Formula.Ledger
import PrefixArith.Proofs.Formula.Demands
import PrefixArith.Proofs.Formula.Shape
import PrefixArith.Proofs.Formula.Choices
import PrefixArith.Proofs.Formula.Endings
import PrefixArith.Proofs.Formula.Growth
import PrefixArith.Proofs.Script.LineEnds
import PrefixArith.Proofs.Line.Literals
import PrefixArith.Proofs.Line.SolverText
import PrefixArith.Proofs.Token.Boundaries
import PrefixArith.Proofs.Formula.Uniformity
import PrefixArith.Proofs.Formula.Settings
