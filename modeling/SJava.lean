import SJava.CommandLine.Basic
import SJava.Main
import SJava.Proofs.Scope.Block
import SJava.Proofs.Verify.Acceptance
import SJava.Proofs.Verify.Call
import SJava.Proofs.Verify.Concatenation
import SJava.Proofs.Verify.Entry
import SJava.Proofs.Verify.History
import SJava.Proofs.Verify.MethodOrder
import SJava.Workbench.Session
import SJava.Proofs.Verify.FailFast
import SJava.Proofs.Verify.Monotone
import SJava.Proofs.Verify.Origin
import SJava.Proofs.Source
import SJava.Proofs.Verify.Placement
import SJava.Proofs.CommandLine
import SJava.Proofs.Verify.ListClause
import SJava.Proofs.Clause.Writing
import SJava.Proofs.Verify.Summary
import SJava.Proofs.Verify.Condition
import SJava.Proofs.Method.Written
import SJava.Proofs.Verify.OneStatement
import SJava.Proofs.Lexicon.Cuts
import SJava.Proofs.Lexicon.Literal
import SJava.Proofs.Clause.Exclusion
import SJava.Proofs.LineEnds
import SJava.Proofs.Lexicon.Token
import SJava.Proofs.Workbench.Session
import SJava.Proofs.Text.WellFormed
import SJava.Proofs.Lexicon.Pattern
