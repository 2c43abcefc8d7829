import JackLang.Calculator
import JackLang.Class
import JackLang.Compile.Class
import JackLang.Compile.Compiler
import JackLang.Compile.Emit
import JackLang.Compile.Error
import JackLang.Compile.Expr
import JackLang.Compile.Statement
import JackLang.Expr.Basic
import JackLang.Expr.Chain
import JackLang.Expr.Reader
import JackLang.Keywords
import JackLang.Lexeme
import JackLang.Operator
import JackLang.Proofs.Acceptance
import JackLang.Proofs.Accounting
import JackLang.Proofs.Blocks
import JackLang.Proofs.ChainCode
import JackLang.Proofs.Chains
import JackLang.Proofs.Comments
import JackLang.Proofs.Emission
import JackLang.Proofs.Entering
import JackLang.Proofs.ErrorPlaces
import JackLang.Proofs.Evaluation
import JackLang.Proofs.ExprRun
import JackLang.Proofs.FirstGap
import JackLang.Proofs.Indices
import JackLang.Proofs.Interpreter
import JackLang.Proofs.Isolation
import JackLang.Proofs.Listings
import JackLang.Proofs.Numbering
import JackLang.Proofs.Openers
import JackLang.Proofs.Printing
import JackLang.Proofs.Renaming
import JackLang.Proofs.RoundTrip
import JackLang.Proofs.Segmentation
import JackLang.Proofs.Separators
import JackLang.Proofs.Similarity
import JackLang.Proofs.Slots
import JackLang.Proofs.Spelling
import JackLang.Proofs.StackBase
import JackLang.Proofs.StackDepth
import JackLang.Proofs.SubroutineRun
import JackLang.Proofs.Trees
import JackLang.Proofs.UniqueReading
import JackLang.Proofs.WellScoped
import JackLang.SubroutineName
import JackLang.Symbol
import JackLang.Symbol.Scopes
import JackLang.Symbol.Table
import JackLang.Text.Alphabetic
import JackLang.Text.CommentFree
import JackLang.Text.Letter
import JackLang.Text.Lines
import JackLang.Token
import JackLang.Vm.Instr
import JackLang.Vm.Listing
import JackLang.Vm.Machine
