import ContractInspector.Compiler.Run
import ContractInspector.Contract.Report
import ContractInspector.Contract.Scan
import ContractInspector.Diagnostic.Report
import ContractInspector.Guard.Content
import ContractInspector.Guard.Resolve
import ContractInspector.Json.Reader
import ContractInspector.Json.Writer
import ContractInspector.Machine.Computer
import ContractInspector.Proofs.Guard.Literals
import ContractInspector.Service.Session
import ContractInspector.Text.Skipping
import ContractInspector.Tool.Outline
import ContractInspector.Tool.Validation
import ContractInspector.Proofs.Text.Taking
import ContractInspector.Proofs.Text.Behind
import ContractInspector.Proofs.Source.Numbering
import ContractInspector.Proofs.Text.Lines
import ContractInspector.Proofs.Text.Stripping
import ContractInspector.Proofs.Diagnostic.Marking
import ContractInspector.Proofs.Diagnostic.Locating
import ContractInspector.Proofs.Diagnostic.Reporting
import ContractInspector.Proofs.Tool.Failure
import ContractInspector.Proofs.Diagnostic.Rendering
import ContractInspector.Proofs.Source.Header
import ContractInspector.Proofs.Contract.Behind
import ContractInspector.Proofs.Contract.Header
import ContractInspector.Proofs.Issue.Header
import ContractInspector.Proofs.Source.Splitting
import ContractInspector.Proofs.Text.Words
import ContractInspector.Proofs.Contract.Syntax
import ContractInspector.Proofs.Contract.Lines
import ContractInspector.Proofs.Contract.Heading
import ContractInspector.Proofs.Contract.Written
import ContractInspector.Proofs.Contract.Preamble
import ContractInspector.Proofs.Contract.Inverse
import ContractInspector.Proofs.Guard.Path
import ContractInspector.Proofs.Guard.WindowsPath
import ContractInspector.Proofs.Compiler.Staging
import ContractInspector.Proofs.Diagnostic.Naming
import ContractInspector.Proofs.Guard.Resolving
import ContractInspector.Proofs.Tool.Validating
import ContractInspector.Proofs.Source.Automaton
import ContractInspector.Proofs.Source.Items
import ContractInspector.Proofs.Service.Session
import ContractInspector.Proofs.Issue.Constants
import ContractInspector.Proofs.Contract.Blocks
import ContractInspector.Proofs.Source.Cutting
import ContractInspector.Proofs.Contract.Spread
import ContractInspector.Proofs.Diagnostic.Waiting
import ContractInspector.Proofs.Issue.Assigning
import ContractInspector.Proofs.Issue.Branching
import ContractInspector.Proofs.Contract.Wrapping
import ContractInspector.Proofs.Compiler.Draining
import ContractInspector.Proofs.Diagnostic.Expecting
import ContractInspector.Proofs.Diagnostic.Fixing
import ContractInspector.Proofs.Diagnostic.Owning
import ContractInspector.Proofs.Issue.Silencing
import ContractInspector.Proofs.Source.Bodies
import ContractInspector.Proofs.Issue.Blanking
import ContractInspector.Proofs.Issue.Sorting
import ContractInspector.Proofs.Issue.Placing
import ContractInspector.Proofs.Compiler.Finding
