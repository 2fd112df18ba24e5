import SchemaScaffold.Main
import SchemaScaffold.Output.FileTree
import SchemaScaffold.Proofs.Run
import SchemaScaffold.Proofs.Checks
import SchemaScaffold.Proofs.Header
import SchemaScaffold.Proofs.Pieces
import SchemaScaffold.Proofs.Closure
import SchemaScaffold.Proofs.Linking
import SchemaScaffold.Proofs.Acceptance
import SchemaScaffold.Proofs.Reader
import SchemaScaffold.Proofs.References
import SchemaScaffold.Proofs.FileTree
import SchemaScaffold.Proofs.Writing
import SchemaScaffold.Proofs.Command
import SchemaScaffold.Proofs.Sinks
import SchemaScaffold.Proofs.Layout
import SchemaScaffold.Proofs.Reordering
import SchemaScaffold.Proofs.Ownership
import SchemaScaffold.Proofs.ParameterOrder
import SchemaScaffold.Proofs.Identifier
import SchemaScaffold.Proofs.Form
import SchemaScaffold.Proofs.Naming
import SchemaScaffold.Proofs.Clashes
import SchemaScaffold.Proofs.Coverage
import SchemaScaffold.Proofs.ByteOrder
import SchemaScaffold.Proofs.PathSteps
import SchemaScaffold.Proofs.Literal
import SchemaScaffold.Proofs.Launch
import SchemaScaffold.Proofs.Dependence
import SchemaScaffold.Proofs.AttributeOrder
import SchemaScaffold.Proofs.Rendering
import SchemaScaffold.Proofs.Nullability
import SchemaScaffold.Proofs.WordBreaks
import SchemaScaffold.Proofs.ReferenceText
import SchemaScaffold.Proofs.Registry
import SchemaScaffold.Proofs.Components
import SchemaScaffold.Proofs.Bases
import SchemaScaffold.Proofs.Traversal
import SchemaScaffold.Proofs.Widening
import SchemaScaffold.Proofs.Default
