import MaterialShader.Main
import MaterialShader.Proofs.Library.Lookup
import MaterialShader.Proofs.Fault.Validated
import MaterialShader.Proofs.Emission.Templates
import MaterialShader.Proofs.Emission.Agreement
import MaterialShader.Proofs.Emission.Balance
import MaterialShader.Proofs.CommandLine.Outputs
import MaterialShader.Proofs.Fault.References
import MaterialShader.Proofs.Dependency.Cycle
import MaterialShader.Proofs.Graph.Induced
import MaterialShader.Proofs.Graph.FoldLiteral
import MaterialShader.Proofs.Session
import MaterialShader.Proofs.Graph.Finite
import MaterialShader.Proofs.Emission.Folding
import MaterialShader.Proofs.Dialect.Quoted
import MaterialShader.Proofs.Emission.Lazy
import MaterialShader.Proofs.Emission.Attributes
import MaterialShader.Proofs.Stage.OnePass
import MaterialShader.Proofs.Emission.Declarators
import MaterialShader.Proofs.Emission.EmptyClosure
import MaterialShader.Proofs.Graph.Names
import MaterialShader.Proofs.Emission.EntryPoint
import MaterialShader.Proofs.Network.Paths
import MaterialShader.Proofs.Template
import MaterialShader.Proofs.Numeric.Accuracy
