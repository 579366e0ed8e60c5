import Codegen.Proofs.Banner
import Codegen.Proofs.Declaration
import Codegen.Proofs.Emission.Answered
import Codegen.Proofs.Emission.Imported
import Codegen.Proofs.Emission.Interleaving
import Codegen.Proofs.Emission.Refused
import Codegen.Proofs.Execution.Requests
import Codegen.Proofs.Graph.Traversal
import Codegen.Proofs.Graph.Unordered
import Codegen.Proofs.Import.Fusion
import Codegen.Proofs.Import.Regrouped
import Codegen.Proofs.Output.Complete
import Codegen.Proofs.Path.Normalized
import Codegen.Proofs.Path.Relative
import Codegen.Proofs.Placement
import Codegen.Proofs.Plan.Bounded
import Codegen.Proofs.Plan.Respelled
import Codegen.Proofs.Plan.Singleton
import Codegen.Proofs.Plan.Unordered
import Codegen.Proofs.Request.Alike
import Codegen.Proofs.Run.Credited
import Codegen.Proofs.Run.Published
import Codegen.Proofs.Settings.Mirrored
import Codegen.Proofs.Source.Decorator
import Codegen.Proofs.Source.Settled
import Codegen.Proofs.Symbol.Query
import Codegen.Proofs.Symbol.Spelling
import Codegen.Proofs.Text.Words
import Codegen.Report
import Codegen.Source.Reader
import Codegen.Value.JsonReader
