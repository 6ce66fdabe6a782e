import StagedArrays.Algebra.Reduce
import StagedArrays.Code.Document
import StagedArrays.Code.Equality
import StagedArrays.Code.Run
import StagedArrays.Context.Definition
import StagedArrays.Declaration.Routine
import StagedArrays.Declaration.Text
import StagedArrays.Describe
import StagedArrays.Graph.Stage
import StagedArrays.Numeric.Written
import StagedArrays.Proofs.Emission.Contract
import StagedArrays.Proofs.Allocator.Custody
import StagedArrays.Proofs.Allocator.Lease
import StagedArrays.Proofs.Allocator.Provenance
import StagedArrays.Proofs.Context.Nesting
import StagedArrays.Proofs.Graph.Leaks
import StagedArrays.Proofs.Graph.Reruns
import StagedArrays.Proofs.Script.Arguments
import StagedArrays.Proofs.Script.Containment
import StagedArrays.Proofs.Graph.Nested
import StagedArrays.Proofs.Graph.Termination
import StagedArrays.Proofs.Staging.Emission
import StagedArrays.Proofs.Storage.Readable
import StagedArrays.Proofs.Code.Depth
import StagedArrays.Proofs.Code.Persistence
import StagedArrays.Proofs.Script.Recursion
import StagedArrays.Proofs.Script.Symbols
import StagedArrays.Proofs.Algebra.InPlace
import StagedArrays.Proofs.Algebra.Mismatch
import StagedArrays.Proofs.Algebra.Pointwise
import StagedArrays.Proofs.Algebra.InnerProducts
import StagedArrays.Proofs.Algebra.Stopping
import StagedArrays.Proofs.Graph.Endings
import StagedArrays.Proofs.Code.Linking
import StagedArrays.Proofs.Script.Budget
import StagedArrays.Proofs.Allocator.Choice
import StagedArrays.Proofs.Script.Atomicity
import StagedArrays.Proofs.Numeric.Exact
import StagedArrays.Proofs.Algebra.Rows
import StagedArrays.Proofs.Script.Nests
import StagedArrays.Proofs.Layout.Numbering
