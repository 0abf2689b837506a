import AffineArrays.AffineForm
import AffineArrays.ColumnMajor
import AffineArrays.Curvature
import AffineArrays.DenseMatrix
import AffineArrays.Error
import AffineArrays.Expr.Analysis
import AffineArrays.Expr.Basic
import AffineArrays.Expr.Evaluation
import AffineArrays.Expr.Step
import AffineArrays.IndexMap
import AffineArrays.LinearTree
import AffineArrays.Operation
import AffineArrays.Proofs.CanonicalSums
import AffineArrays.Proofs.Construction
import AffineArrays.Proofs.ConstructionByShape
import AffineArrays.Proofs.CountsFit
import AffineArrays.Proofs.CurvatureSoundness
import AffineArrays.Proofs.Dimensions
import AffineArrays.Proofs.DirectNodes
import AffineArrays.Proofs.Dispatch
import AffineArrays.Proofs.ExactSums
import AffineArrays.Proofs.Fit
import AffineArrays.Proofs.FlatOrder
import AffineArrays.Proofs.FloatEntries
import AffineArrays.Proofs.FormEvaluation
import AffineArrays.Proofs.FormSums
import AffineArrays.Proofs.Lowering
import AffineArrays.Proofs.Meaning
import AffineArrays.Proofs.MeaningInWords
import AffineArrays.Proofs.MovedEntries
import AffineArrays.Proofs.Occurrences
import AffineArrays.Proofs.OwnVariables
import AffineArrays.Proofs.PlacedEntries
import AffineArrays.Proofs.Precedence
import AffineArrays.Proofs.Progress
import AffineArrays.Proofs.Pruning
import AffineArrays.Proofs.ReshapeSequences
import AffineArrays.Proofs.RoundTrip
import AffineArrays.Proofs.RowMaps
import AffineArrays.Proofs.Selection
import AffineArrays.Proofs.SignSoundness
import AffineArrays.Proofs.Spine
import AffineArrays.Proofs.SpineFaults
import AffineArrays.Proofs.StorageExchange
import AffineArrays.Proofs.StorageSafety
import AffineArrays.Proofs.StoredEntries
import AffineArrays.Proofs.SymmetrySoundness
import AffineArrays.Proofs.ZeroOne
import AffineArrays.Proofs.ZeroOneInWords
import AffineArrays.Shape
import AffineArrays.Sign
import AffineArrays.SparseMatrix
import AffineArrays.Tolerance
import AffineArrays.Transform
import AffineArrays.Value
import AffineArrays.Variable
import AffineArrays.Word.Arrays
import AffineArrays.Word.Count
import AffineArrays.Word.Evaluation
import AffineArrays.Word.Expressions
import AffineArrays.Word.Forms
