import Reckoner.Environment
import Reckoner.Evaluation
import Reckoner.Library.Install
import Reckoner.Proofs.Evaluation.Consistency
import Reckoner.Proofs.Evaluation.Expectation
import Reckoner.Proofs.Evaluation.Locality
import Reckoner.Proofs.Evaluation.Lookups
import Reckoner.Proofs.Evaluation.Origins
import Reckoner.Proofs.Evaluation.SyntaxErrors
import Reckoner.Proofs.Library.Availability
import Reckoner.Proofs.Library.Draws
import Reckoner.Proofs.Library.Errors
import Reckoner.Proofs.Library.Factorials
import Reckoner.Proofs.Library.Logarithms
import Reckoner.Proofs.Library.Repetition
import Reckoner.Proofs.NumberSystem.DecimalConvergence
import Reckoner.Proofs.NumberSystem.DecimalDisplay
import Reckoner.Proofs.NumberSystem.DecimalExponential
import Reckoner.Proofs.NumberSystem.DecimalIntake
import Reckoner.Proofs.NumberSystem.DecimalLogarithm
import Reckoner.Proofs.NumberSystem.DecimalOddness
import Reckoner.Proofs.NumberSystem.DecimalPeriodicity
import Reckoner.Proofs.NumberSystem.DecimalRemainder
import Reckoner.Proofs.NumberSystem.DecimalRounding
import Reckoner.Proofs.NumberSystem.DecimalSigns
import Reckoner.Proofs.NumberSystem.IntegerUnbounded
import Reckoner.Proofs.Registry.Atomicity
import Reckoner.Proofs.Registry.Listing
import Reckoner.Proofs.Registry.Storage
import Reckoner.Proofs.Scan.Classes
import Reckoner.Proofs.Scan.Products
import Reckoner.Release
import Reckoner.Vocabulary.Load
