import PropSandbox.FileSystem.Memory
import PropSandbox.Main
import PropSandbox.Random.Recognition
import PropSandbox.Proofs.Plan
import PropSandbox.Proofs.Validation
import PropSandbox.Proofs.Workshop
import PropSandbox.Proofs.Inferred
import PropSandbox.Proofs.Outcomes
import PropSandbox.Proofs.RoundTrip
import PropSandbox.Proofs.Writes
import PropSandbox.Proofs.Removal
import PropSandbox.Proofs.ListEdits
import PropSandbox.Proofs.FailedEdits
import PropSandbox.Proofs.StaleLoads
import PropSandbox.Proofs.Faults
import PropSandbox.Proofs.Chronicle
import PropSandbox.Proofs.Ledger
import PropSandbox.Proofs.Recall
import PropSandbox.Proofs.Entries
import PropSandbox.Proofs.Edits
import PropSandbox.Proofs.Forms
import PropSandbox.Proofs.Runs
import PropSandbox.Proofs.TypeValues
import PropSandbox.Proofs.Declared
import PropSandbox.Proofs.Fixtures
import PropSandbox.Proofs.WriteBack
import PropSandbox.Proofs.Reports
import PropSandbox.Proofs.Flavors
import PropSandbox.Proofs.Validity
import PropSandbox.Proofs.CallPaths
import PropSandbox.Proofs.Literals
import PropSandbox.Proofs.Layout
import PropSandbox.Proofs.Blanks
import PropSandbox.Proofs.FirstFault
import PropSandbox.Proofs.KindProbabilities
import PropSandbox.Proofs.FixtureFiles
import PropSandbox.Proofs.Comparison
import PropSandbox.Proofs.Overrides
import PropSandbox.Proofs.DrawBounds
import PropSandbox.Proofs.JsonForms
