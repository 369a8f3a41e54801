import TsxPreview.Preview.Exchange
import TsxPreview.Preview.Interaction
import TsxPreview.Proofs.Compile.Closure
import TsxPreview.Proofs.Compile.Reports
import TsxPreview.Proofs.Hooks.Stability
import TsxPreview.Proofs.Linking.Plain
import TsxPreview.Proofs.Loading.Once
import TsxPreview.Proofs.Preview.LatestWins
import TsxPreview.Proofs.Repair.Annotations
import TsxPreview.Proofs.Repair.Bindings
import TsxPreview.Proofs.Repair.Idempotence
import TsxPreview.Proofs.Repair.Rearrangement
import TsxPreview.Proofs.Syntax.Formulas.RoundTrip
import TsxPreview.Proofs.Syntax.Formulas.Templates
import TsxPreview.Proofs.Syntax.Height.Files
import TsxPreview.Proofs.Hooks.Accounts
import TsxPreview.Proofs.Hooks.Reckoning
import TsxPreview.Proofs.Preview.Cleanups
import TsxPreview.Proofs.Preview.Instances
import TsxPreview.Proofs.Preview.Setters
import TsxPreview.Proofs.Preview.Hosts
import TsxPreview.Proofs.Syntax.Nesting.Statements
import TsxPreview.Proofs.Script.Running
import TsxPreview.Proofs.Script.Lengths
import TsxPreview.Proofs.Script.Conversions
import TsxPreview.Proofs.Loading.Functions
import TsxPreview.Proofs.Markup.Escapes
import TsxPreview.Proofs.Markup.Layout
import TsxPreview.Proofs.Resolution
import TsxPreview.Proofs.Script.Modifications
import TsxPreview.Proofs.ClassNames.Removal
import TsxPreview.Proofs.Navigation
import TsxPreview.Proofs.Timers.Rounds
import TsxPreview.Proofs.View.Forest
import TsxPreview.Proofs.Repair.Fences
import TsxPreview.Proofs.Repair.Selection
import TsxPreview.Proofs.View.Selectors
import TsxPreview.Proofs.Diagnostics
import TsxPreview.Proofs.Repair.Pairs
import TsxPreview.Proofs.Repair.Prose
