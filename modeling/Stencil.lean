import Stencil.Inspect
import Stencil.Main
import Stencil.Proofs.Named
import Stencil.Proofs.Positional
import Stencil.Proofs.Reading
import Stencil.Proofs.Order
import Stencil.Proofs.Precedence
import Stencil.Proofs.Failure
import Stencil.Proofs.Isolation
import Stencil.Proofs.Agreement
import Stencil.Proofs.Registry
import Stencil.Proofs.Ignored
import Stencil.Proofs.Coverage
import Stencil.Proofs.Repetition
import Stencil.Proofs.Turns
import Stencil.Proofs.Transparency
import Stencil.Proofs.Unhandled
import Stencil.Proofs.Calls
import Stencil.Proofs.Margins
import Stencil.Proofs.Relaxed
import Stencil.Proofs.Lost
import Stencil.Proofs.Layers
import Stencil.Proofs.Slices
import Stencil.Proofs.Padding
import Stencil.Proofs.Sections
import Stencil.Proofs.CommandLine
import Stencil.Proofs.Integers
import Stencil.Proofs.Matching
import Stencil.Proofs.Untouched
import Stencil.Proofs.Rounding
