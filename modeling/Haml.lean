import Haml.Files.Tree
import Haml.Main
import Haml.Proofs.Nesting
import Haml.Proofs.Suppression
import Haml.Proofs.Uncommented
import Haml.Proofs.Untrimmed
import Haml.Proofs.Wrapped
import Haml.Proofs.Escaping
import Haml.Proofs.Structure
import Haml.Proofs.Markup
import Haml.Proofs.RawBlocks
import Haml.Proofs.Printing
import Haml.Proofs.Failures
import Haml.Proofs.Loops
import Haml.Proofs.Passing
import Haml.Proofs.Balance
import Haml.Proofs.Chains
import Haml.Proofs.KeptBindings
import Haml.Proofs.Delivery
import Haml.Proofs.Verbatim
import Haml.Proofs.Styles
import Haml.Proofs.Parenthesized
import Haml.Proofs.Located.Filters
import Haml.Proofs.Located.Calls
import Haml.Proofs.Located.Lines
import Haml.Proofs.Located
import Haml.Proofs.Inference
import Haml.Proofs.Refused
import Haml.Proofs.Checked
import Haml.Proofs.Offset.Compile
import Haml.Proofs.Interpolated
import Haml.Proofs.History
import Haml.Proofs.Quoting
import Haml.Proofs.Trimmed
import Haml.Proofs.Segments
import Haml.Proofs.TextLines
import Haml.Proofs.Backslashes
import Haml.Proofs.Content
import Haml.Proofs.Sequences
import Haml.Proofs.Continued
import Haml.Proofs.Brackets
import Haml.Proofs.Spread
import Haml.Proofs.Statements
import Haml.Proofs.Trusted
import Haml.Proofs.Visits
import Haml.Proofs.Respelled
import Haml.Proofs.Compared
import Haml.Proofs.Evaluated
