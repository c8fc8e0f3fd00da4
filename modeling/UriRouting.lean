import UriRouting.Cli.Run
import UriRouting.Http.Service
import UriRouting.Json.Reader
import UriRouting.Settings.OfJson
import UriRouting.Main
import UriRouting.Proofs.Pattern.Matching
import UriRouting.Proofs.Binding.Precedence
import UriRouting.Proofs.Binding.Resolution
import UriRouting.Proofs.Binding.RoundTrip
import UriRouting.Proofs.Route.Dispatch
import UriRouting.Proofs.Settings.Table
import UriRouting.Proofs.Template.Digest
import UriRouting.Proofs.Template.Rendering
import UriRouting.Proofs.Location.Path
import UriRouting.Proofs.Http.Agreement
import UriRouting.Proofs.Binding.Canonical
import UriRouting.Proofs.Route.Links
import UriRouting.Proofs.Binding.Segments
import UriRouting.Proofs.Route.Independence
import UriRouting.Proofs.Route.Best
import UriRouting.Proofs.Pattern.Score
import UriRouting.Proofs.Regex.Search
import UriRouting.Proofs.Regex.Combinators
import UriRouting.Proofs.Regex.Moves
import UriRouting.Proofs.Regex.Locality
import UriRouting.Proofs.Regex.ClassLocality
import UriRouting.Proofs.Regex.Enclosed
import UriRouting.Proofs.Binding.WholeValue
import UriRouting.Proofs.Pattern.Widening
import UriRouting.Proofs.Template.Concatenation
import UriRouting.Proofs.Pattern.Concatenation
import UriRouting.Proofs.Template.Faults
import UriRouting.Proofs.Template.Diagnosis
import UriRouting.Proofs.Pattern.Compilation
import UriRouting.Proofs.Route.Selection
import UriRouting.Proofs.Pattern.Expansion
import UriRouting.Proofs.Text.Pieces
import UriRouting.Proofs.Http.Form
import UriRouting.Proofs.Http.Expansion
import UriRouting.Proofs.Binding.Leaves
import UriRouting.Proofs.Binding.Integer
import UriRouting.Proofs.Location.RoundTrip
import UriRouting.Proofs.Percent.Decoding
import UriRouting.Proofs.Binding.Entries
import UriRouting.Proofs.Settings.Json
