import Breadcrumb.Arithmetic
import Breadcrumb.CommandLine.Arguments
import Breadcrumb.CommandLine.Narration
import Breadcrumb.CommandLine.Options
import Breadcrumb.CommandLine.Run
import Breadcrumb.CommandLine.Switch
import Breadcrumb.CommandLine.Usage
import Breadcrumb.CommandLine.Verb
import Breadcrumb.CommandLine.Word
import Breadcrumb.Cursor
import Breadcrumb.Document
import Breadcrumb.Failure
import Breadcrumb.Indicator
import Breadcrumb.KeyPath
import Breadcrumb.Line
import Breadcrumb.Listing
import Breadcrumb.Log
import Breadcrumb.Main
import Breadcrumb.Proofs.Ancestry
import Breadcrumb.Proofs.Climb
import Breadcrumb.Proofs.Collection
import Breadcrumb.Proofs.Columns
import Breadcrumb.Proofs.Comment
import Breadcrumb.Proofs.Continuation
import Breadcrumb.Proofs.Counting
import Breadcrumb.Proofs.EmptyAnswers
import Breadcrumb.Proofs.Grammar
import Breadcrumb.Proofs.Insertion
import Breadcrumb.Proofs.Leading
import Breadcrumb.Proofs.LineEnds
import Breadcrumb.Proofs.Listings
import Breadcrumb.Proofs.Locality
import Breadcrumb.Proofs.Locate
import Breadcrumb.Proofs.Messages
import Breadcrumb.Proofs.Midline
import Breadcrumb.Proofs.Names
import Breadcrumb.Proofs.Nesting
import Breadcrumb.Proofs.Newlines
import Breadcrumb.Proofs.Observers
import Breadcrumb.Proofs.OnePass
import Breadcrumb.Proofs.Opening
import Breadcrumb.Proofs.Place
import Breadcrumb.Proofs.PlainPath
import Breadcrumb.Proofs.Questions
import Breadcrumb.Proofs.QuietRun
import Breadcrumb.Proofs.QuietWords
import Breadcrumb.Proofs.Reading
import Breadcrumb.Proofs.Reindentation
import Breadcrumb.Proofs.Renumbering
import Breadcrumb.Proofs.Role
import Breadcrumb.Proofs.RoundTrip
import Breadcrumb.Proofs.Run
import Breadcrumb.Proofs.Scalar
import Breadcrumb.Proofs.Search
import Breadcrumb.Proofs.Seeking
import Breadcrumb.Proofs.Separator
import Breadcrumb.Proofs.Series
import Breadcrumb.Proofs.Session
import Breadcrumb.Proofs.Specifications
import Breadcrumb.Proofs.Subscripts
import Breadcrumb.Proofs.Thresholds
import Breadcrumb.Proofs.Tour
import Breadcrumb.Proofs.Walk
import Breadcrumb.Proofs.Wrapping
import Breadcrumb.Query
import Breadcrumb.Quoting
import Breadcrumb.Session
import Breadcrumb.Settings
import Breadcrumb.Subscript
import Breadcrumb.Terminal
import Breadcrumb.Text.Blank
import Breadcrumb.Text.Bytes
import Breadcrumb.Text.Column
import Breadcrumb.Text.Lines
import Breadcrumb.Token
import Breadcrumb.Trail
import Breadcrumb.Walk
