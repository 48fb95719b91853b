import Flashcards.Arguments
import Flashcards.Bindings
import Flashcards.Boundary
import Flashcards.Cache
import Flashcards.Calendar
import Flashcards.Cloze.Deletion
import Flashcards.Cloze.Display
import Flashcards.Cloze.Span
import Flashcards.Command
import Flashcards.Config
import Flashcards.Decimal.Double
import Flashcards.Decimal.Shortest
import Flashcards.Deck.Basic
import Flashcards.Deck.Cards
import Flashcards.Deck.Problems
import Flashcards.Deck.Reader
import Flashcards.Failure
import Flashcards.Fields
import Flashcards.Files.Fault
import Flashcards.Files.Path
import Flashcards.Files.Tree
import Flashcards.Filter.Apply
import Flashcards.Filter.Kind
import Flashcards.Identity
import Flashcards.Job.Basic
import Flashcards.Job.Run
import Flashcards.Json.Display
import Flashcards.Json.Fault
import Flashcards.Json.Items
import Flashcards.Json.Reader
import Flashcards.Json.Value
import Flashcards.Json.Writer
import Flashcards.Main
import Flashcards.Markup.Escape
import Flashcards.Markup.Strip
import Flashcards.Numeral
import Flashcards.Package
import Flashcards.Preview
import Flashcards.Proofs.Actions
import Flashcards.Proofs.Books
import Flashcards.Proofs.Dependence
import Flashcards.Proofs.Drafts
import Flashcards.Proofs.Faults
import Flashcards.Proofs.Finishing
import Flashcards.Proofs.Gathering
import Flashcards.Proofs.Grammar
import Flashcards.Proofs.Journal
import Flashcards.Proofs.Lookup
import Flashcards.Proofs.Making
import Flashcards.Proofs.Masking
import Flashcards.Proofs.Normal
import Flashcards.Proofs.Operations
import Flashcards.Proofs.Overlong
import Flashcards.Proofs.Places
import Flashcards.Proofs.Printing
import Flashcards.Proofs.Problems
import Flashcards.Proofs.Recency
import Flashcards.Proofs.Running
import Flashcards.Proofs.Scan
import Flashcards.Proofs.Surrogates
import Flashcards.Proofs.Tags
import Flashcards.Proofs.Text
import Flashcards.Proofs.Transparency
import Flashcards.Render
import Flashcards.Renderer
import Flashcards.Ruby
import Flashcards.Session
import Flashcards.Sha1
import Flashcards.Side
import Flashcards.Style
import Flashcards.Template.Error
import Flashcards.Template.Nodes
import Flashcards.Template.Parser
import Flashcards.Template.Token
import Flashcards.Text.Blank
import Flashcards.Text.Cut
import Flashcards.Text.Digit
import Flashcards.Text.Line
import Flashcards.Text.Printable
import Flashcards.Text.Quoted
import Flashcards.Text.Utf8
import Flashcards.Widget
import Flashcards.Proofs.Escapes
import Flashcards.Proofs.Exports
import Flashcards.Proofs.Identities
import Flashcards.Proofs.Flaws
import Flashcards.Proofs.Decoding
import Flashcards.Proofs.Readback
import Flashcards.Proofs.Stored
import Flashcards.Proofs.Policies
import Flashcards.Proofs.Composition
import Flashcards.Proofs.Pages
import Flashcards.Proofs.Naming
import Flashcards.Proofs.Sides
import Flashcards.Proofs.Deletions
import Flashcards.Proofs.Occurrences
import Flashcards.Proofs.Splicing
import Flashcards.Proofs.Views
import Flashcards.Proofs.Numbers
import Flashcards.Proofs.Skips
import Flashcards.Proofs.Bindings
import Flashcards.Proofs.Proper
import Flashcards.Proofs.Schema
import Flashcards.Proofs.Rereading
import Flashcards.Proofs.Spellings
import Flashcards.Proofs.Stripping
import Flashcards.Proofs.Readings
import Flashcards.Proofs.Notations
import Flashcards.Proofs.Packing
import Flashcards.Proofs.Entities
import Flashcards.Proofs.Traversal
