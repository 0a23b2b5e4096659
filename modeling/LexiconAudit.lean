import LexiconAudit.CommandLine.Arguments
import LexiconAudit.CommandLine.Report
import LexiconAudit.CommandLine.Run
import LexiconAudit.Database.Comment
import LexiconAudit.Database.Discrepancy
import LexiconAudit.Database.Document
import LexiconAudit.Database.Dump
import LexiconAudit.Database.Export
import LexiconAudit.Database.Fields
import LexiconAudit.Database.LexiconIndex
import LexiconAudit.Database.Memory
import LexiconAudit.Database.Notes
import LexiconAudit.Database.Store
import LexiconAudit.Database.Thread
import LexiconAudit.Database.Verification
import LexiconAudit.Failure
import LexiconAudit.Files.Change
import LexiconAudit.Files.Entry
import LexiconAudit.Files.Fault
import LexiconAudit.Files.Path
import LexiconAudit.Files.Start
import LexiconAudit.Files.Tree
import LexiconAudit.Fixture.Absence
import LexiconAudit.Fixture.Fault
import LexiconAudit.Fixture.Lexer
import LexiconAudit.Fixture.Reader
import LexiconAudit.Fixture.Token
import LexiconAudit.Fixture.Unread
import LexiconAudit.Json.Basic
import LexiconAudit.Json.Number
import LexiconAudit.Json.Printer
import LexiconAudit.Json.Reader
import LexiconAudit.Keyed
import LexiconAudit.Main
import LexiconAudit.Node.Basic
import LexiconAudit.Node.Digest
import LexiconAudit.Node.Markup
import LexiconAudit.Node.Vocabulary
import LexiconAudit.Proofs.Checking
import LexiconAudit.Proofs.CommandLine.Arguments
import LexiconAudit.Proofs.CommandLine.Outcome
import LexiconAudit.Proofs.Database.Collections
import LexiconAudit.Proofs.Database.Deletion
import LexiconAudit.Proofs.Database.Dumps
import LexiconAudit.Proofs.Database.Failures
import LexiconAudit.Proofs.Database.Fields
import LexiconAudit.Proofs.Database.Frame
import LexiconAudit.Proofs.Database.Headwords
import LexiconAudit.Proofs.Database.Index
import LexiconAudit.Proofs.Database.Lexicon
import LexiconAudit.Proofs.Database.Matching
import LexiconAudit.Proofs.Database.NoteKeys
import LexiconAudit.Proofs.Database.NoteMarkers
import LexiconAudit.Proofs.Database.NoteOrder
import LexiconAudit.Proofs.Database.Order
import LexiconAudit.Proofs.Database.Pairing
import LexiconAudit.Proofs.Database.Retargeting
import LexiconAudit.Proofs.Database.Stored
import LexiconAudit.Proofs.Database.Stores
import LexiconAudit.Proofs.Database.Storing
import LexiconAudit.Proofs.Database.Target
import LexiconAudit.Proofs.Database.Threads
import LexiconAudit.Proofs.Database.Tolerance
import LexiconAudit.Proofs.Files.Listing
import LexiconAudit.Proofs.Files.Paths
import LexiconAudit.Proofs.Files.Places
import LexiconAudit.Proofs.Files.Writing
import LexiconAudit.Proofs.Fixture.Absences
import LexiconAudit.Proofs.Fixture.Acceptance
import LexiconAudit.Proofs.Fixture.Balance
import LexiconAudit.Proofs.Fixture.Citations
import LexiconAudit.Proofs.Fixture.Closing
import LexiconAudit.Proofs.Fixture.CutTexts
import LexiconAudit.Proofs.Fixture.Derivation
import LexiconAudit.Proofs.Fixture.Gaps
import LexiconAudit.Proofs.Fixture.Grammar
import LexiconAudit.Proofs.Fixture.Hearing
import LexiconAudit.Proofs.Fixture.Invariant
import LexiconAudit.Proofs.Fixture.Likeness
import LexiconAudit.Proofs.Fixture.Literals
import LexiconAudit.Proofs.Fixture.Marking
import LexiconAudit.Proofs.Fixture.Nesting
import LexiconAudit.Proofs.Fixture.Partition
import LexiconAudit.Proofs.Fixture.PartsOfSpeech
import LexiconAudit.Proofs.Fixture.Placement
import LexiconAudit.Proofs.Fixture.Records
import LexiconAudit.Proofs.Fixture.References
import LexiconAudit.Proofs.Fixture.Shape
import LexiconAudit.Proofs.Fixture.Spelling
import LexiconAudit.Proofs.Fixture.Steps
import LexiconAudit.Proofs.Fixture.Taking
import LexiconAudit.Proofs.Fixture.Truncation
import LexiconAudit.Proofs.Fixture.WellMade
import LexiconAudit.Proofs.Json.NoNul
import LexiconAudit.Proofs.Json.Pretty
import LexiconAudit.Proofs.Json.RoundTrip
import LexiconAudit.Proofs.Json.Streams
import LexiconAudit.Proofs.Keyed
import LexiconAudit.Proofs.Lexemes
import LexiconAudit.Proofs.Node.Changes
import LexiconAudit.Proofs.Node.Digest
import LexiconAudit.Proofs.Node.Elements
import LexiconAudit.Proofs.Reading
import LexiconAudit.Proofs.Repository.Alternatives
import LexiconAudit.Proofs.Repository.Covering
import LexiconAudit.Proofs.Repository.Exactness
import LexiconAudit.Proofs.Repository.Failures
import LexiconAudit.Proofs.Repository.Finding
import LexiconAudit.Proofs.Repository.Locating
import LexiconAudit.Proofs.Repository.Lookup
import LexiconAudit.Proofs.Repository.Reflexivity
import LexiconAudit.Proofs.Repository.SearchKey
import LexiconAudit.Proofs.Repository.Storable
import LexiconAudit.Proofs.Repository.Storing
import LexiconAudit.Proofs.Repository.Tolerance
import LexiconAudit.Proofs.Text.Case
import LexiconAudit.Proofs.Text.Scanning
import LexiconAudit.Proofs.Text.Search
import LexiconAudit.Proofs.Text.Utf8
import LexiconAudit.Proofs.Thinning
import LexiconAudit.Proofs.Xml.Content
import LexiconAudit.Proofs.Xml.Delivery
import LexiconAudit.Proofs.Xml.Elements
import LexiconAudit.Proofs.Xml.Loading
import LexiconAudit.Proofs.Xml.References
import LexiconAudit.Proofs.Xml.RoundTrip
import LexiconAudit.Proofs.Xml.Tags
import LexiconAudit.Proofs.Xml.Writable
import LexiconAudit.Reading
import LexiconAudit.Repository.Comparison
import LexiconAudit.Repository.Discrepancy
import LexiconAudit.Repository.Layout
import LexiconAudit.Repository.Verification
import LexiconAudit.Settings
import LexiconAudit.Sha256
import LexiconAudit.Text.Blank
import LexiconAudit.Text.Case
import LexiconAudit.Text.Digit
import LexiconAudit.Text.Letter
import LexiconAudit.Text.Normal
import LexiconAudit.Text.Position
import LexiconAudit.Text.Quoted
import LexiconAudit.Text.Ranges
import LexiconAudit.Text.Scanner
import LexiconAudit.Text.Search
import LexiconAudit.Text.Utf8
import LexiconAudit.Toml.DateTime
import LexiconAudit.Toml.Document
import LexiconAudit.Toml.Number
import LexiconAudit.Toml.Quoted
import LexiconAudit.Toml.Table
import LexiconAudit.Xml.Building
import LexiconAudit.Xml.Character
import LexiconAudit.Xml.Content
import LexiconAudit.Xml.Document
import LexiconAudit.Xml.Markup
import LexiconAudit.Xml.Prolog
