import MessageCatalog.Catalog.Basic
import MessageCatalog.Catalog.Fault
import MessageCatalog.Catalog.Json
import MessageCatalog.Catalog.LineRef
import MessageCatalog.Catalog.Live
import MessageCatalog.Catalog.Meaning
import MessageCatalog.Catalog.Normal
import MessageCatalog.Catalog.Noted
import MessageCatalog.Catalog.Reader
import MessageCatalog.Catalog.Writer
import MessageCatalog.Command.Grammar
import MessageCatalog.Command.Report
import MessageCatalog.Command.Request
import MessageCatalog.Command.Run
import MessageCatalog.Command.Verbosity
import MessageCatalog.Index
import MessageCatalog.Integrity.Check
import MessageCatalog.Integrity.Issue
import MessageCatalog.Integrity.Placeholder
import MessageCatalog.Integrity.Soundness
import MessageCatalog.Json.Document
import MessageCatalog.Json.Magnitude
import MessageCatalog.Json.Printer
import MessageCatalog.Json.Schema
import MessageCatalog.Json.Value
import MessageCatalog.Locale.Preference
import MessageCatalog.Locale.Tag
import MessageCatalog.Lookup.Layers
import MessageCatalog.Lookup.Scan
import MessageCatalog.Lookup.Table
import MessageCatalog.Main
import MessageCatalog.Markup.Attribute
import MessageCatalog.Markup.Fault
import MessageCatalog.Markup.Reference
import MessageCatalog.Markup.Scanner
import MessageCatalog.Markup.Tree
import MessageCatalog.Notice
import MessageCatalog.Number.Binary64
import MessageCatalog.Plural.Cardinal
import MessageCatalog.Plural.Category
import MessageCatalog.Plural.Description
import MessageCatalog.Plural.Language
import MessageCatalog.Plural.Rule
import MessageCatalog.Plural.RuleSet
import MessageCatalog.Progress.Counts
import MessageCatalog.Progress.Summary
import MessageCatalog.Storage.Catalogs
import MessageCatalog.Storage.Cause
import MessageCatalog.Storage.FileTree
import MessageCatalog.Storage.Path
import MessageCatalog.Text.Blank
import MessageCatalog.Text.Literal
import MessageCatalog.Text.Numeral
import MessageCatalog.Text.Terminal
import MessageCatalog.Text.Unprintable
import MessageCatalog.Text.Width
import MessageCatalog.Proofs.Markup.Coding
import MessageCatalog.Proofs.Markup.TagContent
import MessageCatalog.Proofs.Markup.Tokens
import MessageCatalog.Proofs.Catalog.Cursor
import MessageCatalog.Proofs.Catalog.StoredForm
import MessageCatalog.Proofs.Catalog.RoundTrip
import MessageCatalog.Proofs.Catalog.Parts
import MessageCatalog.Proofs.Catalog.TreeMeaning
import MessageCatalog.Proofs.Lookup.FirstMatch
import MessageCatalog.Proofs.Plural.Forms
import MessageCatalog.Proofs.Plural.Representative
import MessageCatalog.Proofs.Plural.Coverage
import MessageCatalog.Proofs.Integrity.Verdict
import MessageCatalog.Proofs.Lookup.Sound
import MessageCatalog.Proofs.Lookup.FullForms
import MessageCatalog.Proofs.Json.Printed
import MessageCatalog.Proofs.Catalog.Dump
import MessageCatalog.Proofs.Markup.Steps
import MessageCatalog.Proofs.Catalog.Relocation
import MessageCatalog.Proofs.Catalog.Nesting
import MessageCatalog.Proofs.Catalog.Concatenation
import MessageCatalog.Proofs.Catalog.Truncation
import MessageCatalog.Proofs.Catalog.EmptyElement
import MessageCatalog.Proofs.Markup.EmptyElement
import MessageCatalog.Proofs.Outcome
import MessageCatalog.Proofs.Catalog.Faults
import MessageCatalog.Proofs.Index
import MessageCatalog.Proofs.Catalog.LiveView
import MessageCatalog.Proofs.Integrity.Mismatch
import MessageCatalog.Proofs.Storage.Tree
import MessageCatalog.Proofs.Storage.Path
import MessageCatalog.Proofs.Storage.Access
import MessageCatalog.Proofs.Storage.Listing
import MessageCatalog.Proofs.Json.Sorted
import MessageCatalog.Proofs.Command.Saving
import MessageCatalog.Proofs.Command.Operands
import MessageCatalog.Proofs.Command.Validation
import MessageCatalog.Proofs.Lookup.Directory
import MessageCatalog.Proofs.Lookup.Layered
import MessageCatalog.Integrity.Template
import MessageCatalog.Proofs.Integrity.Placeholders
import MessageCatalog.Proofs.Integrity.Composition
import MessageCatalog.Proofs.Integrity.Duplicates
import MessageCatalog.Proofs.Lookup.Inventory
import MessageCatalog.Proofs.Locale.Preference
import MessageCatalog.Proofs.Progress.Totals
import MessageCatalog.Proofs.Storage.FileName
import MessageCatalog.Proofs.Locale.Spelling
import MessageCatalog.Proofs.Catalog.LineRef
import MessageCatalog.Proofs.Lookup.Unfinished
import MessageCatalog.Proofs.Integrity.ReportLines
import MessageCatalog.Proofs.Markup.Storing
import MessageCatalog.Proofs.Text.Lossy
