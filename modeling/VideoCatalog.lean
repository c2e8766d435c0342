import VideoCatalog.Catalog.Build
import VideoCatalog.Catalog.DataUrl
import VideoCatalog.Catalog.Format
import VideoCatalog.Catalog.Item
import VideoCatalog.Catalog.Listing
import VideoCatalog.CommandLine.Arguments
import VideoCatalog.CommandLine.Crash
import VideoCatalog.CommandLine.Request
import VideoCatalog.CommandLine.Run
import VideoCatalog.Discovery.Describe
import VideoCatalog.Discovery.Mime
import VideoCatalog.Discovery.Selection
import VideoCatalog.Discovery.Walk
import VideoCatalog.Discovery.Wildcard
import VideoCatalog.Enrichment.Decoding
import VideoCatalog.Enrichment.Extraction
import VideoCatalog.Enrichment.Gate
import VideoCatalog.Enrichment.GateUse
import VideoCatalog.Enrichment.Pass
import VideoCatalog.Enrichment.Program
import VideoCatalog.Enrichment.Race
import VideoCatalog.Enrichment.Thumbnail
import VideoCatalog.Failure
import VideoCatalog.Files.Path
import VideoCatalog.Files.Tree
import VideoCatalog.Handles.Registry
import VideoCatalog.Json.Quoted
import VideoCatalog.Json.Reader
import VideoCatalog.Json.Writer
import VideoCatalog.Log.Level
import VideoCatalog.Log.Record
import VideoCatalog.Log.Setup
import VideoCatalog.Main
import VideoCatalog.Monitoring.Progress
import VideoCatalog.Monitoring.Throttle
import VideoCatalog.Number.Binary64
import VideoCatalog.Number.Fixed
import VideoCatalog.Number.Numeral
import VideoCatalog.Number.Quantity
import VideoCatalog.Number.Rounding
import VideoCatalog.Number.Shortest
import VideoCatalog.Playback.Stream
import VideoCatalog.Proofs.Catalog.Building
import VideoCatalog.Proofs.Catalog.DataUrl
import VideoCatalog.Proofs.Catalog.Durations
import VideoCatalog.Proofs.Catalog.Firsts
import VideoCatalog.Proofs.Catalog.SizeForms
import VideoCatalog.Proofs.Catalog.Sizes
import VideoCatalog.Proofs.CommandLine.Editing
import VideoCatalog.Proofs.CommandLine.Parsing
import VideoCatalog.Proofs.Discovery.Fallback
import VideoCatalog.Proofs.Discovery.Namesakes
import VideoCatalog.Proofs.Discovery.Order
import VideoCatalog.Proofs.Discovery.Rules
import VideoCatalog.Proofs.Discovery.Selecting
import VideoCatalog.Proofs.Discovery.Walk
import VideoCatalog.Proofs.Discovery.Yields
import VideoCatalog.Proofs.Enrichment.Abandonment
import VideoCatalog.Proofs.Enrichment.Aftermath
import VideoCatalog.Proofs.Enrichment.Extraction
import VideoCatalog.Proofs.Enrichment.Forecast
import VideoCatalog.Proofs.Enrichment.Frames
import VideoCatalog.Proofs.Enrichment.GateLife
import VideoCatalog.Proofs.Enrichment.Jams
import VideoCatalog.Proofs.Enrichment.Leases
import VideoCatalog.Proofs.Enrichment.Moves
import VideoCatalog.Proofs.Enrichment.Pass
import VideoCatalog.Proofs.Enrichment.Probing
import VideoCatalog.Proofs.Enrichment.ProgramLife
import VideoCatalog.Proofs.Enrichment.Recording
import VideoCatalog.Proofs.Enrichment.Release
import VideoCatalog.Proofs.Enrichment.Schedules
import VideoCatalog.Proofs.Enrichment.Solo
import VideoCatalog.Proofs.Enrichment.Stranding
import VideoCatalog.Proofs.Enrichment.ThumbnailSize
import VideoCatalog.Proofs.Enrichment.Warnings
import VideoCatalog.Proofs.Enrichment.Workers
import VideoCatalog.Proofs.Files.Below
import VideoCatalog.Proofs.Files.Filling
import VideoCatalog.Proofs.Files.Growth
import VideoCatalog.Proofs.Files.Linkless
import VideoCatalog.Proofs.Files.Settled
import VideoCatalog.Proofs.Files.Steady
import VideoCatalog.Proofs.Files.Walk
import VideoCatalog.Proofs.Handles.Emptying
import VideoCatalog.Proofs.Handles.History
import VideoCatalog.Proofs.Handles.Ownership
import VideoCatalog.Proofs.Json.Keys
import VideoCatalog.Proofs.Json.RoundTrip
import VideoCatalog.Proofs.Lookup
import VideoCatalog.Proofs.Monitoring.Throttling
import VideoCatalog.Proofs.Number.Decimals
import VideoCatalog.Proofs.Number.Differences
import VideoCatalog.Proofs.Number.Nearest
import VideoCatalog.Proofs.Number.Numerals
import VideoCatalog.Proofs.Number.Order
import VideoCatalog.Proofs.Number.Rounding
import VideoCatalog.Proofs.Playback.Chunks
import VideoCatalog.Proofs.Query.Conjunction
import VideoCatalog.Proofs.Query.Literal
import VideoCatalog.Proofs.Query.Ordering
import VideoCatalog.Proofs.Query.Spelling
import VideoCatalog.Proofs.Query.Stable
import VideoCatalog.Proofs.Query.Tokens
import VideoCatalog.Proofs.Session.Calls
import VideoCatalog.Proofs.Session.Enumerations
import VideoCatalog.Proofs.Session.Handles
import VideoCatalog.Proofs.Session.Manifest
import VideoCatalog.Proofs.Session.Statistics
import VideoCatalog.Proofs.Session.Steps
import VideoCatalog.Proofs.Session.Tagging
import VideoCatalog.Proofs.Session.Thumbnails
import VideoCatalog.Proofs.Tags.Atomicity
import VideoCatalog.Proofs.Tags.Editing
import VideoCatalog.Proofs.Tags.Entries
import VideoCatalog.Proofs.Tags.Normal
import VideoCatalog.Proofs.Tags.Ranks
import VideoCatalog.Proofs.Tags.Refusal
import VideoCatalog.Proofs.Tags.Reload
import VideoCatalog.Proofs.Tags.Saving
import VideoCatalog.Proofs.Text.Pieces
import VideoCatalog.Proofs.Text.Words
import VideoCatalog.Query.Evaluate
import VideoCatalog.Query.Filter
import VideoCatalog.Query.Row
import VideoCatalog.Query.Sort
import VideoCatalog.Session.Basic
import VideoCatalog.Session.Library
import VideoCatalog.Settings.Configuration
import VideoCatalog.Settings.Load
import VideoCatalog.Tags.Edit
import VideoCatalog.Tags.Normal
import VideoCatalog.Tags.Store
import VideoCatalog.Text.Blank
import VideoCatalog.Text.CaseFold
import VideoCatalog.Text.DecimalDigit
import VideoCatalog.Text.LowerCase
import VideoCatalog.Text.Printable
import VideoCatalog.Text.Quoted
import VideoCatalog.Text.Ranges
import VideoCatalog.Text.Search
import VideoCatalog.Text.UpperCase
import VideoCatalog.Text.Utf8
import VideoCatalog.Value
import VideoCatalog.Yaml.Document
import VideoCatalog.Yaml.Kind
import VideoCatalog.Yaml.Lexer
import VideoCatalog.Yaml.Moment
import VideoCatalog.Yaml.Node
import VideoCatalog.Yaml.Scalars
import VideoCatalog.Yaml.Token
