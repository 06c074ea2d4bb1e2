import ComponentCatalog.Catalog.Build
import ComponentCatalog.Catalog.Encoding
import ComponentCatalog.Catalog.Index
import ComponentCatalog.Catalog.Log
import ComponentCatalog.Catalog.Record
import ComponentCatalog.Catalog.Scan
import ComponentCatalog.Catalog.Walk
import ComponentCatalog.CommandLine.Command
import ComponentCatalog.CommandLine.Help
import ComponentCatalog.CommandLine.Problem
import ComponentCatalog.CommandLine.Reading
import ComponentCatalog.CommandLine.Report
import ComponentCatalog.CommandLine.Request
import ComponentCatalog.CommandLine.Run
import ComponentCatalog.CommandLine.Token
import ComponentCatalog.Fault
import ComponentCatalog.Files.Directory
import ComponentCatalog.Files.Disk
import ComponentCatalog.Files.FileSystem
import ComponentCatalog.Files.Memory
import ComponentCatalog.Json.Basic
import ComponentCatalog.Json.Printer
import ComponentCatalog.Json.Reading
import ComponentCatalog.Main
import ComponentCatalog.Markdown.CodeSample
import ComponentCatalog.Markdown.Section
import ComponentCatalog.Markdown.Summary
import ComponentCatalog.Markdown.Table
import ComponentCatalog.Number.Double
import ComponentCatalog.Number.Numeral
import ComponentCatalog.Number.Shortest
import ComponentCatalog.OrderedMap
import ComponentCatalog.Path
import ComponentCatalog.Query.Component
import ComponentCatalog.Query.Excerpt
import ComponentCatalog.Query.Listing
import ComponentCatalog.Query.Merge
import ComponentCatalog.Query.Plugin
import ComponentCatalog.Query.Practices
import ComponentCatalog.Query.Question
import ComponentCatalog.Query.Tool
import ComponentCatalog.Query.Usage
import ComponentCatalog.Query.Utility
import ComponentCatalog.Script.Brackets
import ComponentCatalog.Script.Component
import ComponentCatalog.Script.Constants
import ComponentCatalog.Script.Declaration
import ComponentCatalog.Script.Functions
import ComponentCatalog.Script.Modules
import ComponentCatalog.Script.Properties
import ComponentCatalog.Session
import ComponentCatalog.Settings.Error
import ComponentCatalog.Settings.Ini
import ComponentCatalog.Settings.Reading
import ComponentCatalog.Settings.Settings
import ComponentCatalog.Similarity.Distance
import ComponentCatalog.Similarity.Ranking
import ComponentCatalog.Similarity.Score
import ComponentCatalog.Text.Basic
import ComponentCatalog.Text.Blank
import ComponentCatalog.Text.CaseTable
import ComponentCatalog.Text.CharRange
import ComponentCatalog.Text.Digit
import ComponentCatalog.Text.LetterCase
import ComponentCatalog.Text.Lines
import ComponentCatalog.Text.Quoted
import ComponentCatalog.Text.Reader
import ComponentCatalog.Text.Utf8
import ComponentCatalog.Text.Visible
import ComponentCatalog.Text.WordChar
import ComponentCatalog.Proofs.Edit
import ComponentCatalog.Proofs.Work
import ComponentCatalog.Proofs.Determined
import ComponentCatalog.Proofs.Outcome
import ComponentCatalog.Proofs.ComponentScan
import ComponentCatalog.Proofs.FailureContract
import ComponentCatalog.Proofs.ModuleScan
import ComponentCatalog.Proofs.PluginScan
import ComponentCatalog.Proofs.Agreement
import ComponentCatalog.Proofs.BuildEdits
import ComponentCatalog.Proofs.ComponentIndex
import ComponentCatalog.Proofs.Isolation
import ComponentCatalog.Proofs.Snapshot
import ComponentCatalog.Proofs.Pieces
import ComponentCatalog.Proofs.Listing
import ComponentCatalog.Proofs.Reordering
import ComponentCatalog.Proofs.Attachment
import ComponentCatalog.Proofs.Ranking
import ComponentCatalog.Proofs.ComponentLookup
import ComponentCatalog.Proofs.Trimming
import ComponentCatalog.Proofs.SmallLetters
import ComponentCatalog.Proofs.MarkdownLines
import ComponentCatalog.Proofs.SectionText
import ComponentCatalog.Proofs.Subsections
import ComponentCatalog.Proofs.Utf8
import ComponentCatalog.Proofs.IniLines
import ComponentCatalog.Proofs.IniText
import ComponentCatalog.Proofs.IniEntries
import ComponentCatalog.Proofs.IniSteps
import ComponentCatalog.Proofs.IniSound
import ComponentCatalog.Proofs.IniStraying
import ComponentCatalog.Proofs.IniChanges
import ComponentCatalog.Proofs.SettingValues
import ComponentCatalog.Proofs.Results
import ComponentCatalog.Proofs.DiskPlaces
import ComponentCatalog.Proofs.DiskFiles
import ComponentCatalog.Proofs.StoredSettings
import ComponentCatalog.Proofs.CommandWords
import ComponentCatalog.Proofs.SettingWords
import ComponentCatalog.Proofs.Runs
import ComponentCatalog.Proofs.Persistence
import ComponentCatalog.Proofs.ConfinedChanges
import ComponentCatalog.Proofs.Tables
import ComponentCatalog.Proofs.FencedBlocks
import ComponentCatalog.Proofs.Readers
import ComponentCatalog.Proofs.Nesting
import ComponentCatalog.Proofs.PropertyEntries
import ComponentCatalog.Proofs.PropertyObject
import ComponentCatalog.Proofs.PropertyComments
import ComponentCatalog.Proofs.Provenance
import ComponentCatalog.Proofs.Documented
import ComponentCatalog.Proofs.Manifests
import ComponentCatalog.Proofs.ProjectReadme
import ComponentCatalog.Proofs.PathNames
import ComponentCatalog.Proofs.FileKeys
import ComponentCatalog.Proofs.Distance
import ComponentCatalog.Proofs.ToolCalls
import ComponentCatalog.Proofs.Lookups
import ComponentCatalog.Proofs.StableRanking
import ComponentCatalog.Proofs.WholeWords
import ComponentCatalog.Proofs.TableRows
import ComponentCatalog.Proofs.UtilityLookup
import ComponentCatalog.Proofs.CanonicalListings
import ComponentCatalog.Proofs.Merging
import ComponentCatalog.Proofs.Practices
import ComponentCatalog.Proofs.ProjectTree
import ComponentCatalog.Proofs.SectionLines
import ComponentCatalog.Proofs.Brackets
import ComponentCatalog.Proofs.CodeSamples
import ComponentCatalog.Proofs.ConstantValues
import ComponentCatalog.Proofs.SimilarityMeasure
import ComponentCatalog.Proofs.Lexemes
import ComponentCatalog.Proofs.ClosingBrackets
import ComponentCatalog.Proofs.FiniteWalks
