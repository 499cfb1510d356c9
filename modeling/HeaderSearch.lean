import HeaderSearch.Text.Lines
import HeaderSearch.Text.Blank
import HeaderSearch.Text.Case
import HeaderSearch.Table
import HeaderSearch.SortedPairs
import HeaderSearch.Path
import HeaderSearch.Numeral.Decimal
import HeaderSearch.Digest
import HeaderSearch.Json.Parser
import HeaderSearch.Json.Printer
import HeaderSearch.Json.Record
import HeaderSearch.Characteristic
import HeaderSearch.Include.Directive
import HeaderSearch.FileStore.View
import HeaderSearch.FileStore.Memo
import HeaderSearch.FileTree
import HeaderSearch.HeaderMap.Set
import HeaderSearch.HeaderMap.Message
import HeaderSearch.LookupCache
import HeaderSearch.SearchStats
import HeaderSearch.Config.Document
import HeaderSearch.SearchList.Build
import HeaderSearch.SearchList.Fingerprint
import HeaderSearch.SearchList.Lookup
import HeaderSearch.Report.Render
import HeaderSearch.SearchList.Includer
import HeaderSearch.Report.Lookups
import HeaderSearch.Report.Listing
import HeaderSearch.CommandLine.Invocation
import HeaderSearch.CommandLine.Run
import HeaderSearch.Main
import HeaderSearch.Proofs.Reading
import HeaderSearch.Proofs.PlainAnswer
import HeaderSearch.Proofs.Probing
import HeaderSearch.Proofs.Lookups
import HeaderSearch.Proofs.Caching
import HeaderSearch.Proofs.Enumerations
import HeaderSearch.Proofs.Building
import HeaderSearch.Proofs.Merging
import HeaderSearch.Proofs.CanonicalStore
import HeaderSearch.Proofs.Reports
import HeaderSearch.Proofs.History
import HeaderSearch.Proofs.Offences
import HeaderSearch.Proofs.NewQuestions
import HeaderSearch.Proofs.Accounting
import HeaderSearch.Proofs.FaithfulMemo
import HeaderSearch.Proofs.Documents
import HeaderSearch.Proofs.Configurations
import HeaderSearch.Proofs.ReportTexts
import HeaderSearch.Proofs.Arguments
import HeaderSearch.Proofs.Transcripts
import HeaderSearch.Proofs.Refusals
import HeaderSearch.Proofs.LoadedMaps
import HeaderSearch.Proofs.DriverFlags
import HeaderSearch.Proofs.RepeatedKeys
import HeaderSearch.Proofs.TruthfulStore
import HeaderSearch.Proofs.FoundPlaces
import HeaderSearch.Proofs.VouchedLookups
import HeaderSearch.Proofs.WrittenPaths
import HeaderSearch.Proofs.ReportedPaths
import HeaderSearch.Proofs.AcceptedKeys
import HeaderSearch.Proofs.DirectiveLines
import HeaderSearch.Proofs.IndexMaps
import HeaderSearch.Proofs.SpelledDirectives
import HeaderSearch.Proofs.MergeGrouping
import HeaderSearch.Proofs.MapForms
import HeaderSearch.Proofs.ReorderedMembers
import HeaderSearch.Proofs.Listings
import HeaderSearch.Proofs.SearchedEntries
import HeaderSearch.Proofs.FingerprintRows
import HeaderSearch.Proofs.Fingerprints
import HeaderSearch.Proofs.ForeignHandles
import HeaderSearch.Proofs.GivenIncluders
import HeaderSearch.Proofs.IssuedFiles
import HeaderSearch.Proofs.IdentifyingPaths
import HeaderSearch.Proofs.CacheContents
import HeaderSearch.Proofs.Offsets
import HeaderSearch.Proofs.GuardedLookups
