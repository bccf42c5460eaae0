import FlatQuery.Files.Tree
import FlatQuery.Main
import FlatQuery.Proofs.Grouping
import FlatQuery.Proofs.Compile
import FlatQuery.Proofs.Meaning
import FlatQuery.Proofs.Lookup
import FlatQuery.Proofs.NestedNodes
import FlatQuery.Proofs.Channels
import FlatQuery.Proofs.Documents
import FlatQuery.Proofs.JsonPath
import FlatQuery.Proofs.Presence
import FlatQuery.Proofs.Flattening
import FlatQuery.Proofs.InnerKeys
import FlatQuery.Proofs.Retrieval
import FlatQuery.Proofs.Exchange
import FlatQuery.Proofs.SortKeys
import FlatQuery.Proofs.Acceptance
import FlatQuery.Proofs.ParamOrder
import FlatQuery.Proofs.FieldOrder
import FlatQuery.Proofs.WellFormed
import FlatQuery.Proofs.SortFilter
import FlatQuery.Proofs.Scopes
import FlatQuery.Proofs.Isolation
import FlatQuery.Proofs.Sessions
import FlatQuery.Proofs.ReloadOrder
import FlatQuery.Proofs.Predicates
import FlatQuery.Proofs.WireForm
import FlatQuery.Proofs.Rejections
import FlatQuery.Proofs.Shapes
import FlatQuery.Proofs.KeyOrder
import FlatQuery.Proofs.DottedPaths
import FlatQuery.Proofs.JsonParts
import FlatQuery.Proofs.Placing
import FlatQuery.Proofs.Hierarchy
import FlatQuery.Proofs.Recovery
import FlatQuery.Proofs.Replies
import FlatQuery.Proofs.Merging
import FlatQuery.Proofs.LongestPath
import FlatQuery.Proofs.KeptKeys
import FlatQuery.Proofs.Sections
import FlatQuery.Proofs.Classification
import FlatQuery.Proofs.Pages
import FlatQuery.Proofs.SortGrammar
import FlatQuery.Proofs.Pairs
import FlatQuery.Proofs.RangeSyntax
import FlatQuery.Proofs.RepeatedKeys
import FlatQuery.Proofs.IntegerLists
import FlatQuery.Proofs.Negation
import FlatQuery.Proofs.Suffixes
import FlatQuery.Proofs.PathLists
import FlatQuery.Proofs.Insertion
import FlatQuery.Proofs.CatalogEntries
