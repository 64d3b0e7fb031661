import DocumentSearch.Text.WhiteSpace
import DocumentSearch.Text.Alphanumeric
import DocumentSearch.Text.LowerCase
import DocumentSearch.Text.CaseFold
import DocumentSearch.Text.Occurrence
import DocumentSearch.Text.EditDistance
import DocumentSearch.Text.Wildcard
import DocumentSearch.Query.Parser
import DocumentSearch.Decimal.Notation
import DocumentSearch.Decimal.Float
import DocumentSearch.Metadata.FrontMatter
import DocumentSearch.Metadata.ReadingTime
import DocumentSearch.Document.Basic
import DocumentSearch.Data.Json
import DocumentSearch.Search.Evaluation
import DocumentSearch.Search.Grouping
import DocumentSearch.Search.Index
import DocumentSearch.History
import DocumentSearch.Source.Content
import DocumentSearch.Source.ConfigFile
import DocumentSearch.Proofs.Query.Sentence
import DocumentSearch.Proofs.Query.NormalForm
import DocumentSearch.Proofs.Query.ErrorPlace
import DocumentSearch.Proofs.Query.Concatenation
import DocumentSearch.Proofs.Query.OptionalAnd
import DocumentSearch.Proofs.Query.CallDepth
import DocumentSearch.Proofs.Query.Quotes
import DocumentSearch.Proofs.Search.PlainSearch
import DocumentSearch.Proofs.Text.EditDistance
import DocumentSearch.Proofs.Search.Patterns
import DocumentSearch.Proofs.Search.Word
import DocumentSearch.Proofs.Search.Rendering
import DocumentSearch.Proofs.Search.Evidence
import DocumentSearch.Proofs.Search.HighlightedField
import DocumentSearch.Proofs.Search.MatchScore
import DocumentSearch.Proofs.Document.FrontMatter
import DocumentSearch.Proofs.Source.Content
import DocumentSearch.Proofs.History
import DocumentSearch.Proofs.Search.Fuzzy
import DocumentSearch.Proofs.Search.Scope
import DocumentSearch.Proofs.Search.Extension
import DocumentSearch.Proofs.Search.Suggestions
import DocumentSearch.Proofs.Search.Grouping
import DocumentSearch.Proofs.Search.Scaling
import DocumentSearch.Proofs.Text.Placement
import DocumentSearch.Proofs.Decimal.Notation
