import BoundedText.BreakTables
import BoundedText.Builder
import BoundedText.Bytes
import BoundedText.CaseTables
import BoundedText.Casing
import BoundedText.Characters
import BoundedText.Chopping
import BoundedText.ClusterRules
import BoundedText.Clusters
import BoundedText.CodeRanges
import BoundedText.Collation
import BoundedText.Context
import BoundedText.ControlSpans
import BoundedText.Cursor
import BoundedText.Diagnostics
import BoundedText.Double
import BoundedText.Folding
import BoundedText.Format
import BoundedText.Granularity
import BoundedText.Integers
import BoundedText.Latin1
import BoundedText.LetterTables
import BoundedText.Like
import BoundedText.Literal
import BoundedText.Locale
import BoundedText.Margin
import BoundedText.MarginScan
import BoundedText.NameList
import BoundedText.Narrowing
import BoundedText.Numeral
import BoundedText.Padding
import BoundedText.Placement
import BoundedText.Replacement
import BoundedText.Replacing
import BoundedText.Rounding
import BoundedText.Search
import BoundedText.Shortest
import BoundedText.Sizing
import BoundedText.Telnet
import BoundedText.Text
import BoundedText.Tokens
import BoundedText.Units
import BoundedText.Utf16
import BoundedText.Utf8
import BoundedText.Walk
import BoundedText.WordLists
import BoundedText.Proofs.Sequences
import BoundedText.Proofs.Walking
import BoundedText.Proofs.Tiling
import BoundedText.Proofs.Strings
import BoundedText.Proofs.Appending
import BoundedText.Proofs.Truncation
import BoundedText.Proofs.Accumulation
import BoundedText.Proofs.Splitting
import BoundedText.Proofs.Narrowing
import BoundedText.Proofs.Wildcards
import BoundedText.Proofs.Clustering
import BoundedText.Proofs.AsciiSeparators
import BoundedText.Proofs.ProperText
import BoundedText.Proofs.QuotedNames
import BoundedText.Proofs.Numerals
import BoundedText.Proofs.Interchange
import BoundedText.Proofs.Recoding
import BoundedText.Proofs.NarrowedCodepoints
import BoundedText.Proofs.SpanAutomaton
import BoundedText.Proofs.WordRemoval
import BoundedText.Proofs.WholeAppends
import BoundedText.Proofs.SteppingBack
import BoundedText.Proofs.ShapeGrammar
import BoundedText.Proofs.ByteOrder
import BoundedText.Proofs.OverlongPairs
import BoundedText.Proofs.TextForms
import BoundedText.Proofs.FoldedOrder
import BoundedText.Proofs.VisibleCodepoints
import BoundedText.Proofs.ClusterTiling
import BoundedText.Proofs.Occurrences
import BoundedText.Proofs.LeftmostReplacement
import BoundedText.Proofs.EncodedOccurrences
import BoundedText.Proofs.PaddedText
import BoundedText.Proofs.DecodedText
import BoundedText.Proofs.CaseMappings
import BoundedText.Proofs.MappedPrefixes
import BoundedText.Proofs.MappingInPlace
import BoundedText.Proofs.EscapeParity
import BoundedText.Proofs.WordStarts
import BoundedText.Proofs.NameTiling
import BoundedText.Proofs.Sessions
import BoundedText.Proofs.ClusterFaults
