import TradeChat.Demo
import TradeChat.Main
import TradeChat.Proofs.Grouping.Boundaries
import TradeChat.Proofs.Grouping.Members
import TradeChat.Proofs.Tree
import TradeChat.Proofs.Forest.Places
import TradeChat.Proofs.Forest.Nodes
import TradeChat.Proofs.Sentence.Reading
import TradeChat.Proofs.Grouping.Neighbours
import TradeChat.Proofs.Sentence.Assembly
import TradeChat.Proofs.Linkage.Growth
import TradeChat.Proofs.Linkage.Placement
import TradeChat.Proofs.Forest.Numbering
import TradeChat.Proofs.Notation.WellFormed
import TradeChat.Proofs.Notation.Scanning
import TradeChat.Proofs.Linkage.Parsed
import TradeChat.Proofs.Notation.Written
import TradeChat.Proofs.Notation.Inverse
import TradeChat.Proofs.Linkage.Joined
import TradeChat.Proofs.Notation.Joined
import TradeChat.Proofs.Notation.Located
import TradeChat.Proofs.Generation.Joined
import TradeChat.Proofs.Linkage.Worklist
import TradeChat.Proofs.Linkage.Built
import TradeChat.Proofs.Text.OneLine
import TradeChat.Proofs.Entity.OneLine
import TradeChat.Proofs.Sentence.OneLine
import TradeChat.Proofs.Notation.OneLine
import TradeChat.Proofs.Stream.Lines
import TradeChat.Proofs.Generation.OneLine
import TradeChat.Proofs.Stream.Writing
import TradeChat.Proofs.Stream.Running
import TradeChat.Proofs.Stream.Counting
import TradeChat.Proofs.Stream.Truncation
import TradeChat.Proofs.Linkage.Siblings
import TradeChat.Proofs.Sentence.Filling
import TradeChat.Proofs.Entity.Abridged
import TradeChat.Proofs.Sentence.Abridged
import TradeChat.Proofs.Linkage.Renamed
import TradeChat.Proofs.Linkage.Pruned
import TradeChat.Proofs.Generation.Unread
import TradeChat.Proofs.Text.Casing
import TradeChat.Proofs.Text.Leaves
import TradeChat.Proofs.Notation.Proper
import TradeChat.Proofs.Grouping.Selected
import TradeChat.Proofs.Sentence.Sides
import TradeChat.Proofs.Sentence.Allowed
import TradeChat.Proofs.Lint
import TradeChat.Proofs.Sentence.Shown
import TradeChat.Proofs.Settings.Layers
import TradeChat.Proofs.Sentence.Spacing
import TradeChat.Proofs.Generation.Nameless
import TradeChat.Proofs.Generation.Garbled
import TradeChat.Proofs.Entity.Attributes
import TradeChat.Proofs.Text.Readback
import TradeChat.Proofs.Forest.Searching
import TradeChat.Proofs.Forest.Dumping
import TradeChat.Proofs.Generation.Dumping
import TradeChat.Proofs.Sentence.Headcount
import TradeChat.Proofs.Decimal.Nearest
import TradeChat.Proofs.Decimal.Thousandths
import TradeChat.Proofs.Decimal.Thousands
import TradeChat.Proofs.Entity.Prices
import TradeChat.Proofs.Grouping.Appending
