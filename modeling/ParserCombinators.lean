import ParserCombinators.Handle
import ParserCombinators.Text.Basic
import ParserCombinators.Proofs.Suffix
import ParserCombinators.Proofs.Shapes.Soundness
import ParserCombinators.Proofs.Termination
import ParserCombinators.Proofs.Handles.Unfolding
import ParserCombinators.Proofs.Conservation
import ParserCombinators.Proofs.Bracketing
import ParserCombinators.Proofs.QuotedString
import ParserCombinators.Proofs.Respelling
import ParserCombinators.Proofs.Reporting
import ParserCombinators.Proofs.Separated
import ParserCombinators.Proofs.General
import ParserCombinators.Proofs.Names.Parsing
import ParserCombinators.Proofs.Counted
import ParserCombinators.Proofs.Numeral
import ParserCombinators.Proofs.QuotedFault
import ParserCombinators.Proofs.NestedList
import ParserCombinators.Proofs.Comment
import ParserCombinators.Proofs.MalformedEscape
import ParserCombinators.Proofs.Snippet
import ParserCombinators.Proofs.Skipping
import ParserCombinators.Proofs.IntegerList
import ParserCombinators.Proofs.Parentheses
import ParserCombinators.Proofs.LoopRecursion
import ParserCombinators.Proofs.EmptyRepetition
import ParserCombinators.Proofs.LeftFactoring
import ParserCombinators.Proofs.Sequencing
import ParserCombinators.Proofs.Handles.LifeCycle
import ParserCombinators.Proofs.BoundedRepetition
