import TokenGrammar.Arithmetic.Session
import TokenGrammar.Grammar.Relabelling
import TokenGrammar.Query.Grammar
import TokenGrammar.Text.Snippet
import TokenGrammar.Parser.Literal
import TokenGrammar.Parser.Pattern
import TokenGrammar.Parser.Structure
import TokenGrammar.Proofs.Arithmetic.Completeness
import TokenGrammar.Proofs.Arithmetic.Evaluation
import TokenGrammar.Proofs.Arithmetic.Termination
import TokenGrammar.Proofs.Termination
import TokenGrammar.Proofs.Languages
import TokenGrammar.Proofs.Query.Completeness
import TokenGrammar.Proofs.Moves
import TokenGrammar.Proofs.Nesting
import TokenGrammar.Proofs.Regex.Onward
import TokenGrammar.Proofs.Relocation
import TokenGrammar.Proofs.Depth
import TokenGrammar.Proofs.Translation
import TokenGrammar.Proofs.Checked
import TokenGrammar.Proofs.Faults
import TokenGrammar.Proofs.Arithmetic.Reassociation
import TokenGrammar.Proofs.Arithmetic.Chains
import TokenGrammar.Proofs.Arithmetic.Causes
import TokenGrammar.Proofs.Arithmetic.Sessions
import TokenGrammar.Proofs.InvalidOffsets
import TokenGrammar.Proofs.Query.Retained
import TokenGrammar.Proofs.Alternation
import TokenGrammar.Proofs.LongestPrefix
import TokenGrammar.Proofs.Grouping
import TokenGrammar.Proofs.Bracketing
import TokenGrammar.Proofs.Truncation
import TokenGrammar.Proofs.Literals
import TokenGrammar.Proofs.Quotation
import TokenGrammar.Proofs.Renderings
import TokenGrammar.Proofs.Snippets
import TokenGrammar.Proofs.Json.Tokens
