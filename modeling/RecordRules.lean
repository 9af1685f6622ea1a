import RecordRules.Text.Blank
import RecordRules.Text.Word
import RecordRules.Text.Visible
import RecordRules.Text.Escaped
import RecordRules.Number.Binary64
import RecordRules.Number.Decimal
import RecordRules.Json.Quoted
import RecordRules.Json.Numeral
import RecordRules.Json.Lexeme
import RecordRules.Json.Value
import RecordRules.Table
import RecordRules.Error
import RecordRules.Failure
import RecordRules.Condition.Comparison
import RecordRules.Condition.Basic
import RecordRules.Token
import RecordRules.Tree.Basic
import RecordRules.Tree.Parser
import RecordRules.Tree.Check
import RecordRules.Tree.Evaluate
import RecordRules.Tree.Combine
import RecordRules.Draft.Basic
import RecordRules.Draft.Validate
import RecordRules.Draft.Json
import RecordRules.Record.Basic
import RecordRules.Record.Json
import RecordRules.Settings
import RecordRules.Cache
import RecordRules.Rule.Basic
import RecordRules.Rule.Json
import RecordRules.Session
import RecordRules.Script.Value
import RecordRules.Script.Reading
import RecordRules.Script.Call
import RecordRules.Proofs.Tree.Depth
import RecordRules.Proofs.Grammar.Derivation
import RecordRules.Proofs.Outcome
import RecordRules.Proofs.Grammar.Parsing
import RecordRules.Proofs.Text.Blanks
import RecordRules.Proofs.Token.Words
import RecordRules.Proofs.Condition.Spelling
import RecordRules.Proofs.Grammar.Rendering
import RecordRules.Proofs.Tree.Checking
import RecordRules.Proofs.Tree.RoundTrip
import RecordRules.Proofs.Tree.Limits
import RecordRules.Proofs.Cache
import RecordRules.Proofs.Session.Moves
import RecordRules.Proofs.Session.Remembered
import RecordRules.Proofs.Text.Collapse
import RecordRules.Proofs.Token.Spacing
import RecordRules.Proofs.Condition.Reading
import RecordRules.Proofs.Tree.Collapsed
import RecordRules.Proofs.Draft.Validation
import RecordRules.Proofs.Rule.Making
import RecordRules.Proofs.Rule.Text
import RecordRules.Proofs.Json.Lexeme
import RecordRules.Proofs.Json.Value
import RecordRules.Proofs.Draft.Json
import RecordRules.Proofs.Rule.Json
import RecordRules.Proofs.Session.Failures
import RecordRules.Proofs.Tree.Evaluation
import RecordRules.Proofs.Tree.Produced
import RecordRules.Proofs.Tree.Beginning
import RecordRules.Proofs.Script.Agreement
import RecordRules.Proofs.Kinds
import RecordRules.Proofs.Session.Capacity
import RecordRules.Proofs.Script.Validation
import RecordRules.Proofs.Script.Outline
import RecordRules.Proofs.Condition.Splitting
import RecordRules.Proofs.Draft.Node
import RecordRules.Proofs.Draft.Preorder
import RecordRules.Proofs.Condition.Unfinished
import RecordRules.Proofs.Tree.Leaves
import RecordRules.Proofs.Token.Layout
import RecordRules.Proofs.Token.Makeup
import RecordRules.Proofs.Token.Normalized
import RecordRules.Proofs.Tree.Unchecked
import RecordRules.Proofs.Condition.Spaced
import RecordRules.Proofs.Filtering
import RecordRules.Proofs.Token.Closed
import RecordRules.Proofs.Tree.Conjunction
import RecordRules.Proofs.Tree.Joined
import RecordRules.Proofs.Session.Combining
import RecordRules.Proofs.Number.Rounding
import RecordRules.Proofs.Tree.Negation
import RecordRules.Proofs.Number.Value
import RecordRules.Proofs.Number.Whole
import RecordRules.Proofs.Condition.Numeral
import RecordRules.Proofs.Number.Decimal
import RecordRules.Proofs.Record.Numeral
import RecordRules.Proofs.Table
import RecordRules.Proofs.Tree.Attributes
import RecordRules.Proofs.Rule.Document
import RecordRules.Proofs.Rule.Agreement
import RecordRules.Proofs.Record.Readers
import RecordRules.Proofs.Settings
import RecordRules.Proofs.Session.Usable
import RecordRules.Proofs.Grammar.Cursor
import RecordRules.Proofs.Tree.Visiting
