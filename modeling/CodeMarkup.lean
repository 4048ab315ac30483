import CodeMarkup.Main
import CodeMarkup.Page.RuleFilter
import CodeMarkup.Page.Sidebar
import CodeMarkup.Proofs.Pattern.Meaning
import CodeMarkup.Proofs.Pattern.Compiled
import CodeMarkup.Proofs.Pattern.Composed
import CodeMarkup.Proofs.Pattern.Goal
import CodeMarkup.Proofs.Pattern.Complete
import CodeMarkup.Proofs.Pattern.Empty
import CodeMarkup.Proofs.Pattern.FirstMatch
import CodeMarkup.Proofs.Grammar.Accepted
import CodeMarkup.Proofs.Scan.Lookahead
import CodeMarkup.Proofs.Scan.Run
import CodeMarkup.Proofs.Scan.Coverage
import CodeMarkup.Proofs.Scan.Reference
import CodeMarkup.Proofs.Scan.Preference
import CodeMarkup.Proofs.Scan.Successive
import CodeMarkup.Proofs.Language.Recovery
import CodeMarkup.Proofs.Page.Registry
import CodeMarkup.Proofs.Page.Lifecycle
import CodeMarkup.Proofs.Markup.Escape
import CodeMarkup.Proofs.Markup.Mark
import CodeMarkup.Proofs.Markup.Piece
import CodeMarkup.Proofs.Markup.Safe
import CodeMarkup.Proofs.Markup.Lossless
import CodeMarkup.Proofs.Language.ReservedWord
import CodeMarkup.Proofs.Page.SearchTerm
import CodeMarkup.Proofs.Page.Succession
import CodeMarkup.Proofs.Language.Written
import CodeMarkup.Proofs.Page.ClassAttribute
import CodeMarkup.Proofs.Program.Run
import CodeMarkup.Proofs.Page.ActiveLink
import CodeMarkup.Proofs.Pattern.Quoted
import CodeMarkup.Proofs.Language.StringLiteral
import CodeMarkup.Proofs.Scan.TokenAt
import CodeMarkup.Proofs.Pattern.Shape
import CodeMarkup.Proofs.Toml.Quoted
import CodeMarkup.Proofs.Toml.Reader
import CodeMarkup.Proofs.Program.SettingsFile
import CodeMarkup.Proofs.Language.Comment
import CodeMarkup.Proofs.Language.Ties
import CodeMarkup.Proofs.Language.WordEdge
import CodeMarkup.Proofs.Markup.Reading
import CodeMarkup.Proofs.Pattern.Alike
import CodeMarkup.Proofs.Language.Line
import CodeMarkup.Proofs.Page.Batch
import CodeMarkup.Proofs.Language.Consuming
import CodeMarkup.Proofs.Program.Dispatch
import CodeMarkup.Proofs.Page.SearchField
import CodeMarkup.Proofs.Text.FinalSigma
import CodeMarkup.Proofs.Page.LiteralText
import CodeMarkup.Proofs.Page.Clearing
import CodeMarkup.Proofs.Page.ChangeReport
import CodeMarkup.Proofs.Page.EnteringSection
import CodeMarkup.Proofs.Program.Argument
import CodeMarkup.Proofs.Program.NamedInput
import CodeMarkup.Proofs.Text.Words
import CodeMarkup.Proofs.Markup.EscapedText
import CodeMarkup.Proofs.Page.ClassList
import CodeMarkup.Proofs.Markup.EscapePasses
import CodeMarkup.Proofs.Scan.NextToken
