import QueryFormula.Command.Run
import QueryFormula.Expression.Predicates
import QueryFormula.Main
import QueryFormula.Proofs.Text.Classes
import QueryFormula.Proofs.Number.Value
import QueryFormula.Proofs.Number.PlainText
import QueryFormula.Proofs.Number.Nearest
import QueryFormula.Proofs.Number.Shortest
import QueryFormula.Proofs.Number.Exact
import QueryFormula.Proofs.Token.Fragment
import QueryFormula.Proofs.Token.Lexeme
import QueryFormula.Proofs.Token.NumberText
import QueryFormula.Proofs.Token.Place
import QueryFormula.Proofs.Token.Scan
import QueryFormula.Proofs.Token.Account
import QueryFormula.Proofs.Token.Separation
import QueryFormula.Proofs.Token.Longest
import QueryFormula.Proofs.Token.Slice
import QueryFormula.Proofs.Quote.Backslashes
import QueryFormula.Proofs.Quote.Literal
import QueryFormula.Proofs.Quote.Bracket
import QueryFormula.Proofs.Quote.Name
import QueryFormula.Proofs.Quote.RoundTrip
import QueryFormula.Proofs.Expression.Application
import QueryFormula.Proofs.Expression.Extension
import QueryFormula.Proofs.Expression.Rebuild
import QueryFormula.Proofs.Expression.Options
import QueryFormula.Proofs.Formula.Layout
import QueryFormula.Proofs.Formula.Meaning
import QueryFormula.Proofs.Formula.Junction
import QueryFormula.Proofs.Formula.Signs
import QueryFormula.Proofs.Formula.Tokens
import QueryFormula.Proofs.Formula.Conditional
import QueryFormula.Proofs.Formula.Application
import QueryFormula.Proofs.Formula.BareName
import QueryFormula.Proofs.Formula.Defect
import QueryFormula.Proofs.Formula.Options
import QueryFormula.Proofs.Formula.Numeral
import QueryFormula.Proofs.Query.Reference
import QueryFormula.Proofs.Query.Separator
import QueryFormula.Proofs.Json.Text
import QueryFormula.Proofs.Json.Numeral
import QueryFormula.Proofs.Json.Reading
import QueryFormula.Proofs.Json.Record
import QueryFormula.Proofs.Json.Outcome
import QueryFormula.Proofs.Json.Value
import QueryFormula.Proofs.Dialect.Document
import QueryFormula.Proofs.Query.Document
import QueryFormula.Proofs.Expression.Kinds
import QueryFormula.Proofs.Quote.Escape
import QueryFormula.Proofs.Token.Closing
import QueryFormula.Proofs.Token.Recovery
