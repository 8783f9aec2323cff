import SqlForms.Calendar.Date
import SqlForms.Calendar.Interval
import SqlForms.Calendar.Time
import SqlForms.Clause
import SqlForms.CommandLine
import SqlForms.Compiler
import SqlForms.Dialect
import SqlForms.Error
import SqlForms.Expr.Basic
import SqlForms.Expr.Exchange
import SqlForms.Form.Change
import SqlForms.Form.From
import SqlForms.Form.Function
import SqlForms.Form.Predicate
import SqlForms.Form.Query
import SqlForms.Form.Schema
import SqlForms.Form.Table
import SqlForms.Fragments
import SqlForms.Json.Basic
import SqlForms.Json.Reader
import SqlForms.Json.Token
import SqlForms.Json.Writer
import SqlForms.Layout
import SqlForms.Main
import SqlForms.Name
import SqlForms.Number.Binary64
import SqlForms.Number.Shortest
import SqlForms.Number.Text
import SqlForms.Operator
import SqlForms.Registry.Basic
import SqlForms.Registry.Builtin
import SqlForms.Session
import SqlForms.Template
import SqlForms.Text.Classes
import SqlForms.Text.Cased
import SqlForms.Text.Lowercase
import SqlForms.Text.Printable
import SqlForms.TypeName
import SqlForms.Value.Basic
import SqlForms.Value.Convert
import SqlForms.Value.Literal
import SqlForms.Value.Read
import SqlForms.Proofs.Modes
import SqlForms.Proofs.Substitution.Tree
import SqlForms.Proofs.Substitution.Forms
import SqlForms.Proofs.Filling
import SqlForms.Proofs.Parameters
import SqlForms.Proofs.Lexical.Scanner
import SqlForms.Proofs.Lexical.Delimiter
import SqlForms.Proofs.Lexical.Reading
import SqlForms.Proofs.Lexical.Spelling
import SqlForms.Proofs.Lexical.Nesting
import SqlForms.Proofs.Lexical.Forms
import SqlForms.Proofs.Lexical.Statement
import SqlForms.Proofs.Lexical.Injection
import SqlForms.Proofs.Lexical.Configuration
import SqlForms.Proofs.Lexical.Literals
import SqlForms.Proofs.Partition
import SqlForms.Proofs.Scanning
import SqlForms.Proofs.Placeholders.Tree
import SqlForms.Proofs.Placeholders.Forms
import SqlForms.Proofs.Placeholders.Slots
import SqlForms.Proofs.Placeholders.Unbound
import SqlForms.Proofs.Readability.Words
import SqlForms.Proofs.Readability.Phrases
import SqlForms.Proofs.Readability.Trees
import SqlForms.Proofs.Registration.Locality
import SqlForms.Proofs.Registration.Strictness
import SqlForms.Proofs.Canonical
import SqlForms.Proofs.Layouts
import SqlForms.Proofs.Appending
import SqlForms.Proofs.Types
import SqlForms.Proofs.From.Grammar
import SqlForms.Proofs.From.Markers
import SqlForms.Proofs.From.Statements
import SqlForms.Proofs.Exchange.Digits
import SqlForms.Proofs.Exchange.Calendar
import SqlForms.Proofs.Exchange.Forms
import SqlForms.Proofs.Exchange.Rounding
import SqlForms.Proofs.Exchange.Shortest
import SqlForms.Proofs.Exchange.Numbers
import SqlForms.Proofs.Exchange.Tokens
import SqlForms.Proofs.Exchange.Reading
import SqlForms.Proofs.Exchange.Lossless
import SqlForms.Proofs.Values.Decimals
import SqlForms.Proofs.Values.Faults
import SqlForms.Proofs.Values.Arguments
import SqlForms.Proofs.Calendar.Intervals
import SqlForms.Proofs.Calendar.Instants
import SqlForms.Proofs.Names.Pieces
import SqlForms.Proofs.Names.Stability
import SqlForms.Proofs.Assignments
import SqlForms.Proofs.Columns
