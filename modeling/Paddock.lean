import Paddock.Binary.Arith
import Paddock.Binary.Basic
import Paddock.Binary.Round
import Paddock.Decimal.Basic
import Paddock.Decimal.Shortest
import Paddock.Delivery.Basic
import Paddock.Delivery.Report
import Paddock.Delivery.Sink
import Paddock.Log.Directive
import Paddock.Log.Event
import Paddock.Log.Filter
import Paddock.Log.Pattern.Atom
import Paddock.Log.Pattern.Mode
import Paddock.Log.Pattern.Reader
import Paddock.Log.Verbosity
import Paddock.Main
import Paddock.Program.Showcase
import Paddock.Program.Syntax
import Paddock.Quantity
import Paddock.Record.Basic
import Paddock.Record.Outline
import Paddock.Session.Path
import Paddock.Session.Slots
import Paddock.Session.Step
import Paddock.Supercar
import Paddock.Text.Class
import Paddock.Text.Cut
import Paddock.Text.Hidden
import Paddock.Text.Number
import Paddock.Text.Numeral
import Paddock.Text.Pieces
import Paddock.Text.Quoted
import Paddock.Proofs.Binary.Exact
import Paddock.Proofs.Decimal.Shortest
import Paddock.Proofs.Decimal.Reader
import Paddock.Proofs.Program.Constant
import Paddock.Proofs.Program.Reader
import Paddock.Proofs.Program.Legible
import Paddock.Proofs.Program.Spelling
import Paddock.Proofs.Binary.Pattern
import Paddock.Proofs.Program.Recovery
import Paddock.Proofs.Binary.Range
import Paddock.Proofs.Program.Agreement
import Paddock.Proofs.Delivery.Outcome
import Paddock.Proofs.Record.Report
import Paddock.Proofs.Session.Field
import Paddock.Proofs.Session.Frame
import Paddock.Proofs.Session.Update
import Paddock.Proofs.Supercar.Exit
import Paddock.Proofs.Binary.Nearest
import Paddock.Proofs.Decimal.Minimal
import Paddock.Proofs.Decimal.Form
import Paddock.Proofs.Binary.Zero
import Paddock.Proofs.Program.Literal
import Paddock.Proofs.Record.Equality
import Paddock.Proofs.Record.Comparison
import Paddock.Proofs.Text.Quoted
import Paddock.Proofs.Record.Places
import Paddock.Proofs.Binary.Order
import Paddock.Proofs.Log.Entry
import Paddock.Proofs.Log.Decision
import Paddock.Proofs.Supercar.Log
import Paddock.Proofs.Outline.Token
import Paddock.Proofs.Outline.Compact
import Paddock.Proofs.Outline.Lines
import Paddock.Proofs.Binary.Error
import Paddock.Proofs.Quantity.Conversion
import Paddock.Proofs.Binary.Fields
import Paddock.Proofs.Quantity.PowerToWeight
import Paddock.Proofs.Quantity.Widening
