import Billing.Binary64
import Billing.Calendar.Date
import Billing.Calendar.Moment
import Billing.Calendar.TimePoint
import Billing.Calendar.TimeSpan
import Billing.CommandLine.Argument
import Billing.CommandLine.Run
import Billing.CommandLine.Task
import Billing.Decimal.Arithmetic
import Billing.Decimal.Basic
import Billing.Decimal.Digits
import Billing.Decimal.Power
import Billing.Decimal.Rounding
import Billing.Decimal.Text
import Billing.Failure
import Billing.Given
import Billing.Identifier
import Billing.Invoice.Basic
import Billing.Invoice.Kinds
import Billing.Invoice.Lifecycle
import Billing.Invoice.Number
import Billing.Invoice.Proration
import Billing.Invoice.Summary
import Billing.Invoice.Totals
import Billing.Item
import Billing.Json.Basic
import Billing.Json.Checked
import Billing.Json.Parser
import Billing.Json.Printer
import Billing.Json.Scalar
import Billing.Main
import Billing.Money.Arithmetic
import Billing.Money.Basic
import Billing.Money.Currency
import Billing.Proofs.Calendar.Stamp
import Billing.Proofs.Coded
import Billing.Proofs.Decimal.Digits
import Billing.Proofs.Decimal.Nearest
import Billing.Proofs.Decimal.Overflow
import Billing.Proofs.Decimal.Rounding
import Billing.Proofs.Decimal.Text
import Billing.Proofs.Decimal.Value
import Billing.Proofs.Decimal.Whole
import Billing.Proofs.Except
import Billing.Proofs.Given
import Billing.Proofs.Invoice.Atomic
import Billing.Proofs.Invoice.Change
import Billing.Proofs.Invoice.Coded
import Billing.Proofs.Invoice.Consistency
import Billing.Proofs.Invoice.Creation
import Billing.Proofs.Invoice.Currency
import Billing.Proofs.Invoice.Generated
import Billing.Proofs.Invoice.ItemMap
import Billing.Proofs.Invoice.ItemSums
import Billing.Proofs.Invoice.Number
import Billing.Proofs.Invoice.Payments
import Billing.Proofs.Invoice.Progress
import Billing.Proofs.Invoice.PeriodSpan
import Billing.Proofs.Invoice.Prorated
import Billing.Proofs.Invoice.ProratedPeriods
import Billing.Proofs.Invoice.ProratedPrices
import Billing.Proofs.Invoice.Proration
import Billing.Proofs.Invoice.ProrationCheck
import Billing.Proofs.Invoice.Reread
import Billing.Proofs.Invoice.Run
import Billing.Proofs.Invoice.Settlement
import Billing.Proofs.Invoice.SplitPeriods
import Billing.Proofs.Invoice.TaxDrift
import Billing.Proofs.Invoice.TaxLines
import Billing.Proofs.Invoice.Totals
import Billing.Proofs.Invoice.Version
import Billing.Proofs.Item
import Billing.Proofs.Json.Checked
import Billing.Proofs.Json.Printed
import Billing.Proofs.Keyed
import Billing.Proofs.Money.Cents
import Billing.Proofs.Money.Comparison
import Billing.Proofs.Money.Display
import Billing.Proofs.Money.HalfUp
import Billing.Proofs.Money.Making
import Billing.Proofs.Money.Product
import Billing.Proofs.Money.Quotient
import Billing.Proofs.Money.Scaled
import Billing.Proofs.Money.Sum
import Billing.Proofs.Money.SumLaws
import Billing.Proofs.Money.Thirtieths
import Billing.Proofs.Money.Twice
import Billing.Proofs.Service.Allocation
import Billing.Proofs.Service.Call
import Billing.Proofs.Service.Creation
import Billing.Proofs.Service.FirstFree
import Billing.Proofs.Service.Proration
import Billing.Proofs.Service.Refinement
import Billing.Proofs.Settings.Reading
import Billing.Proofs.Snapshot.Json
import Billing.Proofs.Snapshot.Lossless
import Billing.Proofs.Snapshot.Reading
import Billing.Proofs.Snapshot.Resaved
import Billing.Proofs.Store.Access
import Billing.Proofs.Store.Added
import Billing.Proofs.Store.Agreement
import Billing.Proofs.Store.Clients
import Billing.Proofs.Store.Entries
import Billing.Proofs.Store.Instants
import Billing.Proofs.Store.Keeping
import Billing.Proofs.Store.Loaded
import Billing.Proofs.Store.Memory
import Billing.Proofs.Store.MemoryShelf
import Billing.Proofs.Store.Queries
import Billing.Proofs.Store.Rows
import Billing.Proofs.Store.Shared
import Billing.Proofs.Store.Shelf
import Billing.Proofs.Store.Tables
import Billing.Proofs.Store.TablesShelf
import Billing.Proofs.Store.Texts
import Billing.Proofs.TaxRate.Tax
import Billing.Proofs.Text.Digits
import Billing.Proofs.Text.Grouping
import Billing.Service
import Billing.Settings.Address
import Billing.Settings.Basic
import Billing.Settings.Host
import Billing.Settings.Ipv4
import Billing.Settings.Ipv6
import Billing.Snapshot.Basic
import Billing.Snapshot.Json
import Billing.Store.Basic
import Billing.Store.Memory
import Billing.Store.Tables
import Billing.TaxRate.Basic
import Billing.TaxRate.Tax
import Billing.Text.Blank
import Billing.Text.Digit
import Billing.Text.Hexadecimal
import Billing.Text.Label
import Billing.Text.Layout
import Billing.Text.Printable
import Billing.Text.Quoted
