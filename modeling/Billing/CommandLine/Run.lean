import Billing.CommandLine.Task
import Billing.Invoice.Summary
import Billing.Json.Printer
import Billing.Service
import Billing.Snapshot.Json

set_option autoImplicit false

/-! # Carrying out a command line

`CommandLine.run` carries out a command line on the stored invoices. What it prints and the status
it ends with are an `Outcome`; only failures that are not about the number of an invoice are left
over.
-/

namespace Billing

/-- What a command line leaves behind: the status that it ends with, and what it prints. -/
structure Outcome where
  status : Nat
  output : String
  errors : String
  deriving DecidableEq, Repr

namespace CommandLine

variable {σ : Type}

/-- The name of the program and its version. -/
def versionLine : String := "invoicing 0.1.0\n"

/-- How the program is called. -/
def usage : String :=
  "usage: invoicing [-h] [--version] [--log-level LEVEL] init-db\n" ++
  "       invoicing [-h] [--version] [--log-level LEVEL] show [-h] [--json] number\n" ++
  "       invoicing [-h] [--version] [--log-level LEVEL] overdue [-h] [--today TODAY]\n"

/-- A command line that is not carried out only prints what it is about. -/
def ofStop : Stop → Outcome
  | .misuse => ⟨2, "", usage⟩
  | .help => ⟨0, usage, ""⟩
  | .version => ⟨0, versionLine, ""⟩

/-- The line of an overdue invoice. -/
def overdueLine (inv : Invoice) : Except Failure String := do
  let balance ← inv.balanceDue
  return inv.number.value ++ "  due " ++ inv.dueDate.text ++ "  client " ++ inv.clientId.text ++
    "  balance " ++ balance.display ++ "\n"

/-- The lines of overdue invoices. -/
def overdueLines : List Invoice → Except Failure String
  | [] => .ok "No overdue invoices\n"
  | invs => do return String.join (← invs.mapM overdueLine)

/-- An invoice as it is shown. -/
def invoiceText (inv : Invoice) : Bool → Except Failure String
  | true => do return (← Snapshot.of inv).toJson.pretty ++ "\n"
  | false => do return (← inv.summary) ++ "\n"

/-- Carries out a task; the result is what it prints. -/
def perform (s : Service σ) : Task → Call σ String
  | .createTables => return "Database tables created\n"
  | .showInvoice number asJson => do
      let inv ← s.getInvoiceByNumber number
      Call.ofResult (invoiceText inv asJson)
  | .listOverdue day => do
      let invs ← s.listOverdue day
      Call.ofResult (overdueLines invs)

/-- Carries out a task. An invoice that is not there is reported. -/
def outcomeOf (s : Service σ) (task : Task) : Call σ Outcome :=
  tryCatch (do return ⟨0, ← perform s task, ""⟩) fun e =>
    match e with
    | .noSuchNumber _ => return ⟨1, "", "Error: " ++ e.message ++ "\n"⟩
    | e => throw e

/-- Carries out a command line. -/
def run (s : Service σ) (arguments : List String) : Call σ Outcome :=
  match Invocation.read arguments with
  | .ok invocation => outcomeOf s invocation.task
  | .error stop => return ofStop stop

end CommandLine

end Billing
