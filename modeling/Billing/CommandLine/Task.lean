import Billing.Calendar.Date
import Billing.CommandLine.Argument
import Billing.Settings.Basic

set_option autoImplicit false

/-! # The tasks of the command line

A command line names one `Task`: to create the tables of the database, to show an invoice, or to
list the overdue ones. `Invocation.read` reads it from the arguments.
-/

namespace Billing

/-- What a command line asks for. -/
inductive Task where
  | createTables
  | showInvoice (number : String) (asJson : Bool)
  | listOverdue (day : Option Date)
  deriving DecidableEq, Repr

/-- A command line: a task and how much is logged while it is carried out. -/
structure Invocation where
  logLevel : Option LogLevel
  task : Task
  deriving DecidableEq, Repr

namespace Task

/-- A task and whether there were arguments besides those that it takes. -/
abbrev Reading : Type := Except Stop (Task × Bool)

/-! ## Creating tables -/

/-- The options of the task. -/
inductive CreateOption where
  | help
  deriving DecidableEq, Repr

def createOptions : List (String × CreateOption) := [("--help", .help)]

/-- Creating tables takes no arguments. -/
def readCreate (surplus : Bool) : List (Argument CreateOption) → Reading
  | [] => .ok (createTables, surplus)
  | ⟨_, .letters cs⟩ :: _ => .error (Argument.stopOfLetters cs)
  | ⟨_, .option .help none⟩ :: _ => .error .help
  | ⟨_, .option .help (some _)⟩ :: _ => .error .misuse
  | _ :: rest => readCreate true rest

/-! ## Showing an invoice -/

/-- The options of the task. -/
inductive ShowOption where
  | help
  | json
  deriving DecidableEq, Repr

def showOptions : List (String × ShowOption) := [("--help", .help), ("--json", .json)]

/-- Showing an invoice takes its number, and may be asked for JSON. A separator may stand right in
front of the number or right behind it. -/
def readShow (asJson surplus : Bool) : Option String → List (Argument ShowOption) → Reading
  | some number, [] => .ok (showInvoice number asJson, surplus)
  | none, [] => .error .misuse
  | _, ⟨_, .letters cs⟩ :: _ => .error (Argument.stopOfLetters cs)
  | _, ⟨_, .option .help none⟩ :: _ => .error .help
  | number, ⟨_, .option .json none⟩ :: rest => readShow true surplus number rest
  | _, ⟨_, .option _ (some _)⟩ :: _ => .error .misuse
  | none, ⟨_, .separator⟩ :: ⟨text, _⟩ :: rest => readShow asJson surplus (some text) rest
  | none, ⟨text, .plain⟩ :: ⟨_, .separator⟩ :: rest => readShow asJson surplus (some text) rest
  | none, ⟨text, .plain⟩ :: rest => readShow asJson surplus (some text) rest
  | number, _ :: rest => readShow asJson true number rest

/-! ## Listing overdue invoices -/

/-- The options of the task. -/
inductive OverdueOption where
  | help
  | today
  deriving DecidableEq, Repr

def overdueOptions : List (String × OverdueOption) := [("--help", .help), ("--today", .today)]

/-- The value of an option that is a day. -/
def dayOf (s : String) : Except Stop (Option Date) :=
  match Date.ofIso? s with
  | some d => .ok (some d)
  | none => .error .misuse

/-- Listing overdue invoices may be asked for those of a day. The last of several days counts. -/
def readOverdue (day : Option Date) (surplus : Bool) : List (Argument OverdueOption) → Reading
  | [] => .ok (listOverdue day, surplus)
  | ⟨_, .letters cs⟩ :: _ => .error (Argument.stopOfLetters cs)
  | ⟨_, .option .help none⟩ :: _ => .error .help
  | ⟨_, .option .help (some _)⟩ :: _ => .error .misuse
  | ⟨_, .option .today (some s)⟩ :: rest => do readOverdue (← dayOf s) surplus rest
  | ⟨_, .option .today none⟩ :: ⟨s, .plain⟩ :: rest => do readOverdue (← dayOf s) surplus rest
  | ⟨_, .option .today none⟩ :: _ => .error .misuse
  | _ :: rest => readOverdue day true rest

/-! ## All tasks -/

/-- Reads the task with a name from the arguments behind the name. -/
def read (name : String) (arguments : List String) : Reading :=
  match name with
  | "init-db" => do readCreate false (← Argument.classify createOptions arguments)
  | "show" => do readShow false false none (← Argument.classify showOptions arguments)
  | "overdue" => do readOverdue none false (← Argument.classify overdueOptions arguments)
  | _ => .error .misuse

end Task

namespace Invocation

/-- The options in front of the name of the task. -/
inductive Leading where
  | help
  | version
  | logLevel
  deriving DecidableEq, Repr

def options : List (String × Leading) :=
  [("--help", .help), ("--version", .version), ("--log-level", .logLevel)]

/-- The value of the option for the log level. -/
def levelOf (s : String) : Except Stop (Option LogLevel) :=
  match LogLevel.ofName? s with
  | some l => .ok (some l)
  | none => .error .misuse

/-- Reads the options up to the first plain argument, which names the task; all arguments behind
it belong to the task. -/
def readFrom (level : Option LogLevel) (surplus : Bool) :
    List (Argument Leading) → Except Stop Invocation
  | [] => .error .misuse
  | ⟨_, .letters cs⟩ :: _ => .error (Argument.stopOfLetters cs)
  | ⟨_, .option .help none⟩ :: _ => .error .help
  | ⟨_, .option .version none⟩ :: _ => .error .version
  | ⟨_, .option .logLevel (some s)⟩ :: rest => do readFrom (← levelOf s) surplus rest
  | ⟨_, .option .logLevel none⟩ :: ⟨s, .plain⟩ :: rest => do readFrom (← levelOf s) surplus rest
  | ⟨_, .option _ _⟩ :: _ => .error .misuse
  | ⟨_, .unknown⟩ :: rest => readFrom level true rest
  | ⟨_, .separator⟩ :: _ => .error .misuse
  | ⟨name, .plain⟩ :: rest => do
      let (task, more) ← Task.read name (rest.map Argument.text)
      if surplus || more then .error .misuse else return ⟨level, task⟩

/-- Reads a command line. -/
def read (arguments : List String) : Except Stop Invocation := do
  readFrom none false (← Argument.classify options arguments)

end Invocation

end Billing
