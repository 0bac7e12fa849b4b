import Billing.Text.Digit
import Billing.Text.Layout

set_option autoImplicit false

/-! # Arguments of a command line

Each argument of a command line is an option, an option that is not known, or plain. An option may
be shortened as long as only one option begins that way, and its value may be attached to it with
an equals sign. Behind the separator `--` every argument is plain. `Argument.classify` tells what
the arguments are; `α` is the type of the options.
-/

namespace Billing

/-- Why a command line is not carried out. -/
inductive Stop where
  /-- it is not one of the command lines that there are -/
  | misuse
  /-- it asks for help -/
  | help
  /-- it asks for the version -/
  | version
  deriving DecidableEq, Repr

/-- What an argument is. -/
inductive Meaning (α : Type) where
  | plain
  | separator
  | unknown
  /-- a long option, possibly with a value attached -/
  | option (name : α) (value : Option String)
  /-- the letter `h` and more letters behind a single hyphen -/
  | letters (behind : List Char)
  deriving DecidableEq, Repr

/-- An argument and what it is. -/
structure Argument (α : Type) where
  text : String
  meaning : Meaning α
  deriving DecidableEq, Repr

namespace Argument

variable {α : Type}

/-- Digits, possibly with a point among or in front of them. -/
def isUnsigned (cs : List Char) : Bool :=
  let isDigit (c : Char) : Bool := (Text.digitValue? c).isSome
  match cs.span isDigit with
  | (whole, []) => !whole.isEmpty
  | (_, '.' :: fraction) => !fraction.isEmpty && fraction.all isDigit
  | _ => false

/-- The text without a line break at its end. -/
def dropBreak (cs : List Char) : List Char :=
  if cs.getLast? = some '\n' then cs.dropLast else cs

/-- What an argument is that is no option: it is plain if it contains a blank. -/
def unknownUnlessBlank (s : String) : Meaning α :=
  if s.toList.contains ' ' then .plain else .unknown

/-- The name in front of the first equals sign, and the value behind it. -/
def splitValue (s : String) : String × Option String :=
  match s.toList.span (· ≠ '=') with
  | (_, []) => (s, none)
  | (name, _ :: value) => (String.ofList name, some (String.ofList value))

/-- What an argument is that begins with two hyphens. -/
def longMeaning (options : List (String × α)) (s : String) : Except Stop (Meaning α) :=
  let (name, value) := splitValue s
  match options.find? fun o => o.1 = name with
  | some o => .ok (.option o.2 value)
  | none =>
      match options.filter fun o => Text.startsWith o.1 name with
      | [] => .ok (unknownUnlessBlank s)
      | [o] => .ok (.option o.2 value)
      | _ => .error .misuse

/-- What an argument in front of the separator is. Negative numbers are plain. -/
def meaningOf (options : List (String × α)) (s : String) : Except Stop (Meaning α) :=
  match s.toList with
  | ['-'] => .ok .plain
  | '-' :: '-' :: _ => longMeaning options s
  | '-' :: 'h' :: behind => .ok (.letters behind)
  | '-' :: cs => .ok (if isUnsigned (dropBreak cs) then .plain else unknownUnlessBlank s)
  | _ => .ok .plain

/-- What each argument is. All of them are looked at before any of them takes effect. -/
def classify (options : List (String × α)) : List String → Except Stop (List (Argument α))
  | [] => .ok []
  | "--" :: rest => .ok (⟨"--", .separator⟩ :: rest.map fun s => ⟨s, .plain⟩)
  | s :: rest => do
      let meaning ← meaningOf options s
      return ⟨s, meaning⟩ :: (← classify options rest)

/-- What comes of letters behind `-h`: help, unless a value is attached to one of them. -/
def stopOfLetters : List Char → Stop
  | '=' :: _ => .misuse
  | '-' :: _ => .misuse
  | 'h' :: cs => stopOfLetters cs
  | _ => .help

end Argument

end Billing
