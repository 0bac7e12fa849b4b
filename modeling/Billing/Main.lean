import Billing.CommandLine.Run
import Billing.Store.Memory
import Std.Time.DateTime.Timestamp

set_option autoImplicit false

/-! # The program

Carries out one command line on the invoices whose snapshots are on standard input, one on each
line. Settings come from the environment.
-/

open Billing

namespace Billing.Program

/-- The variables of the environment that are settings, in capital letters. -/
def environment : IO (List (String × String)) :=
  Settings.names.filterMapM fun name => do
    let key := String.map Char.toUpper (Settings.environmentMark ++ name)
    return (← IO.getEnv key).map fun value => (key, value)

/-- The present moment. -/
def present : IO Moment := do
  let nanos := (← Std.Time.Timestamp.now).toNanosecondsSinceUnixEpoch.val
  match Moment.ofUnix? (nanos / 1000) with
  | some m => return m
  | none => throw (IO.userError "The clock is out of range")

/-- The lines of a stream. -/
partial def readLines (stream : IO.FS.Stream) : IO (List String) := do
  let line ← stream.getLine
  if line.isEmpty then return [] else return line :: (← readLines stream)

/-- What is wrong with a value, one defect on a line. -/
def defectLines (defects : List Defect) : String :=
  String.join (defects.map fun d => d.place ++ ": " ++ d.kind.name ++ "\n")

/-- Prints an outcome and ends with its status. -/
def finish (outcome : Outcome) : IO UInt32 := do
  (← IO.getStdout).putStr outcome.output
  (← IO.getStderr).putStr outcome.errors
  return outcome.status.toUInt32

/-- The settings and the stored invoices, or what is wrong with them. -/
def setup (environment : List (String × String)) (lines : List String) :
    Checked (Settings × MemoryStore) :=
  let snapshots := (lines.filter fun line => !Text.isBlankText line).foldr
    (fun line rest => List.cons <$> Snapshot.ofText line <*> rest) (pure [])
  (fun settings snapshots => (settings, MemoryStore.ofSnapshots snapshots)) <$>
    Settings.read environment [] <*> snapshots

/-- What comes of a command line, with the present moment and a random number. -/
def outcome (settings : Settings) (store : MemoryStore) (clock : Moment) (random : Nat)
    (arguments : List String) : Outcome :=
  let service : Service MemoryStore := {
    repository := MemoryStore.repository
    settings, clock
    fresh := fun n => Fresh.following (random + n) }
  match ((CommandLine.run service arguments).on ⟨store, Counter.start, 0⟩).1 with
  | .ok outcome => outcome
  | .error e => ⟨1, "", "Error: " ++ e.message ++ "\n"⟩

end Billing.Program

open Billing.Program in
def main (arguments : List String) : IO UInt32 := do
  match Invocation.read arguments with
  | .error stop => finish (CommandLine.ofStop stop)
  | .ok _ =>
      let stdin ← IO.getStdin
      match setup (← environment) (← readLines stdin) with
      | .bad defects => finish ⟨1, "", defectLines defects⟩
      | .ok (settings, store) =>
          let random ← IO.rand 0 (twoTo 62)
          finish (outcome settings store (← present) random arguments)
