import Billing.Keyed
import Billing.Snapshot.Json
import Billing.Store.Basic

set_option autoImplicit false

/-! # Invoices kept in memory

A `MemoryStore` keeps the snapshots of invoices as JSON values under the identifiers of the
invoices, in the order in which they were first saved. Looking an invoice up brings it back from
its snapshot.
-/

namespace Billing

/-- The snapshots of invoices under their identifiers, in the order of first saving. -/
structure MemoryStore where
  entries : List (String × Json)

namespace MemoryStore

def empty : MemoryStore := ⟨[]⟩

/-! ## Entries -/

/-- The snapshot under an identifier. -/
def dataAt? (store : MemoryStore) (id : String) : Option Json :=
  (store.entries.find? fun e => e.1 == id).map Prod.snd

/-- Puts a snapshot under an identifier: in its place if there is one, or else at the end. -/
def put (id : String) (data : Json) : List (String × Json) → List (String × Json) :=
  Keyed.put Prod.fst (id, data)

/-- A store that holds the given snapshots. Of two with one identifier the later one counts. -/
def ofSnapshots (snapshots : List Snapshot) : MemoryStore :=
  ⟨snapshots.foldl (fun entries s => put s.id s.toJson entries) []⟩

/-- Whether a snapshot has a text in a field. -/
def hasText (key text : String) (data : Json) : Bool :=
  match data.field? key with
  | some (.str s) => s == text
  | _ => false

/-- The version of a snapshot. -/
def versionOf (data : Json) : Int :=
  match data.field? "version" with
  | some (.int n) => n
  | _ => 0

/-- The invoice of a snapshot. Stored snapshots have all their identifiers, so no new ones are
used. -/
def load (data : Json) : Access MemoryStore Invoice := do
  let snapshot ← Access.ofChecked (Snapshot.ofJson data)
  Access.ofResult (snapshot.toInvoice (Fresh.following 0))

/-- The invoices whose snapshots pass a test. -/
def loadWhere (test : Json → Bool) : Access MemoryStore (List Invoice) := do
  let store ← get
  (store.entries.filter fun e => test e.2).mapM fun e => load e.2

/-! ## Calls -/

/-- Whether an invoice is not the stored one with changes: it has a version but is not stored, or
is stored with another version. -/
def isStale (inv : Invoice) : Option Json → Bool
  | some data => versionOf data ≠ inv.version
  | none => inv.version ≠ 0

/-- Writes an invoice under its next version. -/
def write (inv : Invoice) : Access MemoryStore Unit := do
  let store ← get
  let stored := store.dataAt? inv.id.text
  if isStale inv stored then throw (.conflict inv.id.text inv.version (stored.map versionOf))
  if store.entries.any fun e => e.1 != inv.id.text && hasText "number" inv.number.value e.2 then
    throw (.numberTaken inv.number.value)
  let snapshot ← Access.ofResult (Snapshot.of inv)
  let data := { snapshot with version := inv.version + 1 }.toJson
  set (⟨put inv.id.text data store.entries⟩ : MemoryStore)

/-- Saves the copy of an invoice that a caller holds. -/
def saving : Saving MemoryStore Unit := .through write

def save (inv : Invoice) : Access MemoryStore Invoice := saving.copyOf inv

def findById (id : String) : Access MemoryStore (Option Invoice) := do
  match (← get).dataAt? id with
  | some data => return some (← load data)
  | none => return none

def findByNumber (number : String) : Access MemoryStore (Option Invoice) := do
  return (← loadWhere (hasText "number" number)).head?

def findOverdue (today : Date) : Access MemoryStore (List Invoice) := do
  let invoices ← loadWhere fun _ => true
  return (invoices.filter fun inv => inv.isOverdue today).mergeSort
    fun a b => a.dueDate.le b.dueDate

def existsNumber (number : String) : Access MemoryStore Bool := do
  return (← get).entries.any fun e => hasText "number" number e.2

def delete (id : String) : Access MemoryStore Bool := do
  let store ← get
  set (⟨store.entries.eraseP fun e => e.1 == id⟩ : MemoryStore)
  return (store.dataAt? id).isSome

/-- The store in memory as a repository. -/
def repository : Repository MemoryStore where
  save
  findById
  findByNumber
  findByClient client := loadWhere (hasText "client_id" client)
  findByStatus status := loadWhere (hasText "status" status.name)
  findOverdue
  findDraftsBy user := loadWhere fun data =>
    hasText "issued_by" user data && hasText "status" Status.draft.name data
  existsNumber
  delete

end MemoryStore

end Billing
