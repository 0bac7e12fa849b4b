import Billing.Proofs.Invoice.Reread
import Billing.Proofs.Keyed
import Billing.Proofs.Store.Access
import Mathlib.Data.List.Forall2

set_option autoImplicit false

/-! # Calls of a store

What a store answers to a call is a `StoreReply`. A `Shelf` is a store that keeps the invoices
themselves. Another store shows a shelf if it answers every call like the shelf and shows the shelf
that comes of the call (`Repository.Shows`); it then answers all lists of calls like the shelf
(`Repository.Shows.replies`).
-/

namespace Billing

/-- What a store can be asked to do. -/
inductive StoreCall where
  | save (inv : Invoice)
  | findById (id : String)
  | findByNumber (number : String)
  | findByClient (client : String)
  | findByStatus (status : Status)
  | findOverdue (today : Date)
  | findDraftsBy (user : String)
  | existsNumber (number : String)
  | delete (id : String)

/-- What a store answers. -/
inductive StoreReply where
  | saved (result : Except StoreFailure Invoice)
  | found (result : Except StoreFailure (Option Invoice))
  | listed (result : Except StoreFailure (List Invoice))
  | told (result : Except StoreFailure Bool)

namespace Repository

variable {σ : Type}

/-- The answer to a call, and the store after it. -/
def call (r : Repository σ) (store : σ) : StoreCall → StoreReply × σ
  | .save inv => Prod.map .saved id ((r.save inv).on store)
  | .findById i => Prod.map .found id ((r.findById i).on store)
  | .findByNumber number => Prod.map .found id ((r.findByNumber number).on store)
  | .findByClient client => Prod.map .listed id ((r.findByClient client).on store)
  | .findByStatus status => Prod.map .listed id ((r.findByStatus status).on store)
  | .findOverdue today => Prod.map .listed id ((r.findOverdue today).on store)
  | .findDraftsBy user => Prod.map .listed id ((r.findDraftsBy user).on store)
  | .existsNumber number => Prod.map .told id ((r.existsNumber number).on store)
  | .delete i => Prod.map .told id ((r.delete i).on store)

/-- The answers to a list of calls, one after the other. -/
def replies (r : Repository σ) (store : σ) : List StoreCall → List StoreReply
  | [] => []
  | c :: calls => (r.call store c).1 :: r.replies (r.call store c).2 calls

end Repository

/-- The invoices of a store, in the order in which they were first saved. -/
structure Shelf where
  invoices : List Invoice

namespace Shelf

def empty : Shelf := ⟨[]⟩

def stored? (shelf : Shelf) (id : String) : Option Invoice :=
  shelf.invoices.find? fun i => i.id.text == id

/-- Whether another invoice has the number of an invoice. -/
def isTaken (shelf : Shelf) (inv : Invoice) : Bool :=
  shelf.invoices.any fun i => i.id.text != inv.id.text && i.number.value == inv.number.value

/-- Puts an invoice where one with its identifier is, or else at the end. -/
def put (inv : Invoice) : List Invoice → List Invoice := Keyed.put (fun i => i.id.text) inv

/-- What is on the shelf of an invoice that has been saved. -/
def shown (inv : Invoice) : Invoice := { inv with version := inv.version + 1 }.reread .atUniversal

def save (inv : Invoice) : Access Shelf Invoice := do
  let shelf ← get
  let actual := (shelf.stored? inv.id.text).map Invoice.version
  if actual.getD 0 ≠ inv.version then throw (.conflict inv.id.text inv.version actual)
  if shelf.isTaken inv then throw (.numberTaken inv.number.value)
  set (⟨put (shown inv) shelf.invoices⟩ : Shelf)
  return { inv with version := inv.version + 1 }

def listWhere (test : Invoice → Bool) : Access Shelf (List Invoice) := do
  return (← get).invoices.filter test

def findOverdue (today : Date) : Access Shelf (List Invoice) := do
  return ((← get).invoices.filter fun i => i.isOverdue today).mergeSort
    fun a b => a.dueDate.le b.dueDate

def delete (id : String) : Access Shelf Bool := do
  let shelf ← get
  set (⟨shelf.invoices.filter fun i => i.id.text != id⟩ : Shelf)
  return (shelf.stored? id).isSome

/-- The shelf as a repository. -/
def repository : Repository Shelf where
  save
  findById id := do return (← get).stored? id
  findByNumber number := do return (← get).invoices.find? fun i => i.number.value == number
  findByClient client := listWhere fun i => i.clientId.text == client
  findByStatus status := listWhere fun i => i.status == status
  findOverdue
  findDraftsBy user := listWhere fun i => i.issuedBy.text == user && i.status == .draft
  existsNumber number := do return (← get).invoices.any fun i => i.number.value == number
  delete

end Shelf

/-- States are looked up by their names. -/
theorem Status.name_beq_name (a b : Status) : (a.name == b.name) = (a == b) := by
  cases a <;> cases b <;> rfl

/-! ## Lists side by side -/

section Lists

variable {α β : Type} {R : α → β → Prop} {xs : List α} {ys : List β}

theorem any_congr_of_forall₂ {p : α → Bool} {q : β → Bool} (h : List.Forall₂ R xs ys)
    (hpq : ∀ x y, R x y → p x = q y) : xs.any p = ys.any q := by
  induction h with
  | nil => rfl
  | cons hxy _ ih => rw [List.any_cons, List.any_cons, hpq _ _ hxy, ih]

theorem find?_of_forall₂ {p : α → Bool} {q : β → Bool} (h : List.Forall₂ R xs ys)
    (hpq : ∀ x y, R x y → p x = q y) :
    (xs.find? p = none ∧ ys.find? q = none) ∨
      ∃ x y, xs.find? p = some x ∧ ys.find? q = some y ∧ R x y := by
  induction h with
  | nil => exact .inl ⟨rfl, rfl⟩
  | @cons x y xs ys hxy _ ih =>
      rw [List.find?_cons, List.find?_cons, hpq x y hxy]
      cases q y with
      | true => exact .inr ⟨x, y, rfl, rfl, hxy⟩
      | false => exact ih

theorem filter_of_forall₂ {p : α → Bool} {q : β → Bool} (h : List.Forall₂ R xs ys)
    (hpq : ∀ x y, R x y → p x = q y) :
    List.Forall₂ (fun x y => R x y ∧ p x = true) (xs.filter p) (ys.filter q) := by
  induction h with
  | nil => exact .nil
  | @cons x y xs ys hxy _ ih =>
      rw [List.filter_cons, List.filter_cons, ← hpq x y hxy]
      cases hx : p x with
      | true => exact .cons ⟨hxy, hx⟩ ih
      | false => exact ih

theorem map_eq_of_forall₂ {γ : Type} {f : α → γ} {g : β → γ} (h : List.Forall₂ R xs ys)
    (hfg : ∀ x y, R x y → f x = g y) : xs.map f = ys.map g := by
  induction h with
  | nil => rfl
  | cons hxy _ ih => rw [List.map_cons, List.map_cons, hfg _ _ hxy, ih]

theorem exists_forall₂ (h : ∀ y ∈ ys, ∃ x, R x y) : ∃ xs, List.Forall₂ R xs ys := by
  induction ys with
  | nil => exact ⟨[], .nil⟩
  | cons y ys ih =>
      rw [List.forall_mem_cons] at h
      obtain ⟨x, hx⟩ := h.1
      obtain ⟨xs, hxs⟩ := ih h.2
      exact ⟨x :: xs, .cons hx hxs⟩

/-- Lists that go side by side still do when they are sorted by what goes side by side. -/
theorem mergeSort_of_forall₂ (le : α → α → Bool) (le' : β → β → Bool) (h : List.Forall₂ R xs ys)
    (hle : ∀ x y x' y', R x y → R x' y' → le x x' = le' y y') :
    List.Forall₂ R (xs.mergeSort le) (ys.mergeSort le') := by
  have hlength := h.length_eq
  have hR : ∀ p ∈ xs.zip ys, R p.1 p.2 := fun p hp => List.forall₂_zip h hp
  -- both lists are sorted by sorting the pairs
  have hxs : ((xs.zip ys).mergeSort fun p q => le p.1 q.1).map Prod.fst = xs.mergeSort le := by
    rw [List.map_mergeSort (s := le) fun p _ q _ => rfl, List.map_fst_zip hlength.le]
  have hys : ((xs.zip ys).mergeSort fun p q => le p.1 q.1).map Prod.snd = ys.mergeSort le' := by
    rw [List.map_mergeSort (s := le') fun p hp q hq => hle _ _ _ _ (hR p hp) (hR q hq),
      List.map_snd_zip hlength.ge]
  rw [← hxs, ← hys, List.forall₂_map_left_iff, List.forall₂_map_right_iff, List.forall₂_same]
  intro p hp
  exact hR p ((List.mergeSort_perm _ _).subset hp)

end Lists

/-! ## Order on the shelf -/

namespace Shelf

variable {shelf : Shelf} {inv : Invoice} {invoices : List Invoice}

/-- No two invoices have one identifier or one number, and versions count from 1. -/
structure Orderly (shelf : Shelf) : Prop where
  ids : (shelf.invoices.map fun i => i.id.text).Nodup
  numbers : (shelf.invoices.map fun i => i.number.value).Nodup
  versions : ∀ i ∈ shelf.invoices, 1 ≤ i.version

theorem orderly_empty : empty.Orderly where
  ids := List.nodup_nil
  numbers := List.nodup_nil
  versions _ hi := absurd hi List.not_mem_nil

theorem nodup_numbers_put (hids : (invoices.map fun i => i.id.text).Nodup)
    (h : (invoices.map fun i => i.number.value).Nodup)
    (hfree : ∀ i ∈ invoices, i.id.text ≠ inv.id.text → i.number.value ≠ inv.number.value) :
    ((put inv invoices).map fun i => i.number.value).Nodup :=
  nodup_map_of_replaced (Keyed.nodup_put inv hids) h (fun _ => Keyed.mem_put) hfree

/-- A save checks the version, then the number, and then puts the invoice on the shelf. -/
theorem on_save (inv : Invoice) (shelf : Shelf) :
    (save inv).on shelf =
      if ((shelf.stored? inv.id.text).map Invoice.version).getD 0 ≠ inv.version then
        (.error (.conflict inv.id.text inv.version
          ((shelf.stored? inv.id.text).map Invoice.version)), shelf)
      else if shelf.isTaken inv then (.error (.numberTaken inv.number.value), shelf)
      else
        (.ok { inv with version := inv.version + 1 }, ⟨put (shown inv) shelf.invoices⟩) := by
  simp only [save, Procedure.on_get_bind, Procedure.throw_bind, Procedure.on_throw_if]
  rfl

theorem mem_of_stored? {id : String} {i : Invoice} (h : shelf.stored? id = some i) :
    i ∈ shelf.invoices ∧ i.id.text = id := mem_of_find?_key h

theorem Orderly.save (h : shelf.Orderly) (inv : Invoice) :
    ((Shelf.save inv).on shelf).2.Orderly := by
  rw [on_save]
  split
  next => exact h
  next hversion =>
    split
    next => exact h
    next hfree =>
      -- the version is that of the stored invoice, or 0
      have hpos : 0 ≤ inv.version := by
        rw [not_not] at hversion
        rw [← hversion]
        cases hstored : shelf.stored? inv.id.text with
        | none => exact le_rfl
        | some i => exact Int.le_trans (by decide) (h.versions i (mem_of_stored? hstored).1)
      refine ⟨Keyed.nodup_put _ h.ids, nodup_numbers_put h.ids h.numbers ?_, ?_⟩
      · intro i hi hid heq
        refine hfree (List.any_eq_true.2 ⟨i, hi, ?_⟩)
        have hid : i.id.text ≠ inv.id.text := hid
        have heq : i.number.value = inv.number.value := heq
        simp [hid, heq]
      · intro i hi
        rcases Keyed.mem_put hi with rfl | hi
        · have hcounted : (shown inv).version = inv.version + 1 := rfl
          omega
        · exact h.versions i hi

theorem Orderly.delete (h : shelf.Orderly) (id : String) :
    ((Shelf.delete id).on shelf).2.Orderly :=
  ⟨h.ids.sublist (List.filter_sublist.map _), h.numbers.sublist (List.filter_sublist.map _),
    fun i hi => h.versions i (List.mem_of_mem_filter hi)⟩

theorem Orderly.call (h : shelf.Orderly) (c : StoreCall) :
    (repository.call shelf c).2.Orderly := by
  cases c with
  | save inv => exact h.save inv
  | delete id => exact h.delete id
  | _ => exact h

end Shelf

/-! ## Invoices that can be stored -/

/-- Distinct items, amounts that can be computed, universal time, and a version of 64 bits. -/
structure Invoice.Storable (inv : Invoice) : Prop where
  items : (inv.items.map fun i => i.id.text).Nodup
  balance : ∃ m, inv.balanceDue = .ok m
  times : ∀ time ∈ [inv.finalizedAt, inv.sentAt, inv.paidAt, inv.voidedAt],
    ∀ m ∈ time, m.offset = some 0
  version : -2 ^ 63 ≤ inv.version ∧ inv.version < 2 ^ 63

/-- Whether what a call saves, if anything, can be stored, now and at the next version. -/
def StoreCall.Admissible : StoreCall → Prop
  | .save inv => inv.Storable ∧ inv.version ≠ 2 ^ 63 - 1
  | _ => True

/-! ## Stores that show a shelf -/

section Shows

variable {σ α : Type} {R : Shelf → σ → Prop} {r : Repository σ} {store : σ} {shelf : Shelf}

/-- Two steps that go the same way and lead to a store that shows the shelf. -/
def Access.Matches (R : Shelf → σ → Prop) (step : Access σ α) (store : σ) (step' : Access Shelf α)
    (shelf : Shelf) : Prop :=
  (step.on store).1 = (step'.on shelf).1 ∧ R (step'.on shelf).2 (step.on store).2

theorem Access.Reads.matches {step : Access σ α} {step' : Access Shelf α} {a : α}
    (h : step.Reads store (.ok a)) (h' : step'.on shelf = (.ok a, shelf)) (hR : R shelf store) :
    step.Matches R store step' shelf := by
  unfold Access.Reads at h
  rw [Access.Matches, h, h']
  exact ⟨rfl, hR⟩

/-- A store shows a shelf if every step on it matches the step on the shelf. -/
structure Repository.Shows (r : Repository σ) (R : Shelf → σ → Prop) : Prop where
  save : ∀ {shelf store inv}, R shelf store → shelf.Orderly → inv.Storable →
    inv.version ≠ 2 ^ 63 - 1 → (r.save inv).Matches R store (Shelf.repository.save inv) shelf
  findById : ∀ {shelf store} id, R shelf store →
    (r.findById id).Matches R store (Shelf.repository.findById id) shelf
  findByNumber : ∀ {shelf store} number, R shelf store →
    (r.findByNumber number).Matches R store (Shelf.repository.findByNumber number) shelf
  findByClient : ∀ {shelf store} client, R shelf store →
    (r.findByClient client).Matches R store (Shelf.repository.findByClient client) shelf
  findByStatus : ∀ {shelf store} status, R shelf store →
    (r.findByStatus status).Matches R store (Shelf.repository.findByStatus status) shelf
  findOverdue : ∀ {shelf store} today, R shelf store →
    (r.findOverdue today).Matches R store (Shelf.repository.findOverdue today) shelf
  findDraftsBy : ∀ {shelf store} user, R shelf store →
    (r.findDraftsBy user).Matches R store (Shelf.repository.findDraftsBy user) shelf
  existsNumber : ∀ {shelf store} number, R shelf store →
    (r.existsNumber number).Matches R store (Shelf.repository.existsNumber number) shelf
  delete : ∀ {shelf store} id, R shelf store → shelf.Orderly →
    (r.delete id).Matches R store (Shelf.repository.delete id) shelf

/-- One call of any kind. -/
theorem Repository.Shows.call (h : r.Shows R) (hR : R shelf store) (horder : shelf.Orderly)
    (c : StoreCall) (hc : c.Admissible) :
    (r.call store c).1 = (Shelf.repository.call shelf c).1 ∧
      R (Shelf.repository.call shelf c).2 (r.call store c).2 := by
  cases c with
  | save inv => exact (h.save hR horder hc.1 hc.2).imp_left (congrArg StoreReply.saved)
  | findById id => exact (h.findById id hR).imp_left (congrArg StoreReply.found)
  | findByNumber number => exact (h.findByNumber number hR).imp_left (congrArg StoreReply.found)
  | findByClient client => exact (h.findByClient client hR).imp_left (congrArg StoreReply.listed)
  | findByStatus status => exact (h.findByStatus status hR).imp_left (congrArg StoreReply.listed)
  | findOverdue today => exact (h.findOverdue today hR).imp_left (congrArg StoreReply.listed)
  | findDraftsBy user => exact (h.findDraftsBy user hR).imp_left (congrArg StoreReply.listed)
  | existsNumber number => exact (h.existsNumber number hR).imp_left (congrArg StoreReply.told)
  | delete id => exact (h.delete id hR horder).imp_left (congrArg StoreReply.told)

/-- A store that shows a shelf answers like it. -/
theorem Repository.Shows.replies (h : r.Shows R) {calls : List StoreCall} (hR : R shelf store)
    (horder : shelf.Orderly) (hcalls : ∀ c ∈ calls, c.Admissible) :
    r.replies store calls = Shelf.repository.replies shelf calls := by
  induction calls generalizing store shelf with
  | nil => rfl
  | cons c calls ih =>
      rw [List.forall_mem_cons] at hcalls
      obtain ⟨hreply, hafter⟩ := h.call hR horder c hcalls.1
      rw [Repository.replies, Repository.replies, hreply, ih hafter (horder.call c) hcalls.2]

end Shows

end Billing
