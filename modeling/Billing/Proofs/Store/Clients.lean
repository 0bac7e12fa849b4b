import Billing.Proofs.Store.Memory
import Billing.Proofs.Store.Tables
import Mathlib.Logic.Function.Basic

set_option autoImplicit false

/-! # Clients that share a store

Any number of clients load invoices, give commands to their copies and save them, in any order, and
invoices are deleted in between. No update is lost (`no_lost_update`): a copy is only saved over
what it was made from, so what is stored of an invoice over time is a single chain of saves, and
all payments in them are kept.
-/

namespace Billing

namespace Keeping

/-- A copy of an invoice in the hands of a client. -/
structure Copy {σ : Type} (k : Keeping σ) where
  /-- what was stored when the copy was loaded or saved last, or nothing for a new invoice -/
  base : Option k.Stored
  /-- the invoice as it was then -/
  origin : Invoice
  /-- what the client has done to it since -/
  steps : List Step

/-- A store, the copies that clients hold, and what has been deleted from the store. -/
structure World {σ : Type} (k : Keeping σ) where
  store : σ
  copies : Nat → Option k.Copy
  deleted : List String

/-- A successful save: what was stored before it, the copy and what is stored after it. -/
structure Write {σ : Type} (k : Keeping σ) where
  before : Option k.Stored
  copy : k.Copy
  after : Option k.Stored

end Keeping

/-- What a client does. -/
inductive ClientAct where
  | load (id : String)
  | make (fields : InvoiceFields) (today : Date) (fresh : Fresh)
  | edit (step : Step)
  | save
  | delete (id : String)

namespace Keeping

variable {σ : Type} {k : Keeping σ}

namespace Copy

/-- The copy as it is now. -/
def current (c : k.Copy) : Invoice := c.origin.run c.steps

def id (c : k.Copy) : String := c.origin.id.text

/-- A copy of which nothing is stored yet. -/
def isNew (c : k.Copy) : Bool := c.base.isNone

end Copy

namespace World

/-- The clients before any of them does anything. -/
def start (k : Keeping σ) (store : σ) : k.World := ⟨store, fun _ => none, []⟩

/-- The same world, but for the copy of one client. -/
def hold (w : k.World) (client : Nat) (c : k.Copy) : k.World :=
  { w with copies := Function.update w.copies client (some c) }

/-- What a client does to the world, and what it writes in doing so. A client whose save fails
keeps its copy. -/
def act (w : k.World) (client : Nat) : ClientAct → k.World × Option k.Write
  | .load id =>
      match (k.repository.findById id).on w.store with
      | (.ok (some inv), store) =>
          ({ w with store }.hold client ⟨k.storedAt w.store id, inv, []⟩, none)
      | (_, store) => ({ w with store }, none)
  | .make fields today fresh =>
      match Invoice.create fields today fresh with
      | .ok inv => (w.hold client ⟨none, inv, []⟩, none)
      | .error _ => (w, none)
  | .edit step =>
      match w.copies client with
      | some c => (w.hold client { c with steps := c.steps ++ [step] }, none)
      | none => (w, none)
  | .save =>
      match w.copies client with
      | some c =>
          match (k.repository.save c.current).on w.store with
          | (.ok saved, store) =>
              let after := k.storedAt store c.id
              ({ w with store }.hold client ⟨after, saved, []⟩,
                some ⟨k.storedAt w.store c.id, c, after⟩)
          | (.error _, store) => ({ w with store }, none)
      | none => (w, none)
  | .delete id =>
      match (k.repository.delete id).on w.store with
      | (.ok true, store) => ({ w with store, deleted := id :: w.deleted }, none)
      | (_, store) => ({ w with store }, none)

/-- Whether what a client does is not to save a new invoice under an identifier that has been
deleted. -/
def admits (w : k.World) (client : Nat) : ClientAct → Bool
  | .save =>
      match w.copies client with
      | some c => !(c.isNew && w.deleted.contains c.id)
      | none => true
  | _ => true

/-- The world after the clients have taken turns. -/
def after (w : k.World) : List (Nat × ClientAct) → k.World
  | [] => w
  | (client, a) :: acts => (w.act client a).1.after acts

/-- The successful saves while the clients take turns. -/
def writes (w : k.World) : List (Nat × ClientAct) → List k.Write
  | [] => []
  | (client, a) :: acts => (w.act client a).2.toList ++ (w.act client a).1.writes acts

def admitsAll (w : k.World) : List (Nat × ClientAct) → Bool
  | [] => true
  | (client, a) :: acts => w.admits client a && (w.act client a).1.admitsAll acts

end World

/-! ## What is written -/

/-- The invoices that a client can start from: a stored one, or a new one. -/
def Loads (k : Keeping σ) : Option k.Stored → Invoice → Prop
  | some st, inv => k.read st = .ok inv
  | none, inv => ∃ fields today fresh, Invoice.create fields today fresh = .ok inv

/-- The version of what is stored, or 0 for a new invoice. -/
def versionOf (k : Keeping σ) : Option k.Stored → Int
  | some st => k.version st
  | none => 0

/-- What has been paid on what is stored, in cents. -/
def paidCents (k : Keeping σ) : Option k.Stored → Int
  | some st =>
      match k.read st with
      | .ok inv => inv.paid.amount.signedCents
      | .error _ => 0
  | none => 0

namespace Write

def id (wr : k.Write) : String := wr.copy.id

/-- What the payments in a save come to, in cents. -/
def cents (wr : k.Write) : Int := wr.copy.origin.acceptedCents wr.copy.steps

/-- What a save does. It writes over what its copy was made from, and what it writes is read as
that invoice, changed by the commands of the client, at the next version. -/
structure Succeeds (wr : k.Write) : Prop where
  base : wr.before = wr.copy.base
  loaded : ∃ inv st, k.Loads wr.before inv ∧ wr.after = some st ∧
    k.version st = k.versionOf wr.before + 1 ∧
    k.read st = .ok
      ({ inv.run wr.copy.steps with version := k.version st }.reread k.times) ∧
    wr.cents = inv.acceptedCents wr.copy.steps

end Write

/-- Saves one after the other, each over what the one before it has written. -/
inductive Chain (k : Keeping σ) : Option k.Stored → List k.Write → Option k.Stored → Prop where
  | nil (st : Option k.Stored) : Chain k st [] st
  | cons {wr : k.Write} {writes : List k.Write} {last : Option k.Stored} :
      wr.Succeeds → Chain k wr.after writes last → Chain k wr.before (wr :: writes) last

variable {w w' : k.World} {wr : k.Write} {write : Option k.Write} {c : k.Copy} {client : Nat}
  {a : ClientAct} {acts : List (Nat × ClientAct)}

/-! ## What a client can do to the store -/

/-- What is stored in a world. -/
def World.storedAt (w : k.World) (id : String) : Option k.Stored := k.storedAt w.store id

/-- An act does nothing to the store, deletes an invoice, or writes one over what its copy was made
from. -/
inductive Effect (w w' : k.World) : Option k.Write → Prop where
  | nothing : w'.storedAt = w.storedAt → w'.deleted = w.deleted → Effect w w' none
  | deleted {id : String} : (w.storedAt id).isSome → w'.storedAt id = none →
      (∀ other, other ≠ id → w'.storedAt other = w.storedAt other) →
      w'.deleted = id :: w.deleted → Effect w w' none
  | written {wr : k.Write} : wr.Succeeds → w.storedAt wr.id = wr.before → wr.id ∉ w.deleted →
      w'.storedAt wr.id = wr.after →
      (∀ other, other ≠ wr.id → w'.storedAt other = w.storedAt other) →
      w'.deleted = w.deleted → Effect w w' (some wr)

/-- What is known of the copies of clients. A new one has just been made. Any other is what it was
made from, and that is still stored, or has been overwritten, or deleted. -/
def World.Knows (w : k.World) (c : k.Copy) : Prop :=
  match c.base with
  | none => ∃ fields today fresh, Invoice.create fields today fresh = .ok c.origin
  | some st =>
      (∃ inv, k.read st = .ok inv ∧ Invoice.Alike k.times inv c.origin) ∧ c.origin.Proper ∧
        k.version st = c.origin.version ∧ 1 ≤ k.version st ∧
        (w.storedAt c.id = some st ∨
          (∃ cur, w.storedAt c.id = some cur ∧ k.version st < k.version cur) ∨
          (w.storedAt c.id = none ∧ c.id ∈ w.deleted))

/-- What holds of the world at all times. -/
structure World.Sound (w : k.World) : Prop where
  store : k.Sound w.store
  deleted : ∀ id ∈ w.deleted, w.storedAt id = none
  copies : ∀ client c, w.copies client = some c → w.Knows c

theorem World.Knows.effect (h : w.Knows c) (heffect : Effect w w' write) : w'.Knows c := by
  unfold World.Knows at h ⊢
  cases hbase : c.base with
  | none =>
      rw [hbase] at h
      exact h
  | some st =>
      rw [hbase] at h
      obtain ⟨hread, hproper, hversion, hpos, hstored⟩ := h
      refine ⟨hread, hproper, hversion, hpos, ?_⟩
      cases heffect with
      | nothing hkept hdeleted =>
          rw [hkept, hdeleted]
          exact hstored
      | @deleted id hsome hnone hothers hdeleted =>
          rw [hdeleted]
          by_cases hid : c.id = id
          · -- what the copy was made from is gone with its invoice
            exact .inr (.inr ⟨hid ▸ hnone, hid ▸ List.mem_cons_self⟩)
          · rw [hothers c.id hid]
            exact hstored.imp_right (.imp_right fun ⟨hn, hmem⟩ =>
              ⟨hn, List.mem_cons_of_mem _ hmem⟩)
      | @written wr hsucceeds hbefore hadmitted hafter hothers hdeleted =>
          rw [hdeleted]
          by_cases hid : c.id = wr.id
          · obtain ⟨_, st', _, hst', hgrows, _⟩ := hsucceeds.loaded
            -- the version has grown past all that were stored before
            right; left
            rw [hid] at hstored ⊢
            refine ⟨st', hafter.trans hst', ?_⟩
            rw [hgrows, ← hbefore]
            rcases hstored with hcur | ⟨cur, hcur, hlt⟩ | ⟨hnone, hmem⟩
            · rw [hcur]
              exact Int.lt_succ _
            · rw [hcur]
              exact hlt.trans (Int.lt_succ _)
            · exact absurd hmem hadmitted
          · rw [hothers c.id hid]
            exact hstored

/-! ## Saving -/

variable {saved : Invoice} {after : σ}

theorem Copy.current_id (c : k.Copy) : c.current.id.text = c.id :=
  congrArg Identifier.text (Invoice.id_version_run c.origin c.steps).1

theorem Copy.current_version (c : k.Copy) : c.current.version = c.origin.version :=
  (Invoice.id_version_run c.origin c.steps).2

theorem World.Knows.proper (h : w.Knows c) : c.origin.Proper := by
  unfold World.Knows at h
  cases hbase : c.base with
  | none =>
      rw [hbase] at h
      obtain ⟨fields, today, fresh, hcreate⟩ := h
      exact Invoice.proper_of_restore (Invoice.create_eq_ok hcreate).1
  | some st =>
      rw [hbase] at h
      exact h.2.1

/-- A copy is only saved over what it was made from. -/
theorem World.Knows.storedAt_of_saved (hk : k.Lawful) (hw : w.Sound) (h : w.Knows c)
    (hsaved : k.Saved c.current w.store saved after) : w.storedAt c.id = c.base := by
  have hcurrent := hsaved.current
  rw [c.current_id, c.current_version] at hcurrent
  -- the version that the save has checked is that of the copy
  unfold World.Knows at h
  cases hbase : c.base with
  | none =>
      rw [hbase] at h
      obtain ⟨fields, today, fresh, hcreate⟩ := h
      rcases hcurrent with ⟨hnone, -⟩ | ⟨st, hst, hversion⟩
      · exact hnone
      · -- what is stored has a version from 1
        have hpos := hk.version_pos hw.store hst
        have hzero := Invoice.version_of_create hcreate
        omega
  | some st =>
      rw [hbase] at h
      obtain ⟨-, -, hversion, hpos, hstored⟩ := h
      rcases hcurrent with ⟨-, hzero⟩ | ⟨cur, hcur, hsame⟩
      · omega
      · rcases hstored with hst | ⟨cur', hcur', hlt⟩ | ⟨hnone, -⟩
        · exact hst
        · obtain rfl : cur = cur' := Option.some.inj (hcur.symm.trans hcur')
          omega
        · exact absurd (hnone.symm.trans hcur) nofun

theorem reread_version (inv : Invoice) (f : Moment → Moment) (version : Int) :
    { inv with version }.reread f = { inv.reread f with version } := rfl

theorem World.Knows.succeeds (hk : k.Lawful) (hw : w.Sound) (h : w.Knows c)
    (hsaved : k.Saved c.current w.store saved after) :
    Write.Succeeds ⟨w.storedAt c.id, c, k.storedAt after c.id⟩ := by
  have hbase := h.storedAt_of_saved hk hw hsaved
  refine ⟨hbase, ?_⟩
  obtain ⟨st, hst, hversion, hread⟩ := hsaved.stored
  rw [c.current_id] at hst
  have hread := hread (h.proper.run c.steps).oneCurrency
  rw [hsaved.counted, ← hversion, reread_version] at hread
  rw [c.current_version] at hversion
  rw [hbase]
  unfold World.Knows at h
  cases hc : c.base with
  | none =>
      rw [hc] at h
      obtain ⟨fields, today, fresh, hcreate⟩ := h
      have hzero := Invoice.version_of_create hcreate
      refine ⟨c.origin, st, ⟨fields, today, fresh, hcreate⟩, hst, ?_, hread, rfl⟩
      rw [hversion, hzero]
      rfl
  | some old =>
      rw [hc] at h
      obtain ⟨⟨inv, hinv, halike⟩, -, hold, -⟩ := h
      refine ⟨inv, st, hinv, hst, ?_, ?_, (halike.acceptedCents c.steps).symm⟩
      · rw [hversion, ← hold]
        rfl
      · -- it makes no difference whether the client has read its own save again
        have hrun : (inv.run c.steps).reread k.times = c.current.reread k.times :=
          halike.run c.steps
        rw [reread_version, hrun]
        exact hread

/-! ## One act -/

theorem World.Sound.effect (h : w.Sound) (heffect : Effect w w' write)
    (hstore : k.Sound w'.store) (hcopies : w'.copies = w.copies) : w'.Sound := by
  refine ⟨hstore, ?_, ?_⟩
  · intro id hid
    cases heffect with
    | nothing hkept hdeleted =>
        rw [hkept]
        exact h.deleted id (hdeleted ▸ hid)
    | @deleted gone hsome hnone hothers hdeleted =>
        by_cases heq : id = gone
        · exact heq ▸ hnone
        · rw [hothers id heq]
          rw [hdeleted] at hid
          exact h.deleted id ((List.mem_cons.1 hid).resolve_left heq)
    | @written wr hsucceeds hbefore hadmitted hafter hothers hdeleted =>
        rw [hdeleted] at hid
        -- what is written has not been deleted
        have hne : id ≠ wr.id := fun heq => hadmitted (heq ▸ hid)
        rw [hothers id hne]
        exact h.deleted id hid
  · intro client c hc
    rw [hcopies] at hc
    exact (h.copies client c hc).effect heffect

theorem World.sound_start {store : σ} (h : k.Sound store) : (World.start k store).Sound where
  store := h
  deleted _ hid := absurd hid List.not_mem_nil
  copies _ _ hc := nomatch hc

theorem World.Sound.hold (h : w.Sound) (hc : w.Knows c) (client : Nat) :
    (w.hold client c).Sound := by
  refine ⟨h.store, h.deleted, fun other c' hc' => ?_⟩
  by_cases hother : other = client
  · rw [hother] at hc'
    have hsame : (w.hold client c).copies client = some c := Function.update_self ..
    obtain rfl := Option.some.inj (hsame.symm.trans hc')
    exact hc
  · have hkept : (w.hold client c).copies other = w.copies other :=
      Function.update_of_ne hother ..
    exact h.copies other c' (hkept.symm.trans hc')

/-- The copies that clients hold are not in the store. -/
theorem Effect.hold (h : Effect w w' write) (client : Nat) (c : k.Copy) :
    Effect w (w'.hold client c) write := by
  cases h with
  | nothing hkept hdeleted => exact .nothing hkept hdeleted
  | deleted hsome hnone hothers hdeleted => exact .deleted hsome hnone hothers hdeleted
  | written hsucceeds hbefore hadmitted hafter hothers hdeleted =>
      exact .written hsucceeds hbefore hadmitted hafter hothers hdeleted

/-- A loaded copy is what is stored. -/
theorem World.Sound.knows_loaded (hk : k.Lawful) (h : w.Sound) {id : String} {inv : Invoice}
    (hload : k.lookup (w.storedAt id) = .ok (some inv)) :
    w.Knows ⟨w.storedAt id, inv, []⟩ := by
  obtain ⟨st, hst, hread⟩ := lookup_eq_some_iff.1 hload
  obtain ⟨hid, hversion, hproper⟩ := hk.read h.store hst hread
  rw [hst]
  refine ⟨⟨inv, hread, rfl⟩, hproper, hversion.symm, hk.version_pos h.store hst, .inl ?_⟩
  rw [Copy.id, hid]
  exact hst

/-- A copy that has been saved is what is stored then. -/
theorem World.Knows.after_save (hk : k.Lawful) (h : w.Knows c)
    (hsaved : k.Saved c.current w.store saved after) :
    World.Knows { w with store := after } ⟨k.storedAt after c.id, saved, []⟩ := by
  obtain ⟨st, hst, hversion, hread⟩ := hsaved.stored
  have hproper : c.current.Proper := h.proper.run c.steps
  have hsavedProper : saved.Proper := by
    rw [hsaved.counted]
    exact hproper.atVersion _
  have hid : saved.id.text = c.id := by
    rw [hsaved.counted]
    exact c.current_id
  have hpos : 1 ≤ k.version st := hk.version_pos hsaved.sound hst
  rw [c.current_id] at hst
  rw [hst]
  refine ⟨⟨_, hread hproper.oneCurrency, hsavedProper.alike_reread hk.times_times⟩, hsavedProper,
    ?_, hpos, .inl ?_⟩
  · rw [hversion, hsaved.counted]
  · rw [Copy.id, hid]
    exact hst

/-- What has been deleted is not stored, so it is only written by saving a new invoice. -/
theorem World.Knows.effect_of_saved (hk : k.Lawful) (hw : w.Sound) (h : w.Knows c)
    (hadmits : (!(c.isNew && w.deleted.contains c.id)) = true)
    (hsaved : k.Saved c.current w.store saved after) :
    Effect w { w with store := after } (some ⟨w.storedAt c.id, c, k.storedAt after c.id⟩) := by
  have hadmitted : c.id ∉ w.deleted := by
    intro hmem
    have hnone := hw.deleted c.id hmem
    have hnew : c.isNew = true := by
      rw [Copy.isNew, ← h.storedAt_of_saved hk hw hsaved, hnone]
      rfl
    simp [hnew, hmem] at hadmits
  refine .written (h.succeeds hk hw hsaved) rfl hadmitted rfl (fun other hother => ?_) rfl
  exact hsaved.others other (c.current_id ▸ hother)

theorem World.Sound.act (hk : k.Lawful) (h : w.Sound) (hadmits : w.admits client a = true) :
    (w.act client a).1.Sound ∧ Effect w (w.act client a).1 (w.act client a).2 := by
  have hnothing : Effect w w none := .nothing rfl rfl
  cases a with
  | load id =>
      have hread := hk.findById id h.store
      unfold Access.Reads at hread
      rw [World.act, hread]
      cases hlookup : k.lookup (k.storedAt w.store id) with
      | error e => exact ⟨h, hnothing⟩
      | ok found =>
          cases found with
          | none => exact ⟨h, hnothing⟩
          | some inv =>
              exact ⟨h.hold (h.knows_loaded hk hlookup) client, .nothing rfl rfl⟩
  | make fields today fresh =>
      rw [World.act]
      cases hcreate : Invoice.create fields today fresh with
      | error e => exact ⟨h, hnothing⟩
      | ok inv =>
          have hknows : w.Knows ⟨none, inv, []⟩ := ⟨fields, today, fresh, hcreate⟩
          exact ⟨h.hold hknows client, .nothing rfl rfl⟩
  | edit step =>
      rw [World.act]
      cases hc : w.copies client with
      | none => exact ⟨h, hnothing⟩
      | some c =>
          have hknows : w.Knows { c with steps := c.steps ++ [step] } := h.copies client c hc
          exact ⟨h.hold hknows client, .nothing rfl rfl⟩
  | save =>
      rw [World.act]
      rw [World.admits] at hadmits
      cases hc : w.copies client with
      | none => exact ⟨h, hnothing⟩
      | some c =>
          have hknows := h.copies client c hc
          simp only [hc] at hadmits ⊢
          cases hsave : (k.repository.save c.current).on w.store with
          | mk r after =>
              cases r with
              | error e =>
                  obtain rfl := hk.save_error hsave
                  exact ⟨h, hnothing⟩
              | ok saved =>
                  have hsaved := hk.save h.store hsave
                  have heffect := hknows.effect_of_saved hk h hadmits hsaved
                  have hsound := h.effect heffect hsaved.sound rfl
                  exact ⟨hsound.hold (hknows.after_save hk hsaved) client, heffect.hold client _⟩
  | delete id =>
      rw [World.act]
      cases hdelete : (k.repository.delete id).on w.store with
      | mk r after =>
          obtain ⟨hsound, rfl, hnone, hothers⟩ := hk.delete h.store hdelete
          cases hstored : (k.storedAt w.store id).isSome with
          | true =>
              have heffect : Effect w { w with store := after, deleted := id :: w.deleted } none :=
                .deleted hstored hnone hothers rfl
              exact ⟨h.effect heffect hsound rfl, heffect⟩
          | false =>
              have hkept : World.storedAt { w with store := after } = w.storedAt := by
                funext other
                by_cases hother : other = id
                · have hbefore : k.storedAt w.store id = none := by
                    simpa using hstored
                  rw [hother]
                  show k.storedAt after id = k.storedAt w.store id
                  rw [hnone, hbefore]
                · exact hothers other hother
              have heffect : Effect w { w with store := after } none := .nothing hkept rfl
              exact ⟨h.effect heffect hsound rfl, heffect⟩

/-! ## Any number of acts -/

/-- The saves of one invoice while the clients take turns. -/
def World.writesOf (w : k.World) (acts : List (Nat × ClientAct)) (id : String) : List k.Write :=
  (w.writes acts).filter fun wr => wr.id == id

theorem World.writesOf_cons (w : k.World) (client : Nat) (a : ClientAct)
    (acts : List (Nat × ClientAct)) (id : String) :
    w.writesOf ((client, a) :: acts) id =
      ((w.act client a).2.toList.filter fun wr => wr.id == id) ++
        (w.act client a).1.writesOf acts id := by
  rw [writesOf, writes, List.filter_append]
  rfl

theorem World.Sound.after_acts (hk : k.Lawful) (h : w.Sound) (hadmits : w.admitsAll acts = true) :
    (w.after acts).Sound := by
  induction acts generalizing w with
  | nil => exact h
  | cons act acts ih =>
      obtain ⟨client, a⟩ := act
      rw [admitsAll, Bool.and_eq_true] at hadmits
      show ((w.act client a).1.after acts).Sound
      exact ih (h.act hk hadmits.1).1 hadmits.2

/-- An invoice that has been deleted is not written again. -/
theorem World.Sound.writesOf_deleted (hk : k.Lawful) (h : w.Sound)
    (hadmits : w.admitsAll acts = true) {id : String} (hid : id ∈ w.deleted) :
    w.writesOf acts id = [] ∧ id ∈ (w.after acts).deleted := by
  induction acts generalizing w with
  | nil => exact ⟨rfl, hid⟩
  | cons act acts ih =>
      obtain ⟨client, a⟩ := act
      rw [admitsAll, Bool.and_eq_true] at hadmits
      obtain ⟨hsound, heffect⟩ := h.act hk hadmits.1
      rw [writesOf_cons, World.after]
      generalize (w.act client a).1 = w', (w.act client a).2 = write at *
      cases heffect with
      | nothing hkept hdeleted => exact ih hsound hadmits.2 (hdeleted ▸ hid)
      | deleted hsome hnone hothers hdeleted =>
          exact ih hsound hadmits.2 (hdeleted ▸ List.mem_cons_of_mem _ hid)
      | @written wr hsucceeds hbefore hadmitted hafter hothers hdeleted =>
          have hne : wr.id ≠ id := fun heq => hadmitted (heq ▸ hid)
          obtain ⟨hnil, hmem⟩ := ih hsound hadmits.2 (hdeleted ▸ hid)
          refine ⟨?_, hmem⟩
          rw [hnil]
          simp [hne]

/-- What is stored of an invoice is the end of a chain of saves, unless the invoice has been
deleted. -/
theorem World.Sound.chain (hk : k.Lawful) (h : w.Sound) (hadmits : w.admitsAll acts = true)
    (id : String) :
    ∃ last, Chain k (w.storedAt id) (w.writesOf acts id) last ∧
      ((w.after acts).storedAt id = last ∨
        (w.after acts).storedAt id = none ∧ id ∈ (w.after acts).deleted) := by
  induction acts generalizing w with
  | nil => exact ⟨w.storedAt id, .nil _, .inl rfl⟩
  | cons act acts ih =>
      obtain ⟨client, a⟩ := act
      rw [admitsAll, Bool.and_eq_true] at hadmits
      obtain ⟨hsound, heffect⟩ := h.act hk hadmits.1
      obtain ⟨last, hchain, hlast⟩ := ih hsound hadmits.2
      have hgone (hid : id ∈ (w.act client a).1.deleted) :=
        hsound.writesOf_deleted hk hadmits.2 hid
      have hend := (hsound.after_acts hk hadmits.2).deleted id
      rw [writesOf_cons, World.after]
      -- the chain of the other acts goes on from where the first one leads
      generalize (w.act client a).1 = w', (w.act client a).2 = write at *
      cases heffect with
      | nothing hkept hdeleted => exact ⟨last, hkept ▸ hchain, hlast⟩
      | @deleted gone hsome hnone hothers hdeleted =>
          by_cases hid : id = gone
          · -- no save follows, so the chain ends with what was stored before
            obtain ⟨hnil, hmem⟩ := hgone (hdeleted ▸ hid ▸ List.mem_cons_self)
            refine ⟨w.storedAt id, ?_, .inr ⟨hend hmem, hmem⟩⟩
            rw [hnil]
            exact .nil _
          · exact ⟨last, hothers id hid ▸ hchain, hlast⟩
      | @written wr hsucceeds hbefore hadmitted hafter hothers hdeleted =>
          refine ⟨last, ?_, hlast⟩
          by_cases hid : wr.id = id
          · -- a save of the invoice is one more link in front
            subst hid
            rw [hafter] at hchain
            rw [hbefore]
            simpa using Chain.cons hsucceeds hchain
          · rw [hothers id (Ne.symm hid)] at hchain
            simpa [hid] using hchain

theorem World.Sound.succeeds (hk : k.Lawful) (h : w.Sound) (hadmits : w.admitsAll acts = true) :
    ∀ wr ∈ w.writes acts, wr.Succeeds := by
  induction acts generalizing w with
  | nil => exact fun wr hwr => nomatch hwr
  | cons act acts ih =>
      obtain ⟨client, a⟩ := act
      rw [admitsAll, Bool.and_eq_true] at hadmits
      obtain ⟨hsound, heffect⟩ := h.act hk hadmits.1
      intro wr hwr
      rcases List.mem_append.1 hwr with hwr | hwr
      · generalize (w.act client a).1 = w', (w.act client a).2 = write at *
        cases heffect with
        | nothing => cases hwr
        | deleted => cases hwr
        | written hsucceeds =>
            obtain rfl := List.mem_singleton.1 hwr
            exact hsucceeds
      · exact ih hsound hadmits.2 wr hwr

/-! ## Payments -/

/-- A save adds the payments that are in it. -/
theorem Write.Succeeds.paidCents (h : wr.Succeeds) :
    k.paidCents wr.after = k.paidCents wr.before + wr.cents := by
  obtain ⟨inv, st, hloads, hafter, -, hread, hcents⟩ := h.loaded
  have hbefore : k.paidCents wr.before = inv.paid.amount.signedCents := by
    cases hst : wr.before with
    | none =>
        rw [hst] at hloads
        obtain ⟨fields, today, fresh, hcreate⟩ := hloads
        exact (Invoice.paid_of_create hcreate).symm
    | some old =>
        rw [hst] at hloads
        have hloads : k.read old = .ok inv := hloads
        simp only [Keeping.paidCents, hloads]
  -- what is read again has the same payments
  have hpaid : k.paidCents wr.after = (inv.run wr.copy.steps).paid.amount.signedCents := by
    simp only [hafter, Keeping.paidCents, hread]
    rfl
  calc k.paidCents wr.after
      = (inv.run wr.copy.steps).paid.amount.signedCents := hpaid
    _ = inv.paid.amount.signedCents + inv.acceptedCents wr.copy.steps := Invoice.paid_run ..
    _ = k.paidCents wr.before + wr.cents := by rw [hbefore, hcents]

theorem Chain.paidCents {st last : Option k.Stored} {writes : List k.Write}
    (h : Chain k st writes last) :
    k.paidCents last = k.paidCents st + (writes.map Write.cents).sum := by
  induction h with
  | nil st => simp
  | @cons wr writes last hsucceeds _ ih =>
      calc k.paidCents last
          = k.paidCents wr.after + (writes.map Write.cents).sum := ih
        _ = k.paidCents wr.before + wr.cents + (writes.map Write.cents).sum := by
            rw [hsucceeds.paidCents]
        _ = k.paidCents wr.before + ((wr :: writes).map Write.cents).sum := by
            rw [List.map_cons, List.sum_cons, add_assoc]

end Keeping

/-! ## Both stores -/

/-- Where invoices are kept. -/
inductive Backend where
  | memory
  | tables

namespace Backend

def Store : Backend → Type
  | memory => MemoryStore
  | tables => Tables

def keeping : (b : Backend) → Keeping b.Store
  | memory => MemoryStore.keeping
  | tables => Tables.keeping

theorem lawful (b : Backend) : b.keeping.Lawful := by
  cases b with
  | memory => exact MemoryStore.lawful
  | tables => exact Tables.lawful

end Backend

open Keeping in
/-- No update is lost, wherever invoices are kept and in whatever order clients take turns. A copy
is only saved over what it was loaded from, or over what its own last save has written. So what is
stored of an invoice is the end of a chain, each link of which is the one before it, loaded, changed
and saved at the next version, up to the time when the invoice is deleted; and what has been paid at
the end is what had been paid at first and all payments in the chain. -/
theorem no_lost_update (b : Backend) (store : b.Store) (acts : List (Nat × ClientAct))
    (reached : b.keeping.Reached store)
    (admits : (World.start b.keeping store).admitsAll acts = true) :
    (∀ wr ∈ (World.start b.keeping store).writes acts, wr.before = wr.copy.base) ∧
    ∀ id, ∃ last,
      Chain b.keeping (b.keeping.storedAt store id)
        ((World.start b.keeping store).writesOf acts id) last ∧
      (((World.start b.keeping store).after acts).storedAt id = last ∨
        ((World.start b.keeping store).after acts).storedAt id = none ∧
          id ∈ ((World.start b.keeping store).after acts).deleted) ∧
      b.keeping.paidCents last = b.keeping.paidCents (b.keeping.storedAt store id) +
        (((World.start b.keeping store).writesOf acts id).map Write.cents).sum := by
  have hsound := World.sound_start (b.lawful.sound reached)
  refine ⟨fun wr hwr => (hsound.succeeds b.lawful admits wr hwr).base, fun id => ?_⟩
  obtain ⟨last, hchain, hlast⟩ := hsound.chain b.lawful admits id
  exact ⟨last, hchain, hlast, hchain.paidCents⟩

namespace Invoice

/-- A store in which the sent sample invoice has been saved. -/
def sampleStore : MemoryStore :=
  ((MemoryStore.repository.save (sample.run sampleSending)).on MemoryStore.empty).2

/-- Two clients load the sample invoice and record a payment each. The second to save has to load
the invoice once more. -/
def sampleTurns : List (Nat × ClientAct) :=
  [(0, .load sample.id.text), (1, .load sample.id.text), (0, .edit samplePayment),
    (1, .edit sampleRest), (0, .save), (1, .save), (1, .load sample.id.text),
    (1, .edit sampleRest), (1, .save)]

open Keeping in
theorem no_lost_update_sample :
    (World.start Backend.memory.keeping sampleStore).admitsAll sampleTurns = true ∧
      ∃ last, (((World.start Backend.memory.keeping sampleStore).after sampleTurns).storedAt
          sample.id.text = last ∨
        ((World.start Backend.memory.keeping sampleStore).after sampleTurns).storedAt
          sample.id.text = none) ∧
        Backend.memory.keeping.paidCents last = 1000 := by
  have hreached : Backend.memory.keeping.Reached sampleStore := .save _ .empty
  have hadmits : (World.start Backend.memory.keeping sampleStore).admitsAll sampleTurns = true := by
    decide +kernel
  obtain ⟨last, -, hlast, hpaid⟩ :=
    (no_lost_update .memory sampleStore sampleTurns hreached hadmits).2 sample.id.text
  refine ⟨hadmits, last, hlast.imp_right And.left, ?_⟩
  rw [hpaid]
  decide +kernel

end Invoice

end Billing
