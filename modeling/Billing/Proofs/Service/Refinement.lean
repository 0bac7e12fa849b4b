import Billing.Proofs.Service.Call
import Billing.Proofs.Store.Loaded

set_option autoImplicit false

/-! # The service does what invoices do

Calls of the service on a stored invoice go like the commands on a copy of it that is kept in hand:
each call loads what the one before it has saved, and nothing is lost on the way. With no other
writer, the service refines the domain (`service_refines_domain`). There is one difference in what
fails: a payment that is neither money nor a tax rate, and so cannot be reported, is refused by the
service itself and not by the invoice (`Step.reply`).
-/

namespace Billing

/-- What the calls of a service on an invoice give, one after the other and each at its own present
moment, and the desk after them. -/
def Service.performAll {σ : Type} (s : Service σ) (id : String) :
    List Step → Desk σ → List (Except StoreFailure Invoice) × Desk σ
  | [], desk => ([], desk)
  | step :: steps, desk =>
      let (reply, next) := ({ s with clock := step.clock }.perform id step.command).on desk
      let (replies, last) := s.performAll id steps next
      (reply :: replies, last)

open Access Invoice Procedure

/-- What the service gives for a step whose command has an outcome on a copy of the invoice. If the
command cannot be reported, the service fails before it has loaded the invoice. -/
def Step.reply (step : Step) (outcome : Except Failure Invoice) : Except StoreFailure Invoice :=
  if Service.isReportable step.command then refusing outcome else .error .noDisplay

variable {b : Backend} {s : Service b.Store} {desk : Desk b.Store} {inv : Invoice} {step : Step}
  {steps : List Step} {version : Int}

/-- Payments of money can be reported, and so can all other commands. -/
theorem Service.isReportable_of_money {command : Command}
    (h : ∀ payment now, command = .recordPayment payment now → ∃ m, payment = .money m) :
    Service.isReportable command = true := by
  cases command with
  | recordPayment payment now =>
      obtain ⟨m, rfl⟩ := h payment now rfl
      rfl
  | _ => rfl

theorem Step.reply_of_reportable (report : Service.isReportable step.command = true)
    (outcome : Except Failure Invoice) : step.reply outcome = refusing outcome := if_pos report

theorem Step.reply_of_not_reportable (report : Service.isReportable step.command = false)
    (outcome : Except Failure Invoice) : step.reply outcome = .error .noDisplay :=
  if_neg (ne_true_of_eq_false report)

/-- The version at which an outcome is told does not matter where versions are set aside. -/
theorem map_reply_atVersion (step : Step) (version other : Int) (r : Except Failure Invoice) :
    (step.reply (r.map (atVersion other))).map (atVersion version) =
      step.reply (r.map (atVersion version)) := by
  unfold Step.reply
  split
  · cases r <;> rfl
  · rfl

/-- Replies to steps that can be reported are the outcomes of the commands. -/
theorem zipWith_reply_outcomes (inv : Invoice)
    (report : ∀ step ∈ steps, Service.isReportable step.command = true) :
    List.zipWith Step.reply steps (inv.outcomes steps) = (inv.outcomes steps).map refusing := by
  induction steps generalizing inv with
  | nil => rfl
  | cons step steps ih =>
      rw [List.forall_mem_cons] at report
      rw [outcomes, List.zipWith_cons_cons, step.reply_of_reportable report.1, ih _ report.2,
        List.map_cons]

/-- What cannot be reported is no payment of money, and so the invoice refuses it as well. -/
theorem Invoice.not_accepts_of_not_reportable (inv : Invoice)
    (report : Service.isReportable step.command = false) : inv.accepts step = false := by
  obtain ⟨clock, command⟩ := step
  cases command with
  | recordPayment payment now =>
      have hother : ∀ m, payment ≠ .money m := by
        rintro m rfl
        cases report
      obtain ⟨e, he⟩ := on_recordPayment_other (now.getD clock) inv hother
      simp only [accepts, apply, on_bind, he]
  | _ => cases report

namespace Backend

/-- What has become of a store by calls on one invoice: it has the invoice as that is by now, and
all others as they were. -/
structure Became (b : Backend) (id : String) (store after : b.Store) (inv : Invoice) : Prop where
  ready : b.Ready after inv
  others : ∀ other, other ≠ id → b.keeping.storedAt after other = b.keeping.storedAt store other

theorem Became.trans {id : String} {store mid last : b.Store} {inv' : Invoice}
    (first : b.Became id store mid inv) (second : b.Became id mid last inv') :
    b.Became id store last inv' where
  ready := second.ready
  others other hne := (second.others other hne).trans (first.others other hne)

/-! ## One call -/

/-- A call that can be reported gives what the command gives on a copy of the invoice at any
version. If it succeeds the store has the changed invoice at the next version, and otherwise the one
it had. -/
theorem Ready.perform_of_reportable (h : b.Ready desk.store (inv.atVersion version))
    (report : Service.isReportable step.command = true)
    (repository : s.repository = b.keeping.repository)
    (universal : ∀ m ∈ step.command.moment? step.clock, m.offset = some 0)
    (computable : ∃ m, (inv.after step).balanceDue = .ok m)
    (limit : b = .tables → version + 1 < 2 ^ 63) :
    ∃ reply store next,
      ({ s with clock := step.clock }.perform inv.id.text step.command).on desk =
          (reply, { desk with store }) ∧
        reply = refusing ((inv.outcome step).map (atVersion next)) ∧
        next = version + (if reply.isOk then 1 else 0) ∧
        b.Became inv.id.text desk.store store ((inv.after step).atVersion next) := by
  have hloaded : (s.repository.findById inv.id.text).Reads desk.store
      (.ok (some (inv.atVersion version))) := repository ▸ h.holds.loaded
  have hperform := Service.on_perform { s with clock := step.clock } report hloaded
  have hresult : (Invoice.apply step.clock step.command).result (inv.atVersion version) =
      (inv.outcome step).map (atVersion version) := outcome_atVersion version inv step
  rw [hresult] at hperform
  cases haccepts : inv.accepts step with
  | false =>
      obtain ⟨e, he⟩ := outcome_of_not_accepts haccepts
      rw [he] at hperform
      refine ⟨_, desk.store, version, hperform, ?_, (add_zero version).symm, ?_, fun _ _ => rfl⟩
      · rw [he]
        rfl
      · -- a command that fails changes neither the copy nor the store
        rw [after_of_not_accepts haccepts]
        exact h
  | true =>
      have houtcome := outcome_of_accepts haccepts
      rw [houtcome] at hperform
      obtain ⟨result, hchange⟩ :=
        change_of_accepts ((accepts_atVersion version inv step).trans haccepts)
      rw [after_atVersion] at hchange
      obtain ⟨store, hsave, hready, hothers⟩ := h.save hchange universal computable limit
      have hsave : (s.repository.save ((inv.after step).atVersion version)).on desk.store =
          (.ok ((inv.after step).atVersion (version + 1)), store) := repository ▸ hsave
      refine ⟨.ok ((inv.after step).atVersion (version + 1)), store, version + 1, ?_, ?_, rfl,
        hready, hothers⟩
      · rw [hperform]
        show (((s.repository.save ((inv.after step).atVersion version)).on desk.store).1, _) = _
        rw [hsave]
      · rw [houtcome]
        rfl

/-- What comes of a call, whether it can be reported or not. -/
theorem Ready.perform (h : b.Ready desk.store (inv.atVersion version))
    (repository : s.repository = b.keeping.repository)
    (universal : ∀ m ∈ step.command.moment? step.clock, m.offset = some 0)
    (computable : ∃ m, (inv.after step).balanceDue = .ok m)
    (limit : b = .tables → version + 1 < 2 ^ 63) :
    ∃ reply store next,
      ({ s with clock := step.clock }.perform inv.id.text step.command).on desk =
          (reply, { desk with store }) ∧
        reply = step.reply ((inv.outcome step).map (atVersion next)) ∧
        next = version + (if reply.isOk then 1 else 0) ∧
        b.Became inv.id.text desk.store store ((inv.after step).atVersion next) := by
  cases report : Service.isReportable step.command with
  | true =>
      obtain ⟨reply, store, next, hperform, hreply, hrest⟩ :=
        h.perform_of_reportable report repository universal computable limit
      exact ⟨reply, store, next, hperform, hreply.trans (step.reply_of_reportable report _).symm,
        hrest⟩
  | false =>
      have hperform := Service.on_perform_of_not_reportable { s with clock := step.clock }
        inv.id.text report desk
      refine ⟨_, desk.store, version, hperform, (step.reply_of_not_reportable report _).symm,
        (add_zero version).symm, ?_, fun _ _ => rfl⟩
      -- the copy refuses the payment, too, and stays as it was
      rw [after_of_not_accepts (inv.not_accepts_of_not_reportable report)]
      exact h

/-! ## A run of calls -/

theorem Ready.performAll (h : b.Ready desk.store (inv.atVersion version))
    (repository : s.repository = b.keeping.repository)
    (universal : ∀ step ∈ steps, ∀ m ∈ step.command.moment? step.clock, m.offset = some 0)
    (computable : ∀ done, done <+: steps → ∃ m, (inv.run done).balanceDue = .ok m)
    (limit : b = .tables → version + steps.length < 2 ^ 63) :
    ∃ replies store,
      s.performAll inv.id.text steps desk = (replies, { desk with store }) ∧
        (∀ fixed, replies.map (Except.map (atVersion fixed)) =
          List.zipWith Step.reply steps
            ((inv.outcomes steps).map (Except.map (atVersion fixed)))) ∧
        b.Became inv.id.text desk.store store
          ((inv.run steps).atVersion (version + replies.countP Except.isOk)) := by
  induction steps generalizing desk inv version with
  | nil => exact ⟨[], desk.store, rfl, fun _ => rfl, by simpa using h, fun _ _ => rfl⟩
  | cons step steps ih =>
      have hcomputable := computable [step] (List.prefix_append [step] steps)
      have hlength : b = .tables → version + (steps.length + 1) < 2 ^ 63 := by
        simpa using limit
      obtain ⟨reply, store, next, hperform, hreply, hnext, hbecame⟩ :=
        h.perform repository (universal step List.mem_cons_self) hcomputable fun hb => by
          have := hlength hb
          omega
      have hid : (inv.after step).id = inv.id := (id_version_run inv [step]).1
      -- the other calls find what the first one has left
      obtain ⟨replies, last, hrest, hreplies, hlast⟩ :=
        @ih { desk with store } _ next hbecame.ready
          (fun s hs => universal s (List.mem_cons_of_mem _ hs))
          (fun done hdone => computable (step :: done) (List.cons_prefix_cons.2 ⟨rfl, hdone⟩))
          fun hb => by
            have := hlength hb
            split at hnext <;> omega
      rw [hid] at hrest hlast
      have hcount : version + ((reply :: replies).countP Except.isOk : Int) =
          next + (replies.countP Except.isOk : Int) := by
        rw [List.countP_cons, hnext]
        split <;> push_cast <;> omega
      refine ⟨reply :: replies, last, ?_, fun fixed => ?_, ?_⟩
      · rw [Service.performAll, hperform]
        show (reply :: (s.performAll inv.id.text steps { desk with store }).1,
          (s.performAll inv.id.text steps { desk with store }).2) = _
        rw [hrest]
      · rw [List.map_cons, outcomes, List.map_cons, List.zipWith_cons_cons, hreplies, hreply,
          map_reply_atVersion]
      · rw [hcount]
        exact hbecame.trans hlast

end Backend

/-- The service refines the domain. The calls on a stored invoice that nobody else writes give what
the commands give on one copy of it, loaded before the first call: they succeed when the commands
do, with the same invoice but for its version, and fail with the same failures. All payments are
taken to be money for that; what is neither money nor a tax rate is refused in either way, but the
service then fails without having loaded the invoice (`Step.reply`). At the end the store gives back
that copy, with one version more for each call that has succeeded, and it has all other invoices as
they were. In tables, versions must fit into 64 bits. -/
theorem service_refines_domain (b : Backend) (s : Service b.Store) (desk : Desk b.Store)
    (id : String) (inv : Invoice) (steps : List Step)
    (repository : s.repository = b.keeping.repository) (used : b.keeping.Used desk.store)
    (loaded : (s.repository.findById id).on desk.store = (.ok (some inv), desk.store))
    (universal : ∀ step ∈ steps, ∀ m ∈ step.command.moment? step.clock, m.offset = some 0)
    (computable : ∀ done, done <+: steps → ∃ m, (inv.run done).balanceDue = .ok m)
    (limit : b = .tables → inv.version + steps.length < 2 ^ 63) :
    ∃ replies store,
      s.performAll id steps desk = (replies, { desk with store }) ∧
        replies.map (Except.map (atVersion inv.version)) =
          List.zipWith Step.reply steps (inv.outcomes steps) ∧
        ((∀ step ∈ steps, ∀ payment now, step.command = .recordPayment payment now →
            ∃ m, payment = .money m) →
          replies.map (Except.map (atVersion inv.version)) =
            (inv.outcomes steps).map refusing) ∧
        (s.repository.findById id).on store = (.ok (some ((inv.run steps).atVersion
          (inv.version + replies.countP Except.isOk))), store) ∧
        ∀ other, other ≠ id →
          b.keeping.storedAt store other = b.keeping.storedAt desk.store other := by
  obtain ⟨rfl, hready⟩ := Backend.ready_of_loaded used (repository ▸ loaded)
  -- to begin with, the copy has the version that is stored
  have hready : b.Ready desk.store (inv.atVersion inv.version) := hready
  obtain ⟨replies, store, hperform, hreplies, hbecame⟩ :=
    hready.performAll repository universal computable limit
  -- the copy keeps the version at which it was loaded
  have houtcomes : (inv.outcomes steps).map (Except.map (atVersion inv.version)) =
      inv.outcomes steps := (outcomes_atVersion inv.version inv steps).symm
  have hreplies := hreplies inv.version
  rw [houtcomes] at hreplies
  refine ⟨replies, store, hperform, hreplies, fun hmoney => ?_, ?_, hbecame.others⟩
  · rw [hreplies]
    exact zipWith_reply_outcomes inv fun step hstep =>
      Service.isReportable_of_money (hmoney step hstep)
  · have hid : (inv.run steps).id = inv.id := (id_version_run inv steps).1
    have hread := hbecame.ready.holds.loaded
    rw [repository, ← hid]
    exact hread

namespace Invoice

/-- Tables in which the sent sample invoice has been saved. -/
def sampleTables : Tables :=
  ((Tables.repository.save (sample.run sampleSending)).on Tables.empty).2

/-- A service on these tables. -/
def sampleService : Service Tables where
  repository := Tables.repository
  settings := ⟨⟨"postgresql", "localhost", []⟩, .invoices, .prorations, .five, .info, false⟩
  clock := (Moment.midnight sampleDay).atUniversal
  fresh := .following

/-- The sample invoice is paid in two parts; that it is sent once more in between is refused. -/
def sampleCallsOn : List Step := [samplePayment, sampleStep (.send none), sampleRest]

/-- Two of the three calls succeed, and the invoice is paid at version 3. -/
theorem service_refines_domain_sample :
    Backend.tables.keeping.Used sampleTables ∧
      ∃ replies store,
        sampleService.performAll sample.id.text sampleCallsOn ⟨sampleTables, .start, 0⟩ =
            (replies, ⟨store, .start, 0⟩) ∧
          replies.countP Except.isOk = 2 ∧
          (Tables.repository.findById sample.id.text).on store =
            (.ok (some (((sample.run sampleSending).run sampleCallsOn).atVersion 3)), store) := by
  have hproper : (sample.run sampleSending).Proper :=
    (proper_of_restore (create_eq_ok create_sample).1).run sampleSending
  have hused : Backend.tables.keeping.Used sampleTables := .save _ hproper .empty
  have hloaded : (Tables.repository.findById sample.id.text).on sampleTables =
      (.ok (some ((sample.run sampleSending).atVersion 1)), sampleTables) := by decide +kernel
  have huniversal : ∀ step ∈ sampleCallsOn,
      ∀ m ∈ step.command.moment? step.clock, m.offset = some 0 := by decide +kernel
  have hcomputable : ∀ done, done <+: sampleCallsOn →
      ∃ m, (((sample.run sampleSending).atVersion 1).run done).balanceDue = .ok m := by
    have hall : ∀ done ∈ sampleCallsOn.inits,
        (((sample.run sampleSending).atVersion 1).run done).balanceDue.isOk := by decide +kernel
    intro done hdone
    have hok := hall done ((List.mem_inits done sampleCallsOn).2 hdone)
    cases hbalance : (((sample.run sampleSending).atVersion 1).run done).balanceDue with
    | ok m => exact ⟨m, rfl⟩
    | error e =>
        rw [hbalance] at hok
        cases hok
  obtain ⟨replies, store, hperform, hreplies, -, hfound, -⟩ :=
    service_refines_domain .tables sampleService ⟨sampleTables, .start, 0⟩ sample.id.text
      ((sample.run sampleSending).atVersion 1) sampleCallsOn rfl hused hloaded huniversal
      hcomputable fun _ => by decide
  have hcount : replies.countP Except.isOk = 2 := by
    have hisOk : Except.isOk ∘ Except.map (atVersion 1) =
        (Except.isOk : Except StoreFailure Invoice → Bool) := by
      funext r
      cases r <;> rfl
    calc replies.countP Except.isOk
        = (replies.map (Except.map (atVersion 1))).countP Except.isOk := by
          rw [List.countP_map, hisOk]
      _ = 2 := by
          rw [show replies.map (Except.map (atVersion 1)) = _ from hreplies]
          decide +kernel
  refine ⟨hused, replies, store, hperform, hcount, ?_⟩
  rw [hcount, run_atVersion] at hfound
  exact hfound

end Invoice

end Billing
