import ShipFlow.Email.ResendWebhookService
import ShipFlow.Interleaving.Isolation

/-! Provider events that arrive more than once and in any order. The row of a message ends
with the latest event, of those that the store had not recorded before. -/

namespace ShipFlow.Email
open Interleaving Relational Register

/-- A webhook call: the `svix-id` and the event. -/
structure Delivery where
  id : String
  event : WebhookEventPayload
  deriving DecidableEq, Repr

def receive (d : Delivery) : Handler Unit := recordEvent d.id d.event

abbrev Calls := List (Call Delivery Input)

def deliveries (calls : Calls) : List Delivery := calls.map Call.request

def receipts (s : Store) (calls : Calls) : List (Step Delivery Input Store Event EmailFailure Unit) :=
  history receive 0 ⟨s, []⟩ calls

def received (s : Store) (calls : Calls) : Store :=
  (lastWorld ⟨s, []⟩ (receipts s calls)).store

instance (s : Store) (eventId : String) : Decidable (s.Recorded eventId) :=
  inferInstanceAs (Decidable (eventId ∈ s.emailWebhookEvents.map EmailWebhookEvent.id))

/-- The dates and statuses that the deliveries report for a message, without the events
that the store has already recorded. -/
def news (s : Store) (messageId : String) (ds : List Delivery) :
    List (Time × EmailDeliveryStatus) :=
  ds.filterMap fun d => if s.Recorded d.id then none else d.event.entry messageId

/-- The rows of other messages. -/
def Store.others (s : Store) (messageId : String) : List EmailDelivery :=
  s.emailDeliveries.filter fun d => d.providerMessageId != some messageId

section Receive
variable {s : Store} {w : World} {eventId messageId : String} {event : WebhookEventPayload}
  {row : EmailDelivery}

/-- The first delivery of an event records it, the others do nothing. -/
theorem recordEvent_alone (hs : w.store.Sound) (pid : Nat) (f : Nat → Input) :
    ((recordEvent eventId event).alone pid f w).2.store =
      if w.store.Recorded eventId then w.store else w.store.record eventId event := by
  cases h : record eventId event w.store with
  | ok r =>
    obtain ⟨hnew, hr⟩ := (record_ok hs).mp h
    rw [if_neg hnew, ← hr]
    simp [recordEvent, tryCatch, tryCatchThe, MonadExceptOf.tryCatch, Process.atomically,
      Process.handle, Process.alone, h]
  | error e =>
    obtain ⟨hrecorded, rfl⟩ := record_error hs h
    rw [if_pos hrecorded]
    simp [recordEvent, tryCatch, tryCatchThe, MonadExceptOf.tryCatch, Process.atomically,
      Process.handle, Process.alone, h, EmailFailure.isUniqueConstraintError,
      Failure.isUniqueConstraintError]
    rfl

/-- An event of one message leaves the rows of all others alone. -/
theorem others_record (h : event.emailId = some messageId) :
    (s.record eventId event).others messageId = s.others messageId := by
  have hpart : ∀ rows : List EmailDelivery,
      (rows.map (EmailDelivery.observe event)).filter
        (fun d => d.providerMessageId != some messageId) =
      rows.filter fun d => d.providerMessageId != some messageId := by
    intro rows
    induction rows with
    | nil => rfl
    | cons d rows ih =>
      rw [List.map_cons, List.filter_cons, List.filter_cons, (observe_keys event d).2.2, ih]
      split
      · rename_i hother
        have hnone : d.providerMessageId.bind event.entry = none := by
          cases hm : d.providerMessageId with
          | none => rfl
          | some m =>
            rw [Option.bind_some, WebhookEventPayload.entry, if_neg]
            rintro ⟨-, hm'⟩
            rw [h] at hm'
            rw [hm, ← hm', bne_self_eq_false] at hother
            cases hother
        rw [observe_other hnone]
      · rfl
  exact hpart s.emailDeliveries

theorem news_append (ds : List Delivery) (d : Delivery) : news s messageId (ds ++ [d]) =
    news s messageId ds ++ if s.Recorded d.id then [] else (d.event.entry messageId).toList := by
  rw [news, news, List.filterMap_append]
  congr 1
  split
  · rename_i h
    simp [h]
  · rename_i h
    cases he : d.event.entry messageId <;> simp [h, he]

theorem mem_news {ds : List Delivery} {e : Time × EmailDeliveryStatus} :
    e ∈ news s messageId ds ↔
      ∃ d ∈ ds, ¬ s.Recorded d.id ∧ d.event.entry messageId = some e := by
  simp only [news, List.mem_filterMap, Option.ite_none_left_eq_some]

/-! ## Runs -/

/-- Where the deliveries made so far have left the row of a message. -/
structure Progress (s : Store) (row : EmailDelivery) (messageId : String) (past : List Delivery)
    (s' : Store) : Prop where
  sound : s'.Sound
  recorded : ∀ eventId, s'.Recorded eventId ↔ s.Recorded eventId ∨ ∃ d ∈ past, d.id = eventId
  row : ∃ x ∈ s'.emailDeliveries, x.id = row.id ∧ x.providerMessageId = some messageId ∧
    Latest (news s messageId past) x.register ∧ (x.lastEventAt = none → x.status = row.status)

theorem Progress.init (hs : s.Sound) (hrow : row ∈ s.emailDeliveries)
    (hm : row.providerMessageId = some messageId) (hnull : row.lastEventAt = none) :
    Progress s row messageId [] s := by
  refine ⟨hs, by simp, row, hrow, rfl, hm, ?_, fun _ => rfl⟩
  rw [EmailDelivery.register, hnull]
  exact latest_nil

/-- One more delivery. -/
theorem Progress.step {past : List Delivery} {d : Delivery} {s' : Store}
    (h : Progress s row messageId past s') (hids : ∀ d' ∈ past, d'.id = d.id → d' = d) :
    Progress s row messageId (past ++ [d])
      (if s'.Recorded d.id then s' else s'.record d.id d.event) := by
  obtain ⟨x, hx, hid, hm, hlatest, hstatus⟩ := h.row
  split
  · rename_i hrecorded
    refine ⟨h.sound, fun eventId => ?_, x, hx, hid, hm, hlatest.congr fun e => ?_, hstatus⟩
    · rw [h.recorded]
      constructor
      · rintro (hold | ⟨d', hd', hd'id⟩)
        · exact .inl hold
        · exact .inr ⟨d', List.mem_append_left _ hd', hd'id⟩
      · rintro (hold | ⟨d', hd', hd'id⟩)
        · exact .inl hold
        · rcases List.mem_append.mp hd' with hd' | hd'
          · exact .inr ⟨d', hd', hd'id⟩
          · rw [List.mem_singleton.mp hd'] at hd'id
            rw [← hd'id]
            exact (h.recorded d.id).mp hrecorded
    · -- the event has been counted before, or it is one that the store started with
      rw [mem_news, mem_news]
      constructor
      · rintro ⟨d', hd', hnew, he⟩
        exact ⟨d', List.mem_append_left _ hd', hnew, he⟩
      · rintro ⟨d', hd', hnew, he⟩
        rcases List.mem_append.mp hd' with hd' | hd'
        · exact ⟨d', hd', hnew, he⟩
        · have heq := List.mem_singleton.mp hd'
          subst heq
          rcases (h.recorded d'.id).mp hrecorded with hold | ⟨d₀, hd₀, hd₀id⟩
          · exact absurd hold hnew
          · exact ⟨d₀, hd₀, hids d₀ hd₀ hd₀id ▸ hnew, hids d₀ hd₀ hd₀id ▸ he⟩
  · rename_i hnew
    -- a new event: the row observes it, and it counts among the news
    have hfresh : ¬ s.Recorded d.id := fun hold => hnew ((h.recorded d.id).mpr (.inl hold))
    have hkeys := observe_keys d.event x
    refine ⟨h.sound.record hnew, fun eventId => ?_, x.observe d.event,
      List.mem_map_of_mem hx, hkeys.1.trans hid, hkeys.2.2.trans hm, ?_⟩
    · rw [recorded_record, h.recorded]
      simp only [List.mem_append, List.mem_singleton]
      constructor
      · rintro ((hold | ⟨d', hd', hd'id⟩) | rfl)
        · exact .inl hold
        · exact .inr ⟨d', .inl hd', hd'id⟩
        · exact .inr ⟨d, .inr rfl, rfl⟩
      · rintro (hold | ⟨d', hd' | rfl, hd'id⟩)
        · exact .inl (.inl hold)
        · exact .inl (.inr ⟨d', hd', hd'id⟩)
        · exact .inr hd'id.symm
    · rw [news_append, if_neg hfresh]
      exact observe_latest hm hlatest hstatus

theorem receipts_progress (hs : s.Sound) (hrow : row ∈ s.emailDeliveries)
    (hm : row.providerMessageId = some messageId) (hnull : row.lastEventAt = none) (calls : Calls)
    (hids : ∀ d ∈ deliveries calls, ∀ d' ∈ deliveries calls, d.id = d'.id → d = d') :
    Progress s row messageId (deliveries calls) (received s calls) ∧
      ∀ step ∈ receipts s calls, ∀ m, step.call.request.event.emailId = some m →
        step.after.store.others m = step.before.store.others m := by
  have hcall : deliveries ((receipts s calls).map Step.call) = deliveries calls := by
    rw [receipts, history_calls]
  rw [← hcall]
  refine history_induction (P := fun past w =>
      Progress s row messageId (deliveries (past.map Step.call)) w.store ∧
        ∀ step ∈ past, ∀ m, step.call.request.event.emailId = some m →
          step.after.store.others m = step.before.store.others m)
    ⟨Progress.init hs hrow hm hnull, by simp⟩ fun pid past w call rest hcalls h => ?_
  have hafter : (perform receive pid call w).after.store =
      if w.store.Recorded call.request.id then w.store
      else w.store.record call.request.id call.request.event :=
    recordEvent_alone h.1.sound pid call.inputs
  have hmem : ∀ d ∈ deliveries (past.map Step.call), d ∈ deliveries calls := by
    intro d hd
    rw [hcalls, deliveries, List.map_append]
    exact List.mem_append_left _ hd
  have hnow : call.request ∈ deliveries calls := by
    rw [hcalls, deliveries, List.map_append]
    exact List.mem_append_right _ List.mem_cons_self
  constructor
  · have hstep := h.1.step (d := call.request) fun d' hd' hid => hids d' (hmem d' hd') _ hnow hid
    rw [hafter, List.map_append, deliveries, List.map_append]
    exact hstep
  · intro step hstep m hevent
    rcases List.mem_append.mp hstep with hstep | hstep
    · exact h.2 step hstep m hevent
    · rw [List.mem_singleton.mp hstep] at hevent ⊢
      rw [hafter]
      split
      · rfl
      · exact others_record hevent

end Receive

/-- Whatever the order in which a set of events arrives and however often each of them
does, the row of a message ends with the same status and the same date: those of the latest
event that reports a status and that the store had not recorded before. -/
theorem event_order_independence (s : Store) (hs : s.Sound) (row : EmailDelivery)
    (hrow : row ∈ s.emailDeliveries) (messageId : String)
    (hm : row.providerMessageId = some messageId) (hnull : row.lastEventAt = none)
    (first second : Calls) (hsame : ∀ d, d ∈ deliveries first ↔ d ∈ deliveries second)
    (hids : ∀ d ∈ deliveries first, ∀ d' ∈ deliveries first, d.id = d'.id → d = d')
    (hdates : ∀ d ∈ deliveries first, ∀ d' ∈ deliveries first,
      d.event.emailId = some messageId → d'.event.emailId = some messageId →
      d.event.createdAt = d'.event.createdAt → d = d') :
    (∃ x ∈ (received s first).emailDeliveries, ∃ y ∈ (received s second).emailDeliveries,
      x.id = row.id ∧ y.id = row.id ∧ x.status = y.status ∧ x.lastEventAt = y.lastEventAt ∧
      Latest (news s messageId (deliveries first)) x.register ∧
      (x.lastEventAt = none → x.status = row.status)) ∧
    ∀ step ∈ receipts s first ++ receipts s second, ∀ m,
      step.call.request.event.emailId = some m →
      step.after.store.others m = step.before.store.others m := by
  have hids' : ∀ d ∈ deliveries second, ∀ d' ∈ deliveries second, d.id = d'.id → d = d' :=
    fun d hd d' hd' => hids d ((hsame d).mpr hd) d' ((hsame d').mpr hd')
  obtain ⟨hfirst, hothers⟩ := receipts_progress hs hrow hm hnull first hids
  obtain ⟨hsecond, hothers'⟩ := receipts_progress hs hrow hm hnull second hids'
  constructor
  · obtain ⟨x, hx, hxid, -, hxlatest, hxstatus⟩ := hfirst.row
    obtain ⟨y, hy, hyid, -, hylatest, hystatus⟩ := hsecond.row
    have hnews : ∀ e, e ∈ news s messageId (deliveries second) ↔
        e ∈ news s messageId (deliveries first) := by
      intro e
      simp only [mem_news, hsame]
    have hregister : x.register = y.register := by
      -- the latest of the same news, where dates tell events apart
      refine hxlatest.unique (hylatest.congr hnews) fun e he e' he' hdate => ?_
      obtain ⟨d, hd, -, hde⟩ := mem_news.mp he
      obtain ⟨d', hd', -, hde'⟩ := mem_news.mp he'
      obtain ⟨-, hid, hcreated, hstatus⟩ := entry_eq_some.mp hde
      obtain ⟨-, hid', hcreated', hstatus'⟩ := entry_eq_some.mp hde'
      have heq := hdates d hd d' hd' hid hid' (hcreated.symm.trans (hdate.trans hcreated'))
      subst heq
      rw [hde] at hde'
      exact Option.some.inj hde'
    have hlast : x.lastEventAt = y.lastEventAt := by
      have hdate := congrArg (Option.map Prod.fst) hregister
      simpa [EmailDelivery.register, Function.comp_def] using hdate
    refine ⟨x, hx, y, hy, hxid, hyid, ?_, hlast, hxlatest, hxstatus⟩
    cases hxlast : x.lastEventAt with
    | none => rw [hxstatus hxlast, hystatus (hlast.symm.trans hxlast)]
    | some t =>
      rw [EmailDelivery.register, EmailDelivery.register, ← hlast, hxlast] at hregister
      simpa using hregister
  · intro step hstep m
    rcases List.mem_append.mp hstep with hstep | hstep
    · exact hothers step hstep m
    · exact hothers' step hstep m

/-! ## Two events of one message -/

def acceptedDelivery : EmailDelivery :=
  { EmailDelivery.create 0 .passwordReset "resend" "a@example.org" "key" with
    status := .sent
    attempts := 1
    providerMessageId := some "message" }

def webhook (id type : String) (createdAt : Time) : Call Delivery Input :=
  ⟨⟨id, type, createdAt, some "message"⟩, fun _ => ⟨0, .ok ""⟩⟩

theorem event_order_independence_delivered :
    ∃ x ∈ (received ⟨1, [acceptedDelivery], []⟩
        [webhook "first" "email.sent" 10, webhook "second" "email.delivered" 20]).emailDeliveries,
      ∃ y ∈ (received ⟨1, [acceptedDelivery], []⟩ [webhook "second" "email.delivered" 20,
        webhook "first" "email.sent" 10, webhook "second" "email.delivered" 20]).emailDeliveries,
      x.status = y.status ∧ x.lastEventAt = y.lastEventAt := by
  have hsame : ∀ d, d ∈ deliveries [webhook "first" "email.sent" 10,
      webhook "second" "email.delivered" 20] ↔ d ∈ deliveries [webhook "second" "email.delivered" 20,
      webhook "first" "email.sent" 10, webhook "second" "email.delivered" 20] := by
    intro d
    simp only [deliveries, List.map_cons, List.map_nil, List.mem_cons, List.not_mem_nil, or_false]
    tauto
  obtain ⟨⟨x, hx, y, hy, -, -, hstatus, hlast, -⟩, -⟩ := event_order_independence
    ⟨1, [acceptedDelivery], []⟩ ⟨List.pairwise_singleton _ _, List.nodup_nil⟩ acceptedDelivery
    (List.mem_singleton_self _) "message" rfl rfl
    [webhook "first" "email.sent" 10, webhook "second" "email.delivered" 20]
    [webhook "second" "email.delivered" 20, webhook "first" "email.sent" 10,
      webhook "second" "email.delivered" 20]
    hsame (by decide) (by decide)
  exact ⟨x, hx, y, hy, hstatus, hlast⟩

/-- The store has recorded the event before the row had the id of its message. -/
theorem recorded_event_ignored :
    acceptedDelivery.providerMessageId = some "message" ∧ acceptedDelivery.lastEventAt = none ∧
    deliveryStatus "email.delivered" = some .delivered ∧
    (received ⟨1, [acceptedDelivery], [⟨"event", "email.delivered", some "message", 20⟩]⟩
      [webhook "event" "email.delivered" 20]).emailDeliveries = [acceptedDelivery] ∧
    acceptedDelivery.status ≠ .delivered := by
  decide +kernel

end ShipFlow.Email
