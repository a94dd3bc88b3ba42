import Mathlib.Algebra.Order.Ring.Int
import ShipFlow.Email.Store
import ShipFlow.Relational.Latest

/-! `ResendWebhookService`. -/

namespace ShipFlow.Email
open Interleaving Relational

def deliveryStatus : String → Option EmailDeliveryStatus
  | "email.bounced" => some .bounced
  | "email.complained" => some .complained
  | "email.delivered" => some .delivered
  | "email.failed" => some .failed
  | "email.scheduled" => some .sent
  | "email.sent" => some .sent
  | "email.suppressed" => some .suppressed
  | _ => none

def EmailDeliveryStatus.isFailureStatus : EmailDeliveryStatus → Bool
  | .bounced | .complained | .failed | .suppressed => true
  | _ => false

/-- The `data` of the update for an event. -/
def EmailDelivery.applyEvent (event : WebhookEventPayload) (status : EmailDeliveryStatus)
    (d : EmailDelivery) : EmailDelivery :=
  let d := { d with status := status, lastEventAt := some event.createdAt }
  let d :=
    if status == .delivered then
      { d with
        deliveredAt := some event.createdAt
        failedAt := none
        lastErrorCode := none
        lastErrorMessage := none }
    else d
  if status.isFailureStatus then
    { d with
      failedAt := some event.createdAt
      lastErrorCode := some event.type
      lastErrorMessage := some "Provider reported a delivery failure" }
  else d

/-- The part of the transaction that concerns the delivery. -/
def updateDelivery (event : WebhookEventPayload) : Tx Unit :=
  match event.emailId, deliveryStatus event.type with
  | some messageId, some status =>
    -- an empty id is as good as none
    if messageId == "" then
      return ()
    else do
      let _ ← emailDeliveries.updateMany
        (fun d => d.providerMessageId == some messageId &&
          (d.lastEventAt.isNone || d.lastEventAt.any fun t => t < event.createdAt))
        (EmailDelivery.applyEvent event status)
      return ()
  | _, _ => return ()

/-- The transaction of `recordEvent`. -/
def record (eventId : String) (event : WebhookEventPayload) : Tx Unit := do
  let _ ← emailWebhookEvents.create ⟨eventId, event.type, event.emailId, event.createdAt⟩
  updateDelivery event

def recordEvent (eventId : String) (event : WebhookEventPayload) : Handler Unit :=
  tryCatch
    (Process.atomically (fun _ => record eventId event) fun
      | .ok _ => [.eventRecorded eventId event]
      | .error _ => [])
    -- an event that is there already is acknowledged and left alone
    fun error => if error.isUniqueConstraintError then pure () else throw error

/-! ## What an event does to a row -/

/-- What the event says about a message. -/
def WebhookEventPayload.entry (event : WebhookEventPayload) (messageId : String) :
    Option (Time × EmailDeliveryStatus) :=
  if messageId ≠ "" ∧ event.emailId = some messageId then
    (deliveryStatus event.type).map fun status => (event.createdAt, status)
  else none

/-- The status of a row as a register, with the date of the last event. -/
def EmailDelivery.register (d : EmailDelivery) : Option (Time × EmailDeliveryStatus) :=
  d.lastEventAt.map fun t => (t, d.status)

/-- What becomes of a row when an event is recorded. -/
def EmailDelivery.observe (event : WebhookEventPayload) (d : EmailDelivery) : EmailDelivery :=
  match d.providerMessageId.bind event.entry with
  | some (createdAt, status) =>
    if d.lastEventAt.all fun t => t < createdAt then d.applyEvent event status else d
  | none => d

/-- What becomes of the store when an event is recorded. -/
def Store.record (s : Store) (eventId : String) (event : WebhookEventPayload) : Store :=
  { s with
    emailDeliveries := s.emailDeliveries.map (EmailDelivery.observe event)
    emailWebhookEvents := s.emailWebhookEvents ++
      [⟨eventId, event.type, event.emailId, event.createdAt⟩] }

def Store.Recorded (s : Store) (eventId : String) : Prop :=
  eventId ∈ s.emailWebhookEvents.map EmailWebhookEvent.id

section Rows
variable {event : WebhookEventPayload} {status : EmailDeliveryStatus} {d : EmailDelivery}
  {messageId eventId : String} {s s' : Store}

@[simp] theorem applyEvent_keys (event : WebhookEventPayload) (status : EmailDeliveryStatus)
    (d : EmailDelivery) : (d.applyEvent event status).id = d.id ∧
      (d.applyEvent event status).idempotencyKey = d.idempotencyKey ∧
      (d.applyEvent event status).providerMessageId = d.providerMessageId := by
  cases status <;> exact ⟨rfl, rfl, rfl⟩

theorem applyEvent_register (event : WebhookEventPayload) (status : EmailDeliveryStatus)
    (d : EmailDelivery) : (d.applyEvent event status).register = some (event.createdAt, status) := by
  cases status <;> rfl

theorem entry_eq_some {e : Time × EmailDeliveryStatus} :
    event.entry messageId = some e ↔ messageId ≠ "" ∧ event.emailId = some messageId ∧
      e.1 = event.createdAt ∧ deliveryStatus event.type = some e.2 := by
  obtain ⟨date, status⟩ := e
  simp only [WebhookEventPayload.entry, Option.ite_none_right_eq_some, Option.map_eq_some_iff,
    Prod.mk.injEq]
  constructor
  · rintro ⟨⟨hne, hid⟩, status', hstatus, hdate, rfl⟩
    exact ⟨hne, hid, hdate.symm, hstatus⟩
  · rintro ⟨hne, hid, hdate, hstatus⟩
    exact ⟨⟨hne, hid⟩, status, hstatus, hdate.symm, rfl⟩

@[simp] theorem observe_keys (event : WebhookEventPayload) (d : EmailDelivery) :
    (d.observe event).id = d.id ∧ (d.observe event).idempotencyKey = d.idempotencyKey ∧
      (d.observe event).providerMessageId = d.providerMessageId := by
  unfold EmailDelivery.observe
  split
  · split
    · exact applyEvent_keys event _ d
    · exact ⟨rfl, rfl, rfl⟩
  · exact ⟨rfl, rfl, rfl⟩

/-- A row is written for its own message only. -/
theorem observe_other (h : d.providerMessageId.bind event.entry = none) : d.observe event = d := by
  rw [EmailDelivery.observe, h]

/-- The row of the message takes the event into its register. -/
theorem observe_register (hid : d.providerMessageId = some messageId)
    {e : Time × EmailDeliveryStatus} (he : event.entry messageId = some e) :
    (d.observe event).register = Register.absorb d.register e := by
  have hdate : e = (event.createdAt, e.2) := Prod.ext (entry_eq_some.mp he).2.2.1 rfl
  have hentry : d.providerMessageId.bind event.entry = some e := by rw [hid, Option.bind_some, he]
  rw [EmailDelivery.observe, hentry]
  cases hlast : d.lastEventAt with
  | none =>
    have hnone : d.register = none := by rw [EmailDelivery.register, hlast, Option.map_none]
    simp only [Option.all_none, if_true, applyEvent_register, hnone]
    rw [← hdate]
    rfl
  | some t =>
    have hsome : d.register = some (t, d.status) := by
      rw [EmailDelivery.register, hlast, Option.map_some]
    simp only [Option.all_some, decide_eq_true_eq, hsome, Register.absorb]
    split
    · rw [applyEvent_register, ← hdate]
    · exact hsome

/-- A register that is up to date stays so, and a row without a date keeps its status. -/
theorem observe_latest (hid : d.providerMessageId = some messageId)
    {written : List (Time × EmailDeliveryStatus)} (h : Register.Latest written d.register)
    (hstatus : d.lastEventAt = none → d.status = status) :
    Register.Latest (written ++ (event.entry messageId).toList) (d.observe event).register ∧
      ((d.observe event).lastEventAt = none → (d.observe event).status = status) := by
  cases he : event.entry messageId with
  | none =>
    rw [observe_other (by rw [hid, Option.bind_some, he]), Option.toList_none, List.append_nil]
    exact ⟨h, hstatus⟩
  | some e =>
    have hregister := observe_register hid he
    refine ⟨hregister ▸ h.absorb e, fun hlast => ?_⟩
    -- a row that takes an event has a date
    have hnone : (d.observe event).register = none := by
      rw [EmailDelivery.register, hlast, Option.map_none]
    rw [hregister] at hnone
    have hwritten := (hnone ▸ h.absorb e).written_eq_nil
    simp at hwritten

/-- An update for an event is an update of every row. -/
theorem updateRows_applyEvent (hne : messageId ≠ "") (hid : event.emailId = some messageId)
    (hstatus : deliveryStatus event.type = some status) (rows : List EmailDelivery) :
    updateRows (fun d => d.providerMessageId == some messageId &&
        (d.lastEventAt.isNone || d.lastEventAt.any fun t => t < event.createdAt))
      (EmailDelivery.applyEvent event status) rows = rows.map (EmailDelivery.observe event) := by
  refine List.map_congr_left fun d _ => ?_
  unfold EmailDelivery.observe
  by_cases hd : d.providerMessageId = some messageId
  · have hentry : d.providerMessageId.bind event.entry = some (event.createdAt, status) := by
      rw [hd, Option.bind_some]
      exact entry_eq_some.mpr ⟨hne, hid, rfl, hstatus⟩
    rw [hentry]
    cases hlast : d.lastEventAt with
    | none => simp [hd, hlast]
    | some t => simp [hd, hlast]
  · have hentry : d.providerMessageId.bind event.entry = none := by
      cases hm : d.providerMessageId with
      | none => rfl
      | some m =>
        rw [Option.bind_some, WebhookEventPayload.entry, if_neg]
        rintro ⟨-, hm'⟩
        rw [hid] at hm'
        exact hd (hm.trans hm'.symm)
    rw [hentry]
    simp [hd]

theorem observe_unread (h : event.emailId = none ∨ event.emailId = some "" ∨
    deliveryStatus event.type = none) (d : EmailDelivery) : d.observe event = d := by
  refine observe_other ?_
  cases d.providerMessageId with
  | none => rfl
  | some m =>
    cases he : event.entry m with
    | none => exact he
    | some e =>
      obtain ⟨hne, hid, -, hstatus⟩ := entry_eq_some.mp he
      rcases h with h | h | h
      · rw [h] at hid
        cases hid
      · rw [h] at hid
        exact absurd (Option.some.inj hid).symm hne
      · rw [h] at hstatus
        cases hstatus

/-! ## The transaction -/

theorem deliveries_sound (s : Store) (rows : List EmailDelivery) :
    emailDeliveries.sound s rows = true ↔ rows.Pairwise fun a b => a.collides b = false := by
  rw [Table.sound, Bool.and_eq_true, distinct_iff_pairwise]
  simp [emailDeliveries]

theorem events_sound (s : Store) (rows : List EmailWebhookEvent) :
    emailWebhookEvents.sound s rows = true ↔ (rows.map EmailWebhookEvent.id).Nodup := by
  rw [Table.sound, Bool.and_eq_true, distinct_iff_pairwise, List.Nodup, List.pairwise_map]
  simp [emailWebhookEvents]

theorem collides_observe (event : WebhookEventPayload) (a b : EmailDelivery) :
    (a.observe event).collides (b.observe event) = a.collides b := by
  obtain ⟨hid, hkey, hmessage⟩ := observe_keys event a
  obtain ⟨hid', hkey', hmessage'⟩ := observe_keys event b
  rw [EmailDelivery.collides, hid, hkey, hmessage, hid', hkey', hmessage']
  rfl

theorem Store.Sound.record (hs : s.Sound) (hnew : ¬ s.Recorded eventId) :
    (s.record eventId event).Sound := by
  constructor
  · simp only [Store.record]
    rw [List.pairwise_map]
    exact hs.deliveries.imp fun h => by rwa [collides_observe]
  · simp only [Store.record, List.map_append, List.map_cons, List.map_nil]
    refine List.nodup_append.mpr ⟨hs.events, List.nodup_singleton _, fun a ha b hb => ?_⟩
    rw [List.mem_singleton.mp hb]
    rintro rfl
    exact hnew ha

theorem updateDelivery_ok (hs : s.emailDeliveries.Pairwise fun a b => a.collides b = false) :
    updateDelivery event s =
    .ok ((), { s with emailDeliveries := s.emailDeliveries.map (EmailDelivery.observe event) }) := by
  have hunread : (event.emailId = none ∨ event.emailId = some "" ∨
      deliveryStatus event.type = none) →
      s.emailDeliveries.map (EmailDelivery.observe event) = s.emailDeliveries := by
    intro h
    rw [List.map_congr_left fun d _ => observe_unread h d, List.map_id']
  cases hid : event.emailId with
  | none =>
    rw [hunread (.inl hid)]
    simp only [updateDelivery, hid]
    rfl
  | some messageId =>
    cases hstatus : deliveryStatus event.type with
    | none =>
      rw [hunread (.inr (.inr hstatus))]
      simp only [updateDelivery, hid, hstatus]
      rfl
    | some status =>
      by_cases hempty : messageId = ""
      · subst hempty
        rw [hunread (.inr (.inl hid))]
        simp only [updateDelivery, hid, hstatus, beq_self_eq_true, if_true]
        rfl
      · simp only [updateDelivery, hid, hstatus, beq_iff_eq, hempty, if_false,
          Transaction.bind_ok, Table.updateMany_ok, Transaction.pure_ok]
        have hrows := updateRows_applyEvent hempty hid hstatus s.emailDeliveries
        have hsound : (s.emailDeliveries.map (EmailDelivery.observe event)).Pairwise
            fun a b => a.collides b = false := by
          rw [List.pairwise_map]
          exact hs.imp fun h => by rwa [collides_observe]
        refine ⟨_, _, ⟨?_, rfl, rfl⟩, True.intro, ?_⟩
        · simp only [emailDeliveries, hrows]
          exact (deliveries_sound s _).mpr hsound
        · simp only [emailDeliveries, hrows]

/-- An event is recorded once. -/
theorem record_ok (hs : s.Sound) {u : Unit} : record eventId event s = .ok (u, s') ↔
    ¬ s.Recorded eventId ∧ s' = s.record eventId event := by
  have hcreate : emailWebhookEvents.sound s (s.emailWebhookEvents ++
      [⟨eventId, event.type, event.emailId, event.createdAt⟩]) = true ↔ ¬ s.Recorded eventId := by
    rw [events_sound, List.map_append, List.nodup_append]
    constructor
    · rintro ⟨-, -, hnew⟩ hmem
      exact hnew eventId hmem eventId (List.mem_singleton_self _) rfl
    · intro hnew
      refine ⟨hs.events, List.nodup_singleton _, fun a ha b hb => ?_⟩
      rw [List.mem_singleton.mp hb]
      rintro rfl
      exact hnew ha
  simp only [Email.record, Transaction.bind_ok, Table.create_ok]
  constructor
  · rintro ⟨_, _, ⟨hsound, rfl, rfl⟩, h⟩
    have hnew := hcreate.mp hsound
    cases h.symm.trans (updateDelivery_ok hs.deliveries)
    exact ⟨hnew, rfl⟩
  · rintro ⟨hnew, rfl⟩
    refine ⟨_, _, ⟨hcreate.mpr hnew, rfl, rfl⟩, ?_⟩
    exact updateDelivery_ok hs.deliveries

/-- The only failure is that of a second delivery, and that is swallowed. -/
theorem record_error (hs : s.Sound) {e : EmailFailure} (h : record eventId event s = .error e) :
    s.Recorded eventId ∧ e = .other .uniqueConstraint := by
  have hrecorded : s.Recorded eventId := by
    by_contra hnew
    have hok := (record_ok (u := ()) hs).mpr ⟨hnew, Eq.refl (s.record eventId event)⟩
    rw [h] at hok
    cases hok
  refine ⟨hrecorded, ?_⟩
  rw [Email.record, Transaction.bind_error] at h
  rcases h with h | ⟨_, s₁, hcreate, h⟩
  · rw [Table.create, Transaction.bind_error] at h
    rcases h with h | ⟨_, _, -, h⟩
    · exact Table.commit_error_unique (fun _ _ => rfl) h
    · cases h
  · have hok := (Table.create_ok.mp hcreate).1
    rw [events_sound, List.map_append, List.nodup_append] at hok
    exact absurd rfl (hok.2.2 eventId hrecorded eventId (List.mem_singleton_self _))

theorem recorded_record (eventId' : String) :
    (s.record eventId event).Recorded eventId' ↔ s.Recorded eventId' ∨ eventId' = eventId := by
  simp [Store.Recorded, Store.record]

end Rows
end ShipFlow.Email
