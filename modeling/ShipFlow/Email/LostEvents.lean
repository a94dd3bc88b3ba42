import ShipFlow.Email.Effects
import ShipFlow.Interleaving.Atomicity

/-! A delivery next to the events of the message that it sends. The row of the delivery
learns the id of the message only after the provider has accepted it, and an event that is
recorded before that is recorded for good. -/

namespace ShipFlow.Email
open Interleaving Interleaving.Discipline Relational Register

/-- What the observation reports about the message. -/
def Event.report (messageId : String) : Event → Option (Time × EmailDeliveryStatus)
  | .eventRecorded _ event => event.entry messageId
  | _ => none

def reported (messageId : String) (t : List (Nat × Event)) : List (Time × EmailDeliveryStatus) :=
  t.filterMap fun x => x.2.report messageId

/-- What the webhooks that arrive in a run report about the message. -/
def reports (messageId : String) (acts : List (Action Request Input)) :
    List (Time × EmailDeliveryStatus) :=
  acts.filterMap fun
    | .request (.recordEvent _ event) => event.entry messageId
    | _ => none

/-- An event that reports on the message is recorded only when the row of the delivery has
the id of the message. -/
def NotedFirst (deliveryId : Id) (messageId : String) (w w' : World) : Prop :=
  ∀ x ∈ w.newEvents w', (x.2.report messageId).isSome →
    ∃ d ∈ w.store.emailDeliveries, d.id = deliveryId ∧ d.providerMessageId = some messageId

instance (deliveryId : Id) (messageId : String) (w w' : World) :
    Decidable (NotedFirst deliveryId messageId w w') :=
  inferInstanceAs (Decidable (∀ x ∈ w.newEvents w', (x.2.report messageId).isSome →
    ∃ d ∈ w.store.emailDeliveries, d.id = deliveryId ∧ d.providerMessageId = some messageId))

/-- The delivery has been requested. -/
def sending (env : Environment) (s : Store) (deliveryId : Id) (previousAttempts : Nat)
    (idempotencyKey : String) (message : EmailMessage) : Email.Config :=
  (Config.init s : Email.Config).run (handler env)
    [.request (.attemptDelivery deliveryId previousAttempts idempotencyKey message)]

/-! ## The row of the delivery -/

/-- The row before the acceptance is noted, after it, and after that of another message. -/
inductive Tracked (deliveryId : Id) (messageId : String) (w : World) : Prop where
  | unsent (hunsent : Unsent 0 deliveryId w)
      (hrow : ∃ d ∈ w.store.emailDeliveries, d.id = deliveryId ∧ d.providerMessageId = none)
      (hnone : reported messageId w.trace = [])
  | sent (hsent : (0, .sent deliveryId messageId) ∈ w.trace)
      (hrow : ∃ d ∈ w.store.emailDeliveries, d.id = deliveryId ∧
        d.providerMessageId = some messageId ∧ Latest (reported messageId w.trace) d.register ∧
        (d.lastEventAt = none → d.status = .sent))
  | elsewhere (other : String) (hsent : (0, .sent deliveryId other) ∈ w.trace)
      (hnot : (0, .sent deliveryId messageId) ∉ w.trace)

section Steps
variable {Reported : String → WebhookEventPayload → Prop} {pid : Nat} {w w' : World}
  {deliveryId : Id} {messageId : String}

theorem SoundDeliveries.eq_of_id {rows : List EmailDelivery} (h : SoundDeliveries rows)
    {a b : EmailDelivery} (ha : a ∈ rows) (hb : b ∈ rows) (hid : a.id = b.id) : a = b := by
  have hids : (rows.map EmailDelivery.id).Nodup := by
    rw [List.Nodup, List.pairwise_map]
    refine h.imp fun hab heq => ?_
    rw [EmailDelivery.collides, beq_iff_eq.mpr heq] at hab
    cases hab
  exact List.inj_on_of_nodup_map hids ha hb hid

theorem reported_append (t t' : List (Nat × Event)) :
    reported messageId (t ++ t') = reported messageId t ++ reported messageId t' :=
  List.filterMap_append

theorem mem_reported {t : List (Nat × Event)} {e : Time × EmailDeliveryStatus} :
    e ∈ reported messageId t ↔
      ∃ q eventId event, (q, Event.eventRecorded eventId event) ∈ t ∧
        event.entry messageId = some e := by
  rw [reported, List.mem_filterMap]
  constructor
  · rintro ⟨⟨q, event⟩, hx, he⟩
    cases event with
    | eventRecorded eventId event => exact ⟨q, eventId, event, hx, he⟩
    | _ => cases he
  · rintro ⟨q, eventId, event, hx, he⟩
    exact ⟨_, hx, he⟩

/-- An action that reports nothing and leaves the row alone. -/
theorem Tracked.same (h : Tracked deliveryId messageId w) {es : List Event} {s : Store}
    (hes : reported messageId (es.map fun e => (pid, e)) = [])
    (hnote : ∀ other, .sent deliveryId other ∉ es)
    (hrows : ∀ d ∈ w.store.emailDeliveries, d.id = deliveryId → d ∈ s.emailDeliveries) :
    Tracked deliveryId messageId (w.advance pid (s, es)) := by
  have hreported : reported messageId (w.advance pid (s, es)).trace =
      reported messageId w.trace := by
    rw [World.advance_trace, reported_append, hes, List.append_nil]
  have hold : ∀ other, (0, Event.sent deliveryId other) ∈ (w.advance pid (s, es)).trace ↔
      (0, Event.sent deliveryId other) ∈ w.trace := by
    intro other
    rw [World.advance_trace, List.mem_append]
    refine or_iff_left fun hmem => ?_
    obtain ⟨e, he, heq⟩ := List.mem_map.mp hmem
    cases heq
    exact hnote other he
  cases h with
  | unsent hunsent hrow hnone =>
    obtain ⟨d, hd, hid, hmessage⟩ := hrow
    refine .unsent (fun other hmem => hunsent other ((hold other).mp hmem)) ?_
      (hreported.trans hnone)
    exact ⟨d, hrows d hd hid, hid, hmessage⟩
  | sent hsent hrow =>
    obtain ⟨d, hd, hid, hmessage, hlatest, hstatus⟩ := hrow
    refine .sent ((hold messageId).mpr hsent) ?_
    rw [hreported]
    exact ⟨d, hrows d hd hid, hid, hmessage, hlatest, hstatus⟩
  | elsewhere other hsent hnot =>
    exact .elsewhere other ((hold other).mpr hsent) fun hmem => hnot ((hold messageId).mp hmem)

theorem Tracked.touched (h : Tracked deliveryId messageId w) {id : Id}
    {f : EmailDelivery → EmailDelivery} (hunsent : Unsent 0 id w) (hf : Unaddressed f) :
    Tracked deliveryId messageId (w.advance 0 (w.store.touched id f, [])) := by
  by_cases hid : id = deliveryId
  · subst hid
    cases h with
    | unsent _ hrow hnone =>
      obtain ⟨d, hd, hd', hmessage⟩ := hrow
      refine .unsent (hunsent.advance fun _ h => by cases h) ⟨f d, ?_, ?_, ?_⟩ ?_
      · exact mem_updateRows.mpr (.inr ⟨d, hd, beq_iff_eq.mpr hd', rfl⟩)
      · exact (hf d).1.trans hd'
      · exact (hf d).2.2.1.trans hmessage
      · rw [World.advance_trace, List.map_nil, List.append_nil]
        exact hnone
    | sent hsent => exact absurd hsent (hunsent messageId)
    | elsewhere other hsent => exact absurd hsent (hunsent other)
  · refine h.same rfl (fun _ h => by cases h) fun d hd hd' => ?_
    refine mem_updateRows.mpr (.inl ⟨hd, beq_eq_false_iff_ne.mpr ?_⟩)
    rintro rfl
    exact hid hd'

/-- The acceptance is noted. -/
theorem Tracked.note (h : Tracked deliveryId messageId w) (hc : w.store.Consistent) {id : Id}
    {noted : String} {now : Time} (hunsent : Unsent 0 id w) :
    Tracked deliveryId messageId (w.advance 0
      (w.store.touched id (EmailDelivery.markSent noted now), [.sent id noted])) := by
  by_cases hid : id = deliveryId
  · subst hid
    cases h with
    | unsent _ hrow hnone =>
      obtain ⟨d, hd, hd', hmessage⟩ := hrow
      by_cases hnoted : noted = messageId
      · subst hnoted
        refine .sent (List.mem_append_right _ (List.mem_singleton_self _))
          ⟨d.markSent noted now, ?_, hd', rfl, ?_, fun _ => rfl⟩
        · exact mem_updateRows.mpr (.inr ⟨d, hd, beq_iff_eq.mpr hd', rfl⟩)
        · -- nothing has been reported, and the row has no date
          have hregister : (d.markSent noted now).register = none := by
            rw [EmailDelivery.register]
            simp only [EmailDelivery.markSent, hc.waiting d hd hmessage, Option.map_none]
          rw [World.advance_trace, reported_append, hnone, hregister]
          exact latest_nil
      · refine .elsewhere noted (List.mem_append_right _ (List.mem_singleton_self _)) fun hmem => ?_
        rcases List.mem_append.mp hmem with hmem | hmem
        · exact hunsent messageId hmem
        · simp only [List.map_cons, List.map_nil, List.mem_singleton, Prod.mk.injEq,
            Event.sent.injEq, true_and] at hmem
          exact hnoted hmem.symm
    | sent hsent => exact absurd hsent (hunsent messageId)
    | elsewhere other hsent => exact absurd hsent (hunsent other)
  · refine h.same rfl (fun other hmem => ?_) fun d hd hd' => ?_
    · rw [List.mem_singleton, Event.sent.injEq] at hmem
      exact hid hmem.1.symm
    · refine mem_updateRows.mpr (.inl ⟨hd, beq_eq_false_iff_ne.mpr ?_⟩)
      rintro rfl
      exact hid hd'

/-- An event is recorded. -/
theorem Tracked.record (h : Tracked deliveryId messageId w) (hc : w.store.Consistent)
    {eventId : String} {event : WebhookEventPayload}
    (hnoted : (event.entry messageId).isSome → ∃ d ∈ w.store.emailDeliveries,
      d.id = deliveryId ∧ d.providerMessageId = some messageId) :
    Tracked deliveryId messageId (w.advance pid
      (w.store.record eventId event, [.eventRecorded eventId event])) := by
  have hreported : reported messageId (w.advance pid
      (w.store.record eventId event, [.eventRecorded eventId event])).trace =
      reported messageId w.trace ++ (event.entry messageId).toList := by
    rw [World.advance_trace, reported_append]
    rfl
  have hold : ∀ other, (0, Event.sent deliveryId other) ∈ (w.advance pid
      (w.store.record eventId event, [.eventRecorded eventId event])).trace ↔
      (0, Event.sent deliveryId other) ∈ w.trace := by
    intro other
    rw [World.advance_trace, List.mem_append]
    exact or_iff_left fun hmem => by simp at hmem
  cases h with
  | unsent hunsent hrow hnone =>
    obtain ⟨d, hd, hid, hmessage⟩ := hrow
    cases he : event.entry messageId with
    | none =>
      refine .unsent (fun other hmem => hunsent other ((hold other).mp hmem)) ?_ ?_
      · exact ⟨d.observe event, List.mem_map_of_mem hd, (observe_keys event d).1.trans hid,
          (observe_keys event d).2.2.trans hmessage⟩
      · rw [hreported, hnone, he]
        rfl
    | some e =>
      -- the row would have to have the id of the message
      obtain ⟨d', hd', hid', hmessage'⟩ := hnoted (by rw [he]; rfl)
      have hsame := SoundDeliveries.eq_of_id hc.deliveries hd hd' (hid.trans hid'.symm)
      subst hsame
      rw [hmessage] at hmessage'
      cases hmessage'
  | sent hsent hrow =>
    obtain ⟨d, hd, hid, hmessage, hlatest, hstatus⟩ := hrow
    refine .sent ((hold messageId).mpr hsent) ⟨d.observe event, List.mem_map_of_mem hd,
      (observe_keys event d).1.trans hid, (observe_keys event d).2.2.trans hmessage, ?_⟩
    rw [hreported]
    exact observe_latest hmessage hlatest hstatus
  | elsewhere other hsent hnot =>
    exact .elsewhere other ((hold other).mpr hsent) fun hmem => hnot ((hold messageId).mp hmem)

theorem Tracked.step (h : Tracked deliveryId messageId w) (hc : w.store.Consistent)
    (he : Effect (fun pid => pid = 0) Reported pid w w')
    (hnoted : NotedFirst deliveryId messageId w w') : Tracked deliveryId messageId w' := by
  cases he with
  | idle => exact h
  | created d hsender =>
    exact h.same rfl (fun _ h => by cases h) fun d hd _ => List.mem_append_left _ hd
  | found hsender => exact h.same rfl (fun _ h => by cases h) fun d hd _ => hd
  | sendCalled message idempotencyKey answer =>
    exact h.same rfl (fun _ h => by simp at h) fun d hd _ => hd
  | touched id f hsender hunsent hf =>
    subst hsender
    exact h.touched hunsent hf
  | sent id noted now hsender hunsent =>
    subst hsender
    exact h.note hc hunsent
  | recorded eventId event =>
    refine h.record hc fun hsome => hnoted (pid, .eventRecorded eventId event) ?_ hsome
    rw [World.newEvents_advance]
    exact List.mem_singleton_self _

/-! ## Runs -/

/-- What has been recorded since the run began, and that it was delivered. -/
structure Accounted (s : Store) (Reported : String → WebhookEventPayload → Prop) (w : World) :
    Prop where
  recorded : ∀ eventId, w.store.Recorded eventId → s.Recorded eventId ∨
    ∃ q event, (q, .eventRecorded eventId event) ∈ w.trace
  delivered : ∀ q eventId event, (q, .eventRecorded eventId event) ∈ w.trace →
    Reported eventId event

theorem Accounted.step {s : Store} (h : Accounted s Reported w) {Sender : Nat → Prop}
    (he : Effect Sender Reported pid w w') : Accounted s Reported w' := by
  cases he with
  | recorded eventId event hreported hnew =>
    constructor
    · intro eventId' hrecorded
      rcases (recorded_record eventId').mp hrecorded with hold | rfl
      · rcases h.recorded eventId' hold with hold | ⟨q, event', hmem⟩
        · exact .inl hold
        · exact .inr ⟨q, event', List.mem_append_left _ hmem⟩
      · exact .inr ⟨pid, event, List.mem_append_right _ (List.mem_singleton_self _)⟩
    · intro q eventId' event' hmem
      rcases List.mem_append.mp hmem with hmem | hmem
      · exact h.delivered q eventId' event' hmem
      · simp only [List.map_cons, List.map_nil, List.mem_singleton, Prod.mk.injEq,
          Event.eventRecorded.injEq] at hmem
        obtain ⟨-, rfl, rfl⟩ := hmem
        exact hreported
  | idle => exact h
  | created | found | touched =>
    exact ⟨fun eventId hrecorded => by simpa using h.recorded eventId hrecorded,
      fun q eventId event hmem => h.delivered q eventId event (by simpa using hmem)⟩
  | sendCalled | sent =>
    exact ⟨fun eventId hrecorded => by simpa using h.recorded eventId hrecorded,
      fun q eventId event hmem => h.delivered q eventId event (by simpa using hmem)⟩

theorem sending_meets (env : Environment) {s : Store} (hs : s.Consistent) (deliveryId : Id)
    (previousAttempts : Nat) (idempotencyKey : String) (message : EmailMessage)
    (Reported : String → WebhookEventPayload → Prop) :
    Config.Meets (discipline (fun pid => pid = 0) Reported).inv
      (discipline (fun pid => pid = 0) Reported).effect (fun r pid => Ended pid r)
      (sending env s deliveryId previousAttempts idempotencyKey message) := by
  refine ⟨hs, by simp [sending, Config.init, Config.act], fun pid r p hp => ?_⟩
  cases pid with
  | zero =>
    obtain ⟨rfl, rfl⟩ := Prod.mk.inj (Option.some.inj hp)
    exact handler_ensures env _ (by simp [World.Unused, sending, Config.init, Config.act])
      (fun _ => rfl) fun _ _ h => by cases h
  | succ pid => cases hp

/-- When the delivery and all webhooks have ended, the row has the status of the latest
event of the message that it sent, or that of the acceptance, as long as no such event was
recorded before the row had the id of the message. -/
theorem no_event_lost (env : Environment) (s : Store) (hs : s.Consistent) (row : EmailDelivery)
    (hrow : row ∈ s.emailDeliveries) (hnew : row.providerMessageId = none) (previousAttempts : Nat)
    (idempotencyKey : String) (message : EmailMessage) (acts : List (Action Request Input))
    (hacts : ∀ r, .request r ∈ acts → ∃ eventId event, r = .recordEvent eventId event)
    (hids : ∀ eventId event event', .request (.recordEvent eventId event) ∈ acts →
      .request (.recordEvent eventId event') ∈ acts → event = event')
    (hended : ∀ pid < ((sending env s row.id previousAttempts idempotencyKey message).run
        (handler env) acts).pool.length,
      (((sending env s row.id previousAttempts idempotencyKey message).run
        (handler env) acts).outcome pid).isSome)
    (messageId : String)
    (hsent : ((sending env s row.id previousAttempts idempotencyKey message).run
      (handler env) acts).outcome 0 =
        some (.attemptDelivery row.id previousAttempts idempotencyKey message,
          .ok (.delivery ⟨some row.id, some messageId, .sent⟩)))
    (hfresh : ∀ eventId event, .request (.recordEvent eventId event) ∈ acts →
      (event.entry messageId).isSome → ¬ s.Recorded eventId)
    (hnoted : Config.Along (NotedFirst row.id messageId) (handler env)
      (sending env s row.id previousAttempts idempotencyKey message) acts) :
    ∃ d ∈ ((sending env s row.id previousAttempts idempotencyKey message).run
        (handler env) acts).world.store.emailDeliveries,
      d.id = row.id ∧ Latest (reports messageId acts) d.register ∧
      (d.lastEventAt = none → d.status = .sent) := by
  have hmeets := sending_meets env hs row.id previousAttempts idempotencyKey message
    fun eventId event => .request (.recordEvent eventId event) ∈ acts
  have hreq : ∀ r, .request r ∈ acts → ∀ pid w, w.store.Consistent → w.Unused pid →
      Ensures (discipline (fun pid => pid = 0)
        fun eventId event => .request (.recordEvent eventId event) ∈ acts).contract pid
        (Ended pid r) (handler env r) w := by
    intro r hr pid w _ hunused
    obtain ⟨eventId, event, rfl⟩ := hacts r hr
    refine handler_ensures env _ hunused (fun h => absurd rfl (h eventId event)) ?_
    rintro _ _ ⟨⟩
    exact hr
  have htracked := Config.Meets.invariant hreq hmeets (P := Tracked row.id messageId)
    (A := NotedFirst row.id messageId) (.unsent (fun _ h => by cases h) ⟨row, hrow, rfl, hnew⟩ rfl)
    (fun pid w w' hinv _ he hA h => h.step hinv he hA) hnoted
  have haccounted := Config.Meets.invariant hreq hmeets
    (P := Accounted s fun eventId event => .request (.recordEvent eventId event) ∈ acts)
    (A := fun _ _ => True) ⟨fun _ h => .inl h, fun _ _ _ h => by cases h⟩
    (fun pid w w' _ _ he _ h => h.step he) (Config.Along.trivial acts)
  have hfinal := hmeets.run hreq
  obtain ⟨_, heq, hnote⟩ := hfinal.outcome hsent rfl
  cases heq
  generalize hc : (sending env s row.id previousAttempts idempotencyKey message).run
    (handler env) acts = c at *
  have hsame : ∀ e, e ∈ reported messageId c.world.trace ↔ e ∈ reports messageId acts := by
    intro e
    rw [mem_reported, reports, List.mem_filterMap]
    constructor
    · rintro ⟨q, eventId, event, hmem, he⟩
      exact ⟨_, haccounted.delivered q eventId event hmem, he⟩
    · rintro ⟨a, ha, he⟩
      split at he
      · rename_i eventId event
        obtain ⟨pid, p, hp⟩ := Config.mem_pool_of_request (handler env)
          (sending env s row.id previousAttempts idempotencyKey message) ha
        rw [hc] at hp
        have hlt : pid < c.pool.length := (List.getElem?_eq_some_iff.mp hp).1
        have hrecorded : c.world.store.Recorded eventId := by
          obtain ⟨⟨r, o⟩, ho⟩ := Option.isSome_iff_exists.mp (hended pid hlt)
          have hr : r = .recordEvent eventId event := by
            unfold Config.outcome at ho
            rw [hp] at ho
            split at ho <;> simp_all
          subst hr
          exact hfinal.outcome ho
        rcases haccounted.recorded eventId hrecorded with hold | ⟨q, event', hmem⟩
        · exact absurd hold (hfresh eventId event ha (by rw [he]; rfl))
        · have hevent := hids eventId event event' ha (haccounted.delivered q eventId event' hmem)
          subst hevent
          exact ⟨q, eventId, event, hmem, he⟩
      · cases he
  cases htracked with
  | unsent hunsent => exact absurd hnote (hunsent messageId)
  | sent _ hrow' =>
    obtain ⟨d, hd, hid, -, hlatest, hstatus⟩ := hrow'
    exact ⟨d, hd, hid, hlatest.congr hsame, hstatus⟩
  | elsewhere other _ hnot => exact absurd hnote hnot

end Steps

/-! ## One message and its delivery -/

def pending : Store := ⟨1, [EmailDelivery.create 0 .passwordReset "resend" "a@example.org" "key"], []⟩

theorem pending_consistent : pending.Consistent := by
  refine ⟨⟨List.pairwise_singleton _ _, List.nodup_nil⟩, fun d hd _ => ?_⟩
  rw [List.mem_singleton.mp hd]
  rfl

def blank : EmailMessage := ⟨"", "", "", "", "", "", ""⟩

def accepts (n : Nat) : List (Action Request Input) :=
  List.replicate n (.advance 0 ⟨0, .ok "message"⟩)

/-- The webhook of the delivery of the message. -/
def reportDelivered : List (Action Request Input) :=
  [.request (.recordEvent "event" ⟨"email.delivered", 20, some "message"⟩),
    .advance 1 ⟨0, .ok ""⟩]

theorem no_event_lost_noted :
    ∃ d ∈ ((sending .transparent pending 0 0 "key" blank).run (handler .transparent)
      (accepts 4 ++ reportDelivered)).world.store.emailDeliveries,
      d.id = 0 ∧ Latest [(20, .delivered)] d.register ∧ (d.lastEventAt = none → d.status = .sent) := by
  refine no_event_lost .transparent pending pending_consistent
    (EmailDelivery.create 0 .passwordReset "resend" "a@example.org" "key")
    (List.mem_singleton_self _) rfl 0 "key" blank (accepts 4 ++ reportDelivered) ?_ ?_ ?_ "message"
    ?_ ?_ ?_
  · intro r hr
    simp [accepts, reportDelivered] at hr
    exact ⟨_, _, hr⟩
  · intro eventId event event' h h'
    simp [accepts, reportDelivered] at h h'
    rw [h.2, h'.2]
  · decide +kernel
  · decide +kernel
  · intro eventId event _ _ hmem
    cases hmem
  · decide +kernel

/-- The webhook comes between the answer of the provider and the note in the row. -/
theorem delivered_event_lost :
    (∀ pid < ((sending .transparent pending 0 0 "key" blank).run (handler .transparent)
      (accepts 2 ++ reportDelivered ++ accepts 2)).pool.length,
      (((sending .transparent pending 0 0 "key" blank).run (handler .transparent)
        (accepts 2 ++ reportDelivered ++ accepts 2)).outcome pid).isSome) ∧
    ((sending .transparent pending 0 0 "key" blank).run (handler .transparent)
      (accepts 2 ++ reportDelivered ++ accepts 2)).outcome 0 =
        some (.attemptDelivery 0 0 "key" blank, .ok (.delivery ⟨some 0, some "message", .sent⟩)) ∧
    deliveryStatus "email.delivered" = some .delivered ∧
    ((sending .transparent pending 0 0 "key" blank).run (handler .transparent)
      (accepts 2 ++ reportDelivered ++ accepts 2)).world.store.emailDeliveries.map
        (fun d => (d.id, d.status)) = [(0, .sent)] := by
  decide +kernel

end ShipFlow.Email
