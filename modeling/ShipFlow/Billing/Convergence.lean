import ShipFlow.Billing.Trial
import ShipFlow.Relational.Latest

/-! The subscription of an organization as a register of what has been reported on it. -/

namespace ShipFlow.Billing
open Interleaving Interleaving.Process Relational

variable {Remote : Type} (env : Environment Remote)

/-! ## Reports -/

/-- What the row of an organization keeps of a subscription at Stripe. -/
structure ProviderState where
  stripeSubscriptionId : String
  stripePriceId : String
  stripeLatestInvoiceId : Option String
  interval : BillingInterval
  status : SubscriptionStatus
  automaticTaxEnabled : Bool
  cancelAtPeriodEnd : Bool
  currentPeriodStart : Time
  currentPeriodEnd : Time
  trialStart : Option Time
  trialEnd : Option Time
  canceledAt : Option Time
  endedAt : Option Time
  deriving DecidableEq, Repr

def Subscription.state (r : Subscription) : ProviderState where
  stripeSubscriptionId := r.stripeSubscriptionId
  stripePriceId := r.stripePriceId
  stripeLatestInvoiceId := r.stripeLatestInvoiceId
  interval := r.interval
  status := r.status
  automaticTaxEnabled := r.automaticTaxEnabled
  cancelAtPeriodEnd := r.cancelAtPeriodEnd
  currentPeriodStart := r.currentPeriodStart
  currentPeriodEnd := r.currentPeriodEnd
  trialStart := r.trialStart
  trialEnd := r.trialEnd
  canceledAt := r.canceledAt
  endedAt := r.endedAt

def ProviderSubscription.state (sub : ProviderSubscription) (interval : BillingInterval) :
    ProviderState where
  stripeSubscriptionId := sub.id
  stripePriceId := sub.priceId
  stripeLatestInvoiceId := sub.latestInvoiceId
  interval := interval
  status := sub.status
  automaticTaxEnabled := sub.automaticTaxEnabled
  cancelAtPeriodEnd := sub.cancelAtPeriodEnd
  currentPeriodStart := sub.currentPeriodStart
  currentPeriodEnd := sub.currentPeriodEnd
  trialStart := sub.trialStart
  trialEnd := sub.trialEnd
  canceledAt := sub.canceledAt
  endedAt := sub.endedAt

/-- The row of an organization as a dated register. -/
def Store.held (s : Store Remote) (organizationId : Id) : Option (Time × ProviderState) :=
  (s.subscriptionOf organizationId).map fun r => (r.lastStripeEventCreatedAt, r.state)

/-- The organization that a subscription is of, and its state; there is none if the product or
the price is not one of ours. -/
def ProviderSubscription.report (customers : List StripeCustomer) (sub : ProviderSubscription) :
    Option (Id × ProviderState) :=
  match sub.organizationId.or
    ((customers.find? fun c => c.stripeCustomerId == sub.customerId).map
      StripeCustomer.organizationId) with
  | none => none
  | some organizationId =>
    if sub.productId != env.stripeProProductId then none
    else (intervalForPrice env sub.priceId).map fun interval =>
      (organizationId, sub.state interval)

/-- The subscription that Stripe answers with when the charge makes us cancel it. -/
def canceledForCharge (chargeId : String) (remote : Remote) : Option ProviderSubscription :=
  match env.stripe.resolveSubscriptionForCharge chargeId remote with
  | .ok (some subscriptionId) => (env.stripe.cancelSubscriptionNow subscriptionId remote).1.toOption
  | _ => none

namespace BillingWebhookEvent

/-- The subscription that Stripe answers with when the event is processed. -/
def answer (remote : Remote) (event : BillingWebhookEvent) : Option ProviderSubscription :=
  match event.kind with
  | .checkoutCompleted _ _ _ (some subscriptionId) =>
    (env.stripe.retrieve subscriptionId remote).toOption
  | .subscriptionChanged sub => (env.stripe.retrieve sub.id remote).toOption
  | .invoiceChanged _ (some subscriptionId) => (env.stripe.retrieve subscriptionId remote).toOption
  | .chargeRefunded chargeId fullyRefunded =>
    if fullyRefunded then canceledForCharge env chargeId remote else none
  | .chargeDisputed chargeId =>
    if chargeId != "" then canceledForCharge env chargeId remote else none
  | _ => none

/-- A completed Checkout session names the customer of its organization. -/
def customers (event : BillingWebhookEvent) (rows : List StripeCustomer) : List StripeCustomer :=
  match event.kind with
  | .checkoutCompleted _ customerId (some organizationId) _ =>
    putCustomer organizationId customerId none rows
  | _ => rows

/-- What processing the event reports: the state of a subscription at Stripe at that moment,
under the date of the event. -/
def report (s : Store Remote) (event : BillingWebhookEvent) : Option (Id × Time × ProviderState) :=
  ((event.answer env s.stripe).bind
    (ProviderSubscription.report env (event.customers s.stripeCustomers))).map
    fun x => (x.1, event.createdAt, x.2)

end BillingWebhookEvent

def Store.processed (s : Store Remote) (eventId : String) : Bool :=
  s.processedStripeEvents.any fun e => e.id == eventId

abbrev Delivery (Remote : Type) :=
  Step (Request Remote) Input (Store Remote) Event Failure Unit

/-- The event, unless it had been processed before or its delivery has failed. -/
def workedBy (s : Store Remote) (event : BillingWebhookEvent) :
    Except Failure Unit → Option BillingWebhookEvent
  | .ok _ => if s.processed event.id then none else some event
  | .error _ => none

/-- The event that a request has worked off. -/
def workedOff (step : Delivery Remote) : Option BillingWebhookEvent :=
  match step.call.request with
  | .webhook rawBody signature =>
    match env.stripe.verifyWebhook rawBody signature (step.call.inputs 0).now with
    | .ok event => workedBy step.before.store event step.outcome
    | .error _ => none
  | _ => none

/-- The part of a report that is about the organization. -/
def about (organizationId : Id) (report : Option (Id × Time × ProviderState)) :
    Option (Time × ProviderState) :=
  report.bind fun x => if x.1 = organizationId then some x.2 else none

def reportOf (organizationId : Id) (step : Delivery Remote) : Option (Time × ProviderState) :=
  (workedOff env step).bind fun event => about organizationId (event.report env step.before.store)

/-- The reports on the organization, in the order in which they were made. -/
def reports (organizationId : Id) (record : List (Delivery Remote)) : List (Time × ProviderState) :=
  record.filterMap (reportOf env organizationId)

/-! ## Processing -/

section Steps
variable {env} {pid : Nat} {w : World Remote} {s s' s'' : Store Remote}
  {report : Option (Id × Time × ProviderState)}

/-- The rows that a delivery is about stay as they are. -/
def Unsynced (s s' : Store Remote) : Prop :=
  s'.subscriptions = s.subscriptions ∧ s'.processedStripeEvents = s.processedStripeEvents

/-- The register of every organization takes the part of the report that is about it; a
failure reports nothing. -/
def Records (s : Store Remote) (report : Option (Id × Time × ProviderState))
    (r : Except Failure Unit) (s' : Store Remote) : Prop :=
  s'.processedStripeEvents = s.processedStripeEvents ∧ ∀ organizationId,
    s'.held organizationId = match r with
      | .ok _ =>
        (about organizationId report).toList.foldl Register.absorb (s.held organizationId)
      | .error _ => s.held organizationId

theorem Unsynced.held (h : Unsynced s s') (organizationId : Id) :
    s'.held organizationId = s.held organizationId := by
  rw [Store.held, Store.subscriptionOf, h.1]
  rfl

theorem Unsynced.trans (h : Unsynced s s') (h' : Unsynced s' s'') : Unsynced s s'' :=
  ⟨h'.1.trans h.1, h'.2.trans h.2⟩

theorem Unsynced.failed (h : Unsynced s s') (e : Failure) : Records s report (.error e) s' :=
  ⟨h.2, h.held⟩

theorem Unsynced.silent (h : Unsynced s s') : Records s none (.ok ()) s' :=
  ⟨h.2, h.held⟩

theorem Records.after {r : Except Failure Unit} (h : Unsynced s s') (h' : Records s' report r s'') :
    Records s report r s'' := by
  refine ⟨h'.1.trans h.2, fun organizationId => ?_⟩
  rw [h'.2, h.held]

/-- The row that a sync writes. -/
theorem held_put (row : Subscription) (s : Store Remote) (organizationId : Id) :
    ({ s with subscriptions := putSubscription row s.subscriptions } : Store Remote).held
        organizationId =
      if row.organizationId = organizationId then some (row.lastStripeEventCreatedAt, row.state)
      else s.held organizationId := by
  unfold Store.held
  have hput := subscriptionOf_put row s organizationId
  change Option.map _ ((putSubscription row s.subscriptions).find? _) = _
  rw [hput]
  split <;> rfl

/-- A report that is not later than the row is no news. -/
theorem records_stale {organizationId : Id} {eventCreatedAt : Time} {state : ProviderState}
    (h : (s.subscriptionOf organizationId).any (fun r =>
      decide (eventCreatedAt ≤ r.lastStripeEventCreatedAt)) = true) (hs : Unsynced s s') :
    Records s (some (organizationId, eventCreatedAt, state)) (.ok ()) s' := by
  refine ⟨hs.2, fun owner => ?_⟩
  rw [hs.held]
  by_cases howner : organizationId = owner
  · subst howner
    cases hrow : s.subscriptionOf organizationId with
    | none => simp [hrow] at h
    | some row =>
      have hlate : ¬row.lastStripeEventCreatedAt < eventCreatedAt := by simpa [hrow] using h
      simp [about, Store.held, hrow, Register.absorb, hlate]
  · simp [about, howner]

/-- A report that is later than the row replaces it. -/
theorem records_synced (row : Subscription)
    (h : (s.subscriptionOf row.organizationId).any (fun r =>
      decide (row.lastStripeEventCreatedAt ≤ r.lastStripeEventCreatedAt)) = false)
    (hs : s'.subscriptions = putSubscription row s.subscriptions)
    (hprocessed : s'.processedStripeEvents = s.processedStripeEvents) :
    Records s (some (row.organizationId, row.lastStripeEventCreatedAt, row.state)) (.ok ()) s' := by
  refine ⟨hprocessed, fun owner => ?_⟩
  have hheld : s'.held owner = ({ s with subscriptions := putSubscription row s.subscriptions } :
      Store Remote).held owner := by
    rw [Store.held, Store.subscriptionOf, hs]
    rfl
  rw [hheld, held_put]
  by_cases howner : row.organizationId = owner
  · rw [if_pos howner]
    subst howner
    cases hrow : s.subscriptionOf row.organizationId with
    | none => simp [about, Store.held, hrow, Register.absorb]
    | some r =>
      have hlater : r.lastStripeEventCreatedAt < row.lastStripeEventCreatedAt := by
        simpa [hrow] using h
      simp [about, Store.held, hrow, Register.absorb, hlater]
  · simp [about, howner]

theorem callStripe_answers {α : Type} (call : StripeCall α) :
    Ends (fun _ => True) pid
      (fun r w' => r = (call.perform env.stripe w.store.stripe).1 ∧
        w'.store = { w.store with stripe := (call.perform env.stripe w.store.stripe).2 })
      (callStripe env call) w := by
  unfold callStripe
  refine Ends.atomically (fun i _ answer s' hm => ?_) fun i _ e hm => by cases hm
  cases hm
  cases (call.perform env.stripe w.store.stripe).1 with
  | ok b => exact ⟨rfl, rfl⟩
  | error e => exact ⟨rfl, rfl⟩

theorem writeBillingCause_unsynced (organizationId : Id) (eventId : String)
    (cause : BillingNotificationCause) (createdAt : Time) :
    Ends (fun _ => True) pid (fun _ w' => Unsynced w.store w'.store)
      (writeBillingCause organizationId eventId cause createdAt) w := by
  unfold writeBillingCause
  rw [← Process.bind_pure (Process.atomically _ _)]
  refine Ends.commit (fun _ => rfl) (fun i _ u s' hm => ?_) fun i _ e _ => ⟨rfl, rfl⟩
  obtain ⟨organization, _, hfound, hnote⟩ := (Transaction.bind_ok _ _ _ _ _).mp hm
  obtain ⟨-, rfl⟩ := findOrganization_ok.mp hfound
  rcases writeNotification_ok hnote with rfl | ⟨rows, rfl⟩
  · exact Ends.pure ⟨rfl, rfl⟩
  · exact Ends.pure ⟨rfl, rfl⟩

theorem syncSubscription_records (sub : ProviderSubscription) (eventCreatedAt : Time)
    (syncContext : SubscriptionSyncContext) :
    Ends (fun _ => True) pid
      (fun r w' => Records w.store
        ((sub.report env w.store.stripeCustomers).map fun x => (x.1, eventCreatedAt, x.2)) r
        w'.store)
      (syncSubscription env sub eventCreatedAt syncContext) w := by
  have hself : Unsynced w.store w.store := ⟨rfl, rfl⟩
  unfold syncSubscription ProviderSubscription.report
  refine Ends.query ?_
  -- an event of a customer that is not known is passed over
  cases sub.organizationId.or ((w.store.stripeCustomers.find? fun c =>
      c.stripeCustomerId == sub.customerId).map StripeCustomer.organizationId) with
  | none => exact Ends.pure hself.silent
  | some organizationId =>
    dsimp only
    split
    · exact Ends.pure hself.silent
    · cases intervalForPrice env sub.priceId with
      | none => exact Ends.pure hself.silent
      | some interval =>
        refine Ends.statement (fun plan s' hplan => ?_) fun e _ => hself.failed e
        obtain ⟨-, rfl⟩ := findPlan_ok.mp hplan
        refine Ends.atomically (fun i _ existing s' hread => ?_) fun i _ e hm => by cases hm
        obtain ⟨rfl, rfl⟩ := Table.findFirst_ok.mp hread
        split
        -- a stale event may still leave a notification, but it reports nothing
        · rename_i hstale
          have hrecords : Records w.store
              (some (organizationId, eventCreatedAt, sub.state interval)) (.ok ()) w.store :=
            records_stale hstale hself
          split
          · apply (writeBillingCause_unsynced _ _ _ _).mono
            intro r w' hw
            cases r with
            | ok _ => exact records_stale hstale hw
            | error e => exact hw.failed e
          · exact Ends.pure hrecords
        · rename_i hlater
          refine Ends.commit (fun _ => rfl) (fun i _ written s' hm => ?_) fun i _ e _ =>
            hself.failed e
          obtain ⟨-, nextId, notifications, rfl⟩ := writeSubscription_ok hm
          exact Ends.pure (records_synced
            (subscriptionRow env organizationId plan.id interval sub _ eventCreatedAt)
            (Bool.eq_false_iff.mpr hlater) rfl rfl)

theorem retrieveAndSync_records (subscriptionId : String) (eventCreatedAt : Time)
    (eventId : String) :
    Ends (fun _ => True) pid
      (fun r w' => Records w.store
        (((env.stripe.retrieve subscriptionId w.store.stripe).toOption.bind
          (ProviderSubscription.report env w.store.stripeCustomers)).map
          fun x => (x.1, eventCreatedAt, x.2)) r w'.store)
      (retrieveAndSync env subscriptionId eventCreatedAt eventId) w := by
  apply Ends.bind
  apply (callStripe_answers _).mono
  rintro r w₁ ⟨hr, hw⟩
  obtain rfl : r = env.stripe.retrieve subscriptionId w.store.stripe := hr
  have hsame : Unsynced w.store w₁.store := by rw [hw]; exact ⟨rfl, rfl⟩
  have hcustomers : w₁.store.stripeCustomers = w.store.stripeCustomers := by rw [hw]
  cases hanswer : env.stripe.retrieve subscriptionId w.store.stripe with
  | error e => exact hsame.failed e
  | ok sub =>
    apply (syncSubscription_records sub eventCreatedAt _).mono
    intro r w₂ hrecords
    rw [hcustomers] at hrecords
    exact hrecords.after hsame

theorem processCheckout_records (event : BillingWebhookEvent) (sessionId customerId : String)
    (organizationId : Option Id) (subscriptionId : Option String)
    (hkind : event.kind = .checkoutCompleted sessionId customerId organizationId subscriptionId) :
    Ends (fun _ => True) pid (fun r w' => Records w.store (event.report env w.store) r w'.store)
      (processCheckout env event sessionId customerId organizationId subscriptionId) w := by
  have hself : Unsynced w.store w.store := ⟨rfl, rfl⟩
  unfold processCheckout BillingWebhookEvent.report BillingWebhookEvent.answer
    BillingWebhookEvent.customers
  rw [hkind]
  -- the reservation goes first; what is left of the event happens in a store without it
  refine Ends.commit (fun _ => rfl) (fun i _ n s₁ hm => ?_) fun i _ e _ => hself.failed e
  obtain ⟨-, rfl⟩ := Table.deleteMany_ok.mp hm
  cases organizationId with
  | none =>
    cases subscriptionId with
    | none => exact Ends.pure ⟨rfl, fun _ => rfl⟩
    | some subscriptionId =>
      exact (retrieveAndSync_records _ _ _).mono fun _ _ h => Records.after ⟨rfl, rfl⟩ h
  | some organizationId =>
    refine Ends.statement (fun c s₂ hm => ?_) fun e _ => ⟨rfl, fun _ => rfl⟩
    obtain ⟨-, rfl⟩ := upsert_put hm
    cases subscriptionId with
    | none => exact Ends.pure ⟨rfl, fun _ => rfl⟩
    | some subscriptionId =>
      exact (retrieveAndSync_records _ _ _).mono fun _ _ h => Records.after ⟨rfl, rfl⟩ h

theorem cancelForCharge_records (chargeId : String) (eventCreatedAt : Time) (eventId : String)
    (cause : BillingNotificationCause) :
    Ends (fun _ => True) pid
      (fun r w' => Records w.store
        (((canceledForCharge env chargeId w.store.stripe).bind
          (ProviderSubscription.report env w.store.stripeCustomers)).map
          fun x => (x.1, eventCreatedAt, x.2)) r w'.store)
      (cancelForCharge env chargeId eventCreatedAt eventId cause) w := by
  unfold cancelForCharge canceledForCharge
  apply Ends.bind
  apply (callStripe_answers _).mono
  rintro r w₁ ⟨hr, hw⟩
  obtain rfl : r = env.stripe.resolveSubscriptionForCharge chargeId w.store.stripe := hr
  have hw₁ : w₁.store = w.store := hw
  have hself : Unsynced w.store w₁.store := by rw [hw₁]; exact ⟨rfl, rfl⟩
  cases hcharge : env.stripe.resolveSubscriptionForCharge chargeId w.store.stripe with
  | error e => exact hself.failed e
  | ok subscriptionId =>
    cases subscriptionId with
    | none => exact Ends.pure hself.silent
    | some subscriptionId =>
      apply Ends.bind
      apply (callStripe_answers _).mono
      rintro r w₂ ⟨hr, hw₂⟩
      -- the subscription that is synced is the one that Stripe has answered the cancellation with
      obtain rfl : r = (env.stripe.cancelSubscriptionNow subscriptionId w₁.store.stripe).1 := hr
      rw [hw₁] at hw₂ ⊢
      have hsame : Unsynced w.store w₂.store := by rw [hw₂]; exact ⟨rfl, rfl⟩
      have hcustomers : w₂.store.stripeCustomers = w.store.stripeCustomers := by rw [hw₂]
      dsimp only
      cases hanswer : (env.stripe.cancelSubscriptionNow subscriptionId w.store.stripe).1 with
      | error e => exact hsame.failed e
      | ok sub =>
        apply (syncSubscription_records sub eventCreatedAt _).mono
        intro r w₃ hrecords
        rw [hcustomers] at hrecords
        exact hrecords.after hsame

theorem processEvent_records (event : BillingWebhookEvent) :
    Ends (fun _ => True) pid (fun r w' => Records w.store (event.report env w.store) r w'.store)
      (processEvent env event) w := by
  have hself : Unsynced w.store w.store := ⟨rfl, rfl⟩
  cases hkind : event.kind with
  | checkoutCompleted sessionId customerId organizationId subscriptionId =>
    rw [processEvent, hkind]
    exact processCheckout_records event _ _ _ _ hkind
  | subscriptionChanged sub =>
    rw [processEvent, BillingWebhookEvent.report, BillingWebhookEvent.answer,
      BillingWebhookEvent.customers, hkind]
    exact retrieveAndSync_records _ _ _
  | invoiceChanged invoiceId subscriptionId =>
    rw [processEvent, BillingWebhookEvent.report, BillingWebhookEvent.answer,
      BillingWebhookEvent.customers, hkind]
    cases subscriptionId with
    | none => exact Ends.pure hself.silent
    | some subscriptionId => exact retrieveAndSync_records _ _ _
  | chargeRefunded chargeId fullyRefunded =>
    rw [processEvent, BillingWebhookEvent.report, BillingWebhookEvent.answer,
      BillingWebhookEvent.customers, hkind]
    dsimp only
    split
    · exact cancelForCharge_records _ _ _ _
    · exact Ends.pure hself.silent
  | chargeDisputed chargeId =>
    rw [processEvent, BillingWebhookEvent.report, BillingWebhookEvent.answer,
      BillingWebhookEvent.customers, hkind]
    dsimp only
    split
    · exact cancelForCharge_records _ _ _ _
    · exact Ends.pure hself.silent
  | unsupported =>
    rw [processEvent, BillingWebhookEvent.report, BillingWebhookEvent.answer,
      BillingWebhookEvent.customers, hkind]
    exact Ends.pure hself.silent

/-- The identifiers of the events that are marked as processed. -/
def Store.processedIds (s : Store Remote) : List String :=
  s.processedStripeEvents.map ProcessedStripeEvent.id

theorem processed_eq_false_iff {eventId : String} :
    s.processed eventId = false ↔ eventId ∉ s.processedIds := by
  simp [Store.processed, Store.processedIds]

/-- In a table without duplicates an event that is not marked yet can be marked. -/
theorem markProcessed_marks {event : BillingWebhookEvent} (hids : w.store.processedIds.Nodup)
    (hnew : event.id ∉ w.store.processedIds) :
    Ends (fun _ => True) pid
      (fun r w' => r = .ok () ∧ w'.store.subscriptions = w.store.subscriptions ∧
        w'.store.processedIds = w.store.processedIds ++ [event.id])
      (markProcessed event) w := by
  let row : ProcessedStripeEvent :=
    ⟨event.id, event.type, event.providerObjectId, event.createdAt⟩
  have hrows : (w.store.processedStripeEvents ++ [row]).Pairwise fun a b => a.id ≠ b.id := by
    have hall : (w.store.processedIds ++ [event.id]).Nodup :=
      List.nodup_append.mpr ⟨hids, List.nodup_singleton _, by
        rintro a ha b hb rfl
        exact hnew (List.mem_singleton.mp hb ▸ ha)⟩
    have hmap : ((w.store.processedStripeEvents ++ [row]).map ProcessedStripeEvent.id).Nodup := by
      simpa [Store.processedIds, row] using hall
    exact List.pairwise_map.mp hmap
  have hsound : processedStripeEvents.sound w.store (w.store.processedStripeEvents ++ [row]) =
      true := by
    rw [Table.sound, Bool.and_eq_true]
    refine ⟨List.all_eq_true.mpr fun _ _ => rfl, distinct_iff_pairwise.mpr ?_⟩
    exact hrows.imp fun hne => beq_eq_false_iff_ne.mpr hne
  have hcreate : (processedStripeEvents.create row : Tx Remote _) w.store =
      .ok (row, { w.store with
        processedStripeEvents := w.store.processedStripeEvents ++ [row] }) :=
    Table.create_ok.mpr ⟨hsound, rfl, rfl⟩
  unfold markProcessed
  apply Ends.handle
  refine Ends.statement (fun b s' hm => ?_) fun e he => ?_
  · rw [hcreate] at hm
    cases hm
    exact ⟨rfl, rfl, by simp [Store.processedIds, row]⟩
  · rw [hcreate] at he
    cases he

/-- The store after a request that has worked off this event, or none. -/
def Leaves (env : Environment Remote) (s : Store Remote) (worked : Option BillingWebhookEvent)
    (s' : Store Remote) : Prop :=
  (∀ organizationId, s'.held organizationId =
    (worked.bind fun event => about organizationId (event.report env s)).toList.foldl
      Register.absorb (s.held organizationId)) ∧
  s'.processedIds = s.processedIds ++ worked.toList.map BillingWebhookEvent.id

theorem Unsynced.leaves (h : Unsynced s s') : Leaves env s none s' := by
  refine ⟨h.held, ?_⟩
  rw [Store.processedIds, h.2]
  simp [Store.processedIds]

theorem processVerified_leaves (event : BillingWebhookEvent) (hids : w.store.processedIds.Nodup) :
    Ends (fun _ => True) pid
      (fun r w' => Leaves env w.store (workedBy w.store event r) w'.store)
      (processVerified env event) w := by
  have hself : Unsynced w.store w.store := ⟨rfl, rfl⟩
  unfold processVerified
  refine Ends.query ?_
  change Ends _ pid _ (if w.store.processed event.id = true then _ else _) w
  cases hprocessed : w.store.processed event.id with
  | true =>
    refine Ends.pure ?_
    simpa [workedBy, hprocessed] using hself.leaves
  | false =>
    apply Ends.bind
    apply (processEvent_records event).mono
    rintro r w₁ ⟨hrows, hheld⟩
    -- an event that fails is not marked, and so it is worked off by a later delivery
    cases r with
    | error e =>
      refine ⟨hheld, ?_⟩
      rw [Store.processedIds, hrows]
      simp [workedBy, Store.processedIds]
    | ok u =>
      have hsame : w₁.store.processedIds = w.store.processedIds := by
        rw [Store.processedIds, hrows, Store.processedIds]
      have hnew : event.id ∉ w₁.store.processedIds := by
        rw [hsame]
        exact processed_eq_false_iff.mp hprocessed
      apply (markProcessed_marks (by rwa [hsame]) hnew).mono
      rintro r w₂ ⟨rfl, hsubscriptions, hmarked⟩
      constructor
      · intro organizationId
        rw [Store.held, Store.subscriptionOf, hsubscriptions]
        change w₁.store.held organizationId = _
        rw [hheld]
        simp [workedBy, hprocessed]
      · rw [hmarked, hsame]
        simp [workedBy, hprocessed]

/-! ## Checkout -/

/-- Run to its end, the request has left the rows alone that deliveries are about. -/
abbrev KeepsSubscriptions (pid : Nat) {α : Type} (p : Handler Remote α) (w : World Remote) : Prop :=
  Follows (fun _ => True) pid (fun w w' => Unsynced w.store w'.store) p w

theorem unsynced_of_steps {w w' : World Remote}
    (h : Relation.ReflTransGen (fun w w' => Unsynced w.store w'.store) w w') :
    Unsynced w.store w'.store := by
  induction h with
  | refl => exact ⟨rfl, rfl⟩
  | tail _ hstep ih => exact ih.trans hstep

theorem callStripe_keepsSubscriptions {α : Type} (call : StripeCall α) :
    KeepsSubscriptions pid (callStripe env call) w := by
  apply (callStripe_answers call).mono
  rintro r w' ⟨-, hw⟩
  have hsame : Unsynced w.store w'.store := by rw [hw]; exact ⟨rfl, rfl⟩
  exact .single hsame

theorem Reserves.unsynced {w' : World Remote} (h : Reserves pid w w') :
    Unsynced w.store w'.store := by
  obtain ⟨_, _, _, -, rfl⟩ := h
  exact ⟨rfl, rfl⟩

theorem OnlyReserves.keepsSubscriptions {α : Type} {p : Handler Remote α}
    (h : OnlyReserves pid p w) : KeepsSubscriptions pid p w :=
  h.mono fun _ _ hw => hw.lift id fun _ _ => Reserves.unsynced

theorem ensureCustomer_keepsSubscriptions (context : OrganizationContext) :
    KeepsSubscriptions pid (ensureCustomer env context) w := by
  unfold ensureCustomer
  refine Follows.commit (fun _ => rfl) fun i _ found s' hm => ?_
  obtain ⟨-, rfl⟩ := Table.findFirst_ok.mp hm
  refine ⟨.single ⟨rfl, rfl⟩, ?_⟩
  cases found with
  | some customer => exact Follows.pure
  | none =>
    refine Follows.bind (callStripe_keepsSubscriptions _) fun customerId w₁ => ?_
    rw [← Process.bind_pure (Process.statement _)]
    refine Follows.commit (fun _ => rfl) fun i _ customer s' hm => ⟨.single ?_, Follows.pure⟩
    obtain ⟨-, rfl⟩ := upsert_put hm
    exact ⟨rfl, rfl⟩

theorem createCheckoutSession_keepsSubscriptions (context : OrganizationContext)
    (interval : BillingInterval) :
    KeepsSubscriptions pid (createCheckoutSession env context interval) w := by
  unfold createCheckoutSession
  refine Follows.commit (fun _ => rfl) fun i _ status s' hm => ?_
  obtain ⟨-, rfl⟩ := (Transaction.reads_ok _ _ _ _).mp hm
  refine ⟨.single ⟨rfl, rfl⟩, Follows.rejectIf fun _ =>
    Follows.bind (ensureCustomer_keepsSubscriptions context) fun customer w₁ =>
    Follows.bind (reserveAttempts_only _ _ _).keepsSubscriptions fun reservation w₂ => ?_⟩
  split
  · exact Follows.pure
  · -- the session that Stripe has opened is recorded, or the reservation is released
    refine Follows.bind (Follows.handle (callStripe_keepsSubscriptions _) fun e w₃ =>
      Follows.bind (releases_only _).keepsSubscriptions fun _ _ => Follows.throw) fun session w₃ => ?_
    refine Follows.commit (fun _ => rfl) fun i _ u s' hm => ⟨.single ?_, Follows.pure⟩
    simp only [recordSession, Transaction.bind_ok, uuidv7_ok, Transaction.pure_ok] at hm
    obtain ⟨_, _, ⟨-, rfl⟩, _, _, hupsert, -, rfl⟩ := hm
    obtain ⟨-, rfl⟩ := upsert_put hupsert
    exact ⟨rfl, rfl⟩

/-! ## Histories -/

/-- The delivery is verified at the moment it arrives. -/
theorem process_alone (rawBody signature : String) (inputs : Nat → Input) :
    (process env rawBody signature).alone pid inputs w =
      match env.stripe.verifyWebhook rawBody signature (inputs 0).now with
      | .error _ => (.error (.http .unauthorized "Invalid Stripe webhook signature"), w)
      | .ok event => (processVerified env event).alone pid (fun n => inputs (n + 1)) w := by
  unfold process
  change Process.alone pid (.step _ _) inputs w = _
  rw [Process.alone, World.advance_idle]
  change Process.alone pid (match env.stripe.verifyWebhook rawBody signature (inputs 0).now with
    | .error _ => _
    | .ok event => _) _ w = _
  cases env.stripe.verifyWebhook rawBody signature (inputs 0).now with
  | error e => rfl
  | ok event => rfl

theorem perform_leaves (call : Call (Request Remote) Input) (hids : w.store.processedIds.Nodup) :
    Leaves env w.store (workedOff env (perform (handler env) pid call w))
      (perform (handler env) pid call w).after.store := by
  obtain ⟨r, inputs⟩ := call
  -- only a webhook reports, and only if its signature is right
  cases r with
  | createCheckoutSession context interval =>
    have hends : KeepsSubscriptions pid (handler env (.createCheckoutSession context interval)) w :=
      Follows.bind (createCheckoutSession_keepsSubscriptions context interval) fun _ _ => Follows.pure
    exact (unsynced_of_steps (hends.alone (f := inputs) fun _ => True.intro)).leaves
  | stripeChanges remote =>
    have hends : Ends (fun _ => True) pid (fun _ w' => Unsynced w.store w'.store)
        (handler env (.stripeChanges remote)) w := by
      simp only [handler]
      rw [← Process.bind_pure (Process.atomically _ _)]
      refine Ends.atomically (fun i _ u s' hm => ?_) fun i _ e hm => by cases hm
      rw [(Transaction.writes_ok _ _ _ _).mp hm]
      exact Ends.pure ⟨rfl, rfl⟩
    exact (hends.alone (f := inputs) fun _ => True.intro).leaves
  | webhook rawBody signature =>
    have hself : Unsynced w.store w.store := ⟨rfl, rfl⟩
    unfold workedOff perform
    dsimp only [handler]
    rw [process_alone]
    cases env.stripe.verifyWebhook rawBody signature (inputs 0).now with
    | error e => exact hself.leaves
    | ok event => exact (processVerified_leaves event hids).alone fun _ => True.intro

theorem workedBy_new {event e : BillingWebhookEvent} {r : Except Failure Unit}
    (h : workedBy s event r = some e) : e.id ∉ s.processedIds := by
  cases r with
  | error _ => cases h
  | ok _ =>
    obtain ⟨hnew, heq⟩ := Option.ite_none_left_eq_some.mp h
    cases heq
    exact processed_eq_false_iff.mp (Bool.eq_false_iff.mpr hnew)

theorem workedOff_new {step : Delivery Remote} {event : BillingWebhookEvent}
    (h : workedOff env step = some event) : event.id ∉ step.before.store.processedIds := by
  unfold workedOff at h
  split at h
  · split at h
    · exact workedBy_new h
    · cases h
  · cases h

theorem Leaves.nodup (step : Delivery Remote) (hids : step.before.store.processedIds.Nodup)
    (h : Leaves env step.before.store (workedOff env step) step.after.store) :
    step.after.store.processedIds.Nodup := by
  rw [h.2]
  cases hworked : workedOff env step with
  | none => simpa using hids
  | some event =>
    refine List.nodup_append.mpr ⟨hids, List.nodup_singleton _, ?_⟩
    rintro a ha b hb rfl
    have hevent : a = event.id := List.mem_singleton.mp hb
    exact workedOff_new hworked (hevent ▸ ha)

end Steps

/-- The events that a history has worked off are those newly marked as processed, and the
registers have taken its reports one after the other. -/
theorem history_leaves (pid : Nat) (w : World Remote) (hids : w.store.processedIds.Nodup)
    (calls : List (Call (Request Remote) Input)) :
    let record := history (handler env) pid w calls
    (lastWorld w record).store.processedIds.Nodup ∧
      (lastWorld w record).store.processedIds =
        w.store.processedIds ++ (record.filterMap (workedOff env)).map BillingWebhookEvent.id ∧
      ∀ organizationId, (lastWorld w record).store.held organizationId =
        (reports env organizationId record).foldl Register.absorb
          (w.store.held organizationId) := by
  -- over the calls, as the marks of one call are what the next one finds
  induction calls generalizing pid w with
  | nil => exact ⟨hids, by simp [history], fun _ => rfl⟩
  | cons call calls ih =>
    have hstep : Leaves env w.store (workedOff env (perform (handler env) pid call w))
        (perform (handler env) pid call w).after.store := perform_leaves call hids
    have hnodup := Leaves.nodup (perform (handler env) pid call w) hids hstep
    obtain ⟨hlast, hmarked, hheld⟩ := ih (pid + 1) _ hnodup
    simp only [history, lastWorld_cons]
    refine ⟨hlast, ?_, fun organizationId => ?_⟩
    · rw [hmarked, hstep.2, List.append_assoc, ← List.map_append]
      congr 2
      rw [List.filterMap_cons]
      cases workedOff env (perform (handler env) pid call w) <;> rfl
    · rw [hheld, hstep.1, ← List.foldl_append]
      congr 1
      rw [reports, reports, List.filterMap_cons]
      change (reportOf env organizationId (perform (handler env) pid call w)).toList ++ _ = _
      cases reportOf env organizationId (perform (handler env) pid call w) <;> rfl

/-- Whatever is delivered, in whatever order and however often, among checkouts and changes of
Stripe: every event is worked off once at most, and the subscription of an organization is
that of the latest report, so that no report is later than the row. Once all reports agree
on a state, the row comes to show this state if and only if it showed it before or one of
these reports is later than it. -/
theorem subscription_converges (env : Environment Remote) (s : Store Remote)
    (hids : s.processedIds.Nodup) (calls : List (Call (Request Remote) Input)) :
    let record := history (handler env) 0 ⟨s, []⟩ calls
    ((record.filterMap (workedOff env)).map BillingWebhookEvent.id).Nodup ∧ ∀ organizationId,
      (worldAfter env s calls).store.held organizationId =
        (reports env organizationId record).foldl Register.absorb (s.held organizationId) ∧
      (∀ report ∈ reports env organizationId record,
        ∃ held ∈ (worldAfter env s calls).store.held organizationId, report.1 ≤ held.1) ∧
      ∀ (more : List (Call (Request Remote) Input)) (state : ProviderState),
        let later := reports env organizationId
          (history (handler env) calls.length (worldAfter env s calls) more)
        (∀ report ∈ later, report.2 = state) →
        (((worldAfter env s (calls ++ more)).store.held organizationId).map Prod.snd = some state ↔
          ((worldAfter env s calls).store.held organizationId).map Prod.snd = some state ∨
          ∃ report ∈ later, ∀ held ∈ (worldAfter env s calls).store.held organizationId,
            held.1 < report.1) := by
  intro record
  obtain ⟨hnodup, hmarked, hheld⟩ := history_leaves env 0 ⟨s, []⟩ hids calls
  refine ⟨?_, fun organizationId => ⟨hheld organizationId, ?_, ?_⟩⟩
  · rw [hmarked] at hnodup
    exact (List.nodup_append.mp hnodup).2.1
  · intro report hreport
    have hlatest := (Register.latest_toList (s.held organizationId)).foldl
      (reports env organizationId record)
    rw [← hheld organizationId] at hlatest
    exact hlatest.le report (List.mem_append_right _ hreport)
  · intro more state later hagree
    have hfinal := (history_leaves env calls.length (worldAfter env s calls) hnodup more).2.2
      organizationId
    have happend : worldAfter env s (calls ++ more) = lastWorld (worldAfter env s calls)
        (history (handler env) calls.length (worldAfter env s calls) more) := by
      rw [worldAfter, lastWorld_history_append, Nat.zero_add]
      rfl
    rw [happend, hfinal]
    exact Register.foldl_absorb_value_iff hagree

/-- A payment that fails, and its repetition that succeeds. -/
def renewing : Environment (List StripeSubscription) := selling <| signing
  [("failed", ⟨"evt_1", 100, .invoice .payment_failed ⟨"in_1", some "sub_1"⟩⟩),
   ("paid", ⟨"evt_2", 200, .invoice .paid ⟨"in_2", some "sub_1"⟩⟩)]

/-- The subscription recovers after the first delivery. -/
def recovering : List (Call (Request (List StripeSubscription)) Input) :=
  [⟨.webhook "failed" "", fun _ => ⟨0⟩⟩,
   ⟨.stripeChanges [proSubscription "sub_1" .active], fun _ => ⟨0⟩⟩]

def redelivered : List (Call (Request (List StripeSubscription)) Input) :=
  [⟨.webhook "paid" "", fun _ => ⟨0⟩⟩, ⟨.webhook "failed" "", fun _ => ⟨0⟩⟩]

/-- The state of the subscription of the shop. -/
def shopState (status : SubscriptionStatus) : ProviderState where
  stripeSubscriptionId := "sub_1"
  stripePriceId := "price_monthly"
  stripeLatestInvoiceId := none
  interval := .monthly
  status := status
  automaticTaxEnabled := false
  cancelAtPeriodEnd := false
  currentPeriodStart := 100000
  currentPeriodEnd := 200000
  trialStart := none
  trialEnd := none
  canceledAt := none
  endedAt := none

theorem subscription_converges_recovering :
    ((worldAfter renewing (acme [proSubscription "sub_1" .past_due])
      (recovering ++ redelivered)).store.held 1).map Prod.snd = some (shopState .active) := by
  have hids : (acme [proSubscription "sub_1" .past_due]).processedIds.Nodup := by decide
  refine (((subscription_converges renewing _ hids recovering).2 1).2.2 redelivered
    (shopState .active) ?_).mpr (.inr ⟨(200000, shopState .active), ?_, ?_⟩)
  · decide +kernel
  · decide +kernel
  · decide +kernel

end ShipFlow.Billing
