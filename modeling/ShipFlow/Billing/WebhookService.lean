import ShipFlow.Billing.BillingService
import ShipFlow.Interleaving.Pool

/-! `StripeWebhookService`. -/

namespace ShipFlow.Billing
open Interleaving Relational
open Organizations (Organization)

variable {Remote : Type} (env : Environment Remote)

inductive BillingNotificationCause where
  | fullRefund
  | dispute
  deriving DecidableEq, Repr

structure SubscriptionSyncContext where
  eventId : String
  cause : Option BillingNotificationCause
  deriving DecidableEq, Repr

/-! ## Dates -/

def padStart (width n : Nat) : String :=
  let digits := toString n
  String.ofList (List.replicate (width - digits.length) '0') ++ digits

/-- Year, month and day of a day of the proleptic Gregorian calendar, counted from 1970. -/
def civilDate (day : Int) : Int × Nat × Nat :=
  let z := day + 719468
  let era := z / 146097
  let dayOfEra := (z % 146097).toNat
  let yearOfEra := (dayOfEra - dayOfEra / 1460 + dayOfEra / 36524 - dayOfEra / 146096) / 365
  let dayOfYear := dayOfEra - (365 * yearOfEra + yearOfEra / 4 - yearOfEra / 100)
  let shifted := (5 * dayOfYear + 2) / 153
  let month := if shifted < 10 then shifted + 3 else shifted - 9
  let year := yearOfEra + era * 400 + if month ≤ 2 then 1 else 0
  (year, month, dayOfYear - (153 * shifted + 2) / 5 + 1)

def toISOString (t : Time) : String :=
  let (year, month, day) := civilDate (t / 86400000)
  let ms := (t % 86400000).toNat
  let yearText :=
    if 0 ≤ year && year ≤ 9999 then padStart 4 year.toNat
    else (if year < 0 then "-" else "+") ++ padStart 6 year.natAbs
  yearText ++ "-" ++ padStart 2 month ++ "-" ++ padStart 2 day ++ "T" ++
    padStart 2 (ms / 3600000) ++ ":" ++ padStart 2 (ms / 60000 % 60) ++ ":" ++
    padStart 2 (ms / 1000 % 60) ++ "." ++ padStart 3 (ms % 1000) ++ "Z"

example : toISOString 1785587696789 = "2026-08-01T12:34:56.789Z" := by decide +kernel

/-! ## Notifications -/

/-- A billing notification to the owner; the event and the type identify it. -/
def billingNotification (organization : Organization) (eventId : String) (createdAt : Time)
    (type : NotificationType) (title message : String) (metadata : List (String × Option String)) :
    WriteNotificationInput where
  userId := organization.ownerId
  organizationId := some organization.id
  category := .billing
  type := type
  title := title
  message := message
  actionPath := some "/billing"
  metadata := metadata
  dedupeKey := s!"stripe:{eventId}:{type.name}"
  createdAt := some createdAt

def causeNotification (organization : Organization) (eventId : String) (createdAt : Time)
    (metadata : List (String × Option String)) : BillingNotificationCause → WriteNotificationInput
  | .fullRefund => billingNotification organization eventId createdAt .billingFullRefund
      "Subscription refunded"
      s!"The current Pro subscription for {organization.name} was fully refunded and canceled."
      metadata
  | .dispute => billingNotification organization eventId createdAt .billingDispute
      "Payment disputed"
      s!"A payment for {organization.name} was disputed and Pro access was removed."
      metadata

def syncNotifications (organization : Organization) (sub : ProviderSubscription)
    (existing : Option Subscription) (gracePeriodEndsAt : Option Time) (createdAt : Time)
    (syncContext : SubscriptionSyncContext) : List WriteNotificationInput :=
  let write := billingNotification organization syncContext.eventId createdAt
  let subscriptionId := ("subscriptionId", some sub.id)
  let was := fun status => existing.any fun r => r.status == status
  (match syncContext.cause with
    | some cause =>
      [causeNotification organization syncContext.eventId createdAt [subscriptionId] cause]
    | none =>
      if sub.status == .canceled && !was .canceled then
        [write .billingSubscriptionCanceled "Subscription canceled"
          s!"The Pro subscription for {organization.name} was canceled." [subscriptionId]]
      else []) ++
  (if sub.status == .trialing && !was .trialing then
    [write .billingTrialStarted "Pro trial started"
      s!"The Pro trial for {organization.name} has started."
      [subscriptionId, ("trialEnd", sub.trialEnd.map toISOString)]]
  else []) ++
  (if sub.status == .pastDue && !was .pastDue then
    [write .billingPaymentFailed "Subscription payment failed"
      s!"A payment for {organization.name} failed. Pro access remains available during the grace period."
      [subscriptionId, ("gracePeriodEndsAt", gracePeriodEndsAt.map toISOString)],
    write .billingGracePeriodStarted "Payment grace period started"
      s!"The seven-day payment grace period for {organization.name} has started."
      [subscriptionId, ("gracePeriodEndsAt", gracePeriodEndsAt.map toISOString)]]
  else []) ++
  (if sub.cancelAtPeriodEnd && !existing.any Subscription.cancelAtPeriodEnd then
    [write .billingCancellationScheduled "Subscription cancellation scheduled"
      s!"The Pro subscription for {organization.name} will end after the current billing period."
      [subscriptionId, ("currentPeriodEnd", some (toISOString sub.currentPeriodEnd))]]
  else [])

def writeNotifications (now : Time) : List WriteNotificationInput → Tx Remote Unit
  | [] => pure ()
  | input :: inputs => do
    writeNotification now input
    writeNotifications now inputs

def findOrganization (organizationId : Id) : Tx Remote Organization := do
  let found ← Transaction.reads fun s : Store Remote =>
    s.organizations.find? fun o => o.id == organizationId
  match found with
  | none => Transaction.fails .recordNotFound
  | some organization => return organization

def writeBillingCause (organizationId : Id) (eventId : String) (cause : BillingNotificationCause)
    (createdAt : Time) : Handler Remote Unit :=
  Process.atomically
    (fun i => do
      let organization ← findOrganization organizationId
      writeNotification i.now (causeNotification organization eventId createdAt [] cause))
    fun _ => []

/-! ## Synchronization -/

def intervalForPrice (priceId : String) : Option BillingInterval :=
  if priceId == env.stripeProMonthlyPriceId then some .monthly
  else if priceId == env.stripeProAnnualPriceId then some .annual
  else none

def gracePeriodEndsAt (sub : ProviderSubscription) (existing : Option Subscription)
    (eventCreatedAt : Time) : Option Time :=
  if sub.status == .pastDue then
    -- a deadline that has been set is kept
    (existing.bind Subscription.gracePeriodEndsAt).or
      (some (eventCreatedAt + days env.billingGracePeriodDays))
  else none

def subscriptionRow (organizationId planId : Id) (interval : BillingInterval)
    (sub : ProviderSubscription) (existing : Option Subscription) (eventCreatedAt : Time) :
    Subscription where
  organizationId := organizationId
  planId := planId
  stripeSubscriptionId := sub.id
  stripePriceId := sub.priceId
  stripeLatestInvoiceId := sub.latestInvoiceId
  interval := interval
  status := sub.status
  automaticTaxEnabled := sub.automaticTaxEnabled
  cancelAtPeriodEnd := sub.cancelAtPeriodEnd
  currentPeriodStart := sub.currentPeriodStart
  currentPeriodEnd := sub.currentPeriodEnd
  trialStart := sub.trialStart
  trialEnd := sub.trialEnd
  gracePeriodEndsAt := gracePeriodEndsAt env sub existing eventCreatedAt
  canceledAt := sub.canceledAt
  endedAt := sub.endedAt
  lastStripeEventCreatedAt := eventCreatedAt

/-- The transaction of `syncSubscription`, which gives the row that it has written. -/
def writeSubscription (row : Subscription) (sub : ProviderSubscription)
    (existing : Option Subscription) (eventCreatedAt : Time) (syncContext : SubscriptionSyncContext)
    (now : Time) : Tx Remote Subscription := do
  let _ ← checkoutSessions.deleteMany fun c => c.organizationId == row.organizationId
  let _ ← stripeCustomers.upsert (fun c => c.organizationId == row.organizationId)
    ⟨row.organizationId, sub.customerId, if sub.trialStart.isSome then some eventCreatedAt else none⟩
    fun c => { c with stripeCustomerId := sub.customerId }
  if sub.trialStart.isSome then
    let _ ← stripeCustomers.updateMany
      (fun c => c.organizationId == row.organizationId && c.trialUsedAt.isNone)
      fun c => { c with trialUsedAt := some eventCreatedAt }
  let written ← subscriptions.upsert (fun r => r.organizationId == row.organizationId) row
    fun _ => row
  let organization ← findOrganization row.organizationId
  writeNotifications now (syncNotifications organization sub existing row.gracePeriodEndsAt
    eventCreatedAt syncContext)
  return written

def readSubscription (organizationId : Id) : Handler Remote (Option Subscription) :=
  Process.atomically
    (fun _ => subscriptions.findFirst fun r => r.organizationId == organizationId)
    fun _ => [.subscriptionRead organizationId]

def syncSubscription (sub : ProviderSubscription) (eventCreatedAt : Time)
    (syncContext : SubscriptionSyncContext) : Handler Remote Unit := do
  let customer ← Process.query fun s : Store Remote =>
    s.stripeCustomers.find? fun c => c.stripeCustomerId == sub.customerId
  match sub.organizationId.or (customer.map StripeCustomer.organizationId) with
  | none => return ()
  | some organizationId =>
    if sub.productId != env.stripeProProductId then
      return ()
    else
      match intervalForPrice env sub.priceId with
      | none => return ()
      | some interval => do
        let plan ← Process.statement (findPlan fun p => p.code == .pro)
        -- read before the transaction that writes, whatever comes in between
        let existing ← readSubscription organizationId
        if existing.any fun r => eventCreatedAt ≤ r.lastStripeEventCreatedAt then
          match syncContext.cause with
          | some cause => writeBillingCause organizationId syncContext.eventId cause eventCreatedAt
          | none => return ()
        else
          let row := subscriptionRow env organizationId plan.id interval sub existing eventCreatedAt
          let _ ← Process.atomically
            (fun i => writeSubscription row sub existing eventCreatedAt syncContext i.now) fun
            | .ok written => [.synced written]
            | .error _ => []
          return ()

/-! ## Events -/

def retrieveAndSync (subscriptionId : String) (eventCreatedAt : Time) (eventId : String) :
    Handler Remote Unit := do
  let sub ← callStripe env (.retrieveSubscription subscriptionId)
  syncSubscription env sub eventCreatedAt ⟨eventId, none⟩

def processCheckout (event : BillingWebhookEvent) (sessionId customerId : String)
    (organizationId : Option Id) (subscriptionId : Option String) : Handler Remote Unit := do
  -- the reservation goes before the subscription is there
  let _ ← releaseReservations (.completed sessionId)
  match organizationId with
  | none => pure ()
  | some organizationId => do
    let _ ← Process.statement <| stripeCustomers.upsert
      (fun c => c.organizationId == organizationId) ⟨organizationId, customerId, none⟩
      fun c => { c with stripeCustomerId := customerId }
  match subscriptionId with
  | none => return ()
  | some subscriptionId => retrieveAndSync env subscriptionId event.createdAt event.id

def cancelForCharge (chargeId : String) (eventCreatedAt : Time) (eventId : String)
    (cause : BillingNotificationCause) : Handler Remote Unit := do
  let subscriptionId ← callStripe env (.resolveSubscriptionForCharge chargeId)
  match subscriptionId with
  | none => return ()
  | some subscriptionId => do
    let sub ← callStripe env (.cancelSubscriptionNow subscriptionId)
    syncSubscription env sub eventCreatedAt ⟨eventId, some cause⟩

def processEvent (event : BillingWebhookEvent) : Handler Remote Unit :=
  match event.kind with
  | .checkoutCompleted sessionId customerId organizationId subscriptionId =>
    processCheckout env event sessionId customerId organizationId subscriptionId
  | .subscriptionChanged sub => retrieveAndSync env sub.id event.createdAt event.id
  | .invoiceChanged _ (some subscriptionId) =>
    retrieveAndSync env subscriptionId event.createdAt event.id
  | .invoiceChanged _ none => return ()
  | .chargeRefunded chargeId fullyRefunded =>
    if fullyRefunded then cancelForCharge env chargeId event.createdAt event.id .fullRefund
    else return ()
  | .chargeDisputed chargeId =>
    if chargeId != "" then cancelForCharge env chargeId event.createdAt event.id .dispute
    else return ()
  | .unsupported => return ()

def markProcessed (event : BillingWebhookEvent) : Handler Remote Unit :=
  tryCatch
    (do
      let _ ← Process.statement <| processedStripeEvents.create
        ⟨event.id, event.type, event.providerObjectId, event.createdAt⟩
      return ())
    fun error => if error.isUniqueConstraintError then return () else throw error

def processVerified (event : BillingWebhookEvent) : Handler Remote Unit := do
  let processed ← Process.query fun s : Store Remote =>
    s.processedStripeEvents.any fun e => e.id == event.id
  if processed then
    return ()
  else
    -- an event that throws is not marked, and a later delivery works it off
    processEvent env event
    markProcessed event

def process (rawBody signature : String) : Handler Remote Unit := do
  let now ← Process.ask Input.now
  match env.stripe.verifyWebhook rawBody signature now with
  | .error _ => throw (.http .unauthorized "Invalid Stripe webhook signature")
  | .ok event => processVerified env event

/-! ## The service -/

/-- A request to the service, or a change of the state of Stripe that no request asked
for. -/
inductive Request (Remote : Type) where
  | createCheckoutSession (context : OrganizationContext) (interval : BillingInterval)
  | webhook (rawBody signature : String)
  | stripeChanges (remote : Remote)

def handler : Request Remote → Handler Remote Unit
  | .createCheckoutSession context interval => do
    let _ ← createCheckoutSession env context interval
    return ()
  | .webhook rawBody signature => process env rawBody signature
  | .stripeChanges remote => Process.atomically
      (fun _ => Transaction.writes fun s : Store Remote => { s with stripe := remote })
      fun _ => [.stripeChanged]

abbrev Config (Remote : Type) :=
  Interleaving.Config (Request Remote) Input (Store Remote) Event Failure Unit

/-! ### A shop -/

/-- A Stripe account whose state is its subscriptions and whose signed events are those of
the list; a charge carries the identifier of its subscription. -/
def signing (events : List (String × StripeEvent)) : StripeApi (List StripeSubscription) where
  constructEvent rawBody _ _ := events.lookup rawBody
  createCustomer subs _ _ := (some "cus_1", subs)
  createCheckoutSession subs _ _ := (none, subs)
  retrieveSubscription subs subscriptionId := subs.find? fun sub => sub.id == subscriptionId
  cancelSubscription subs subscriptionId :=
    let canceled := subs.map fun sub =>
      if sub.id == subscriptionId then { sub with status := .canceled } else sub
    (canceled.find? fun sub => sub.id == subscriptionId, canceled)
  retrieveCharge _ chargeId := some ⟨chargeId, some chargeId, true, 0, 0⟩
  listInvoicePayments _ paymentIntentId := some (some paymentIntentId)
  retrieveInvoice _ invoiceId := some ⟨invoiceId, some invoiceId⟩

/-- A monthly Pro subscription of the organization 1. -/
def proSubscription (id : String) (status : StripeSubscriptionStatus) : StripeSubscription where
  id := id
  customer := some "cus_1"
  organizationId := some 1
  items := [⟨⟨"price_monthly", some "prod_pro", some .month⟩, 100, 200⟩]
  status := status
  automatic_tax := false
  cancel_at_period_end := false
  trial_start := none
  trial_end := none
  canceled_at := none
  ended_at := none
  latest_invoice := none

def selling (stripe : StripeApi Remote) : Environment Remote where
  stripe := stripe
  stripeProProductId := "prod_pro"
  stripeProMonthlyPriceId := "price_monthly"
  stripeProAnnualPriceId := "price_annual"
  stripeAutomaticTaxEnabled := false
  billingTrialDays := 14
  billingGracePeriodDays := 7
  frontendUrl := "https://app.test/"

/-- One organization, and the Pro plan. -/
def acme (remote : Remote) : Store Remote where
  nextId := 2
  organizations := [⟨1, 0, "Acme", "acme", none⟩]
  plans := [⟨0, .pro, "Pro", "", "usd", 2900, 29000, [], true⟩]
  stripeCustomers := []
  checkoutSessions := []
  subscriptions := []
  processedStripeEvents := []
  notifications := []
  stripe := remote

def advances (pid n : Nat) (i : Input) : List (Action (Request Remote) Input) :=
  List.replicate n (.advance pid i)

end ShipFlow.Billing
