import ShipFlow.Failure

/-! `StripeBillingProvider`, over the Stripe API that it calls. -/

namespace ShipFlow.Billing
open Interleaving

inductive SubscriptionStatus where
  | incomplete
  | incompleteExpired
  | trialing
  | active
  | pastDue
  | canceled
  | unpaid
  | paused
  deriving DecidableEq, Repr

inductive BillingInterval where
  | monthly
  | annual
  deriving DecidableEq, Repr

/-! ## Stripe objects -/

inductive StripeSubscriptionStatus where
  | active
  | canceled
  | incomplete
  | incomplete_expired
  | past_due
  | paused
  | trialing
  | unpaid
  deriving DecidableEq, Repr

inductive StripeRecurringInterval where
  | day
  | week
  | month
  | year
  deriving DecidableEq, Repr

structure StripePrice where
  id : String
  product : Option String
  recurring : Option StripeRecurringInterval
  deriving DecidableEq, Repr

structure StripeSubscriptionItem where
  price : StripePrice
  current_period_start : Int
  current_period_end : Int
  deriving DecidableEq, Repr

/-- The organization of the metadata is a UUID of the database. -/
structure StripeSubscription where
  id : String
  customer : Option String
  organizationId : Option Id
  items : List StripeSubscriptionItem
  status : StripeSubscriptionStatus
  automatic_tax : Bool
  cancel_at_period_end : Bool
  trial_start : Option Int
  trial_end : Option Int
  canceled_at : Option Int
  ended_at : Option Int
  latest_invoice : Option String
  deriving DecidableEq, Repr

structure StripeCheckoutSession where
  id : String
  customer : Option String
  client_reference_id : Option Id
  organizationId : Option Id
  subscription : Option String
  url : Option String
  expires_at : Option Int
  deriving DecidableEq, Repr

structure StripeInvoice where
  id : String
  subscription : Option String
  deriving DecidableEq, Repr

structure StripeCharge where
  id : String
  payment_intent : Option String
  refunded : Bool
  amount_refunded : Int
  amount : Int
  deriving DecidableEq, Repr

structure StripeDispute where
  id : String
  charge : Option String
  deriving DecidableEq, Repr

inductive StripeSubscriptionEvent where
  | created
  | updated
  | deleted
  deriving DecidableEq, Repr

inductive StripeInvoiceEvent where
  | paid
  | payment_failed
  deriving DecidableEq, Repr

inductive StripeEventData where
  | checkoutSessionCompleted (session : StripeCheckoutSession)
  | customerSubscription (change : StripeSubscriptionEvent) (subscription : StripeSubscription)
  | invoice (change : StripeInvoiceEvent) (invoice : StripeInvoice)
  | chargeRefunded (charge : StripeCharge)
  | chargeDisputeCreated (dispute : StripeDispute)
  | other (type : String) (objectId : Option String)
  deriving DecidableEq, Repr

structure StripeEvent where
  id : String
  created : Int
  data : StripeEventData
  deriving DecidableEq, Repr

def StripeEventData.type : StripeEventData → String
  | .checkoutSessionCompleted _ => "checkout.session.completed"
  | .customerSubscription .created _ => "customer.subscription.created"
  | .customerSubscription .updated _ => "customer.subscription.updated"
  | .customerSubscription .deleted _ => "customer.subscription.deleted"
  | .invoice .paid _ => "invoice.paid"
  | .invoice .payment_failed _ => "invoice.payment_failed"
  | .chargeRefunded _ => "charge.refunded"
  | .chargeDisputeCreated _ => "charge.dispute.created"
  | .other type _ => type

/-- `eventObjectId` of `event.data.object`. -/
def StripeEventData.objectId : StripeEventData → Option String
  | .checkoutSessionCompleted session => some session.id
  | .customerSubscription _ subscription => some subscription.id
  | .invoice _ object => some object.id
  | .chargeRefunded charge => some charge.id
  | .chargeDisputeCreated dispute => some dispute.id
  | .other _ objectId => objectId

structure StripeCustomerParams where
  email : String
  name : String
  description : String
  organizationId : Id
  deriving DecidableEq, Repr

structure StripeCustomerUpdate where
  address : String
  name : String
  deriving DecidableEq, Repr

structure StripeLineItem where
  price : String
  quantity : Nat
  deriving DecidableEq, Repr

structure StripeSubscriptionData where
  organizationId : Id
  planCode : String
  interval : BillingInterval
  trial_period_days : Option Nat
  deriving DecidableEq, Repr

structure StripeCheckoutSessionParams where
  mode : String
  customer : String
  client_reference_id : Id
  success_url : String
  cancel_url : String
  payment_method_collection : String
  billing_address_collection : String
  customer_update : StripeCustomerUpdate
  tax_id_collection : Bool
  automatic_tax : Bool
  line_items : List StripeLineItem
  organizationId : Id
  interval : BillingInterval
  subscription_data : StripeSubscriptionData
  deriving DecidableEq, Repr

/-- The calls of the Stripe SDK. `Remote` is the state of Stripe, and a call that throws
gives nothing, though Stripe may have acted on it. `constructEvent` also checks the age of
the signature. -/
structure StripeApi (Remote : Type) where
  constructEvent : (rawBody signature : String) → (now : Time) → Option StripeEvent
  createCustomer : Remote → StripeCustomerParams → (idempotencyKey : String) →
    Option String × Remote
  createCheckoutSession : Remote → StripeCheckoutSessionParams → (idempotencyKey : Id) →
    Option StripeCheckoutSession × Remote
  retrieveSubscription : Remote → String → Option StripeSubscription
  cancelSubscription : Remote → String → Option StripeSubscription × Remote
  retrieveCharge : Remote → String → Option StripeCharge
  /-- the invoice of the first payment of a payment intent -/
  listInvoicePayments : Remote → String → Option (Option String)
  retrieveInvoice : Remote → String → Option StripeInvoice

/-! ## The provider -/

structure ProviderCheckoutSession where
  sessionId : String
  url : String
  expiresAt : Option Time
  deriving DecidableEq, Repr

/-- The input of `createCustomer`. -/
structure CustomerInput where
  organizationId : Id
  organizationName : String
  ownerEmail : String
  deriving DecidableEq, Repr

/-- The input of `createCheckoutSession`. -/
structure CheckoutInput where
  customerId : String
  organizationId : Id
  interval : BillingInterval
  priceId : String
  trialDays : Option Nat
  successUrl : String
  cancelUrl : String
  automaticTaxEnabled : Bool
  deriving DecidableEq, Repr

structure ProviderSubscription where
  id : String
  customerId : String
  organizationId : Option Id
  productId : String
  priceId : String
  interval : BillingInterval
  status : SubscriptionStatus
  automaticTaxEnabled : Bool
  cancelAtPeriodEnd : Bool
  currentPeriodStart : Time
  currentPeriodEnd : Time
  trialStart : Option Time
  trialEnd : Option Time
  canceledAt : Option Time
  endedAt : Option Time
  latestInvoiceId : Option String
  deriving DecidableEq, Repr

inductive BillingWebhookEventKind where
  | checkoutCompleted (sessionId customerId : String) (organizationId : Option Id)
      (subscriptionId : Option String)
  | subscriptionChanged (subscription : ProviderSubscription)
  | invoiceChanged (invoiceId : String) (subscriptionId : Option String)
  | chargeRefunded (chargeId : String) (fullyRefunded : Bool)
  | chargeDisputed (chargeId : String)
  | unsupported
  deriving DecidableEq, Repr

structure BillingWebhookEvent where
  id : String
  type : String
  createdAt : Time
  providerObjectId : Option String
  kind : BillingWebhookEventKind
  deriving DecidableEq, Repr

def subscriptionStatus : StripeSubscriptionStatus → SubscriptionStatus
  | .active => .active
  | .canceled => .canceled
  | .incomplete => .incomplete
  | .incomplete_expired => .incompleteExpired
  | .past_due => .pastDue
  | .paused => .paused
  | .trialing => .trialing
  | .unpaid => .unpaid

def mapSubscription (subscription : StripeSubscription) : Except Failure ProviderSubscription :=
  match subscription.items with
  | [] => throw (.error "Stripe subscription has no recurring price item")
  | item :: _ =>
    match item.price.recurring with
    | none => throw (.error "Stripe subscription has no recurring price item")
    | some interval =>
      match subscription.customer with
      | none => throw (.error "Stripe subscription has no customer")
      | some customerId =>
        return {
          id := subscription.id
          customerId := customerId
          organizationId := subscription.organizationId
          productId := item.price.product.getD ""
          priceId := item.price.id
          interval := if interval == .year then .annual else .monthly
          status := subscriptionStatus subscription.status
          automaticTaxEnabled := subscription.automatic_tax
          cancelAtPeriodEnd := subscription.cancel_at_period_end
          currentPeriodStart := seconds item.current_period_start
          currentPeriodEnd := seconds item.current_period_end
          trialStart := subscription.trial_start.map seconds
          trialEnd := subscription.trial_end.map seconds
          canceledAt := subscription.canceled_at.map seconds
          endedAt := subscription.ended_at.map seconds
          latestInvoiceId := subscription.latest_invoice }

def mapWebhookEventKind : StripeEventData → Except Failure BillingWebhookEventKind
  | .checkoutSessionCompleted session =>
    match session.customer with
    | none => return .unsupported
    | some customerId =>
      return .checkoutCompleted session.id customerId
        (session.client_reference_id.or session.organizationId) session.subscription
  | .customerSubscription _ subscription => .subscriptionChanged <$> mapSubscription subscription
  | .invoice _ invoice => return .invoiceChanged invoice.id invoice.subscription
  | .chargeRefunded charge =>
    return .chargeRefunded charge.id (charge.refunded || charge.amount_refunded ≥ charge.amount)
  | .chargeDisputeCreated dispute => return .chargeDisputed (dispute.charge.getD "")
  | .other _ _ => return .unsupported

def mapWebhookEvent (event : StripeEvent) : Except Failure BillingWebhookEvent := do
  let kind ← mapWebhookEventKind event.data
  return {
    id := event.id
    type := event.data.type
    createdAt := seconds event.created
    providerObjectId := event.data.objectId
    kind := kind }

namespace StripeApi
variable {Remote : Type} (stripe : StripeApi Remote)

def unavailable : Failure := .error "The Stripe API is unavailable"

def verifyWebhook (rawBody signature : String) (now : Time) : Except Failure BillingWebhookEvent :=
  match stripe.constructEvent rawBody signature now with
  | none => throw (.error "No signatures found matching the expected signature for payload")
  | some event => mapWebhookEvent event

def customerParams (input : CustomerInput) : StripeCustomerParams where
  email := input.ownerEmail
  name := input.organizationName
  description := s!"ShipFlow organization {input.organizationId}"
  organizationId := input.organizationId

def newCustomer (input : CustomerInput) (idempotencyKey : String) (remote : Remote) :
    Except Failure String × Remote :=
  match stripe.createCustomer remote (customerParams input) idempotencyKey with
  | (none, remote') => (throw unavailable, remote')
  | (some customerId, remote') => (return customerId, remote')

/-- A trial of no days is none. -/
def checkoutSessionParams (input : CheckoutInput) : StripeCheckoutSessionParams where
  mode := "subscription"
  customer := input.customerId
  client_reference_id := input.organizationId
  success_url := input.successUrl
  cancel_url := input.cancelUrl
  payment_method_collection := "always"
  billing_address_collection := "required"
  customer_update := ⟨"auto", "auto"⟩
  tax_id_collection := true
  automatic_tax := input.automaticTaxEnabled
  line_items := [⟨input.priceId, 1⟩]
  organizationId := input.organizationId
  interval := input.interval
  subscription_data :=
    { organizationId := input.organizationId
      planCode := "pro"
      interval := input.interval
      trial_period_days := input.trialDays.filter fun n => n != 0 }

def mapCheckoutSession (session : StripeCheckoutSession) : Except Failure ProviderCheckoutSession :=
  match session.url with
  | none | some "" => throw (.error "Stripe did not return a Checkout URL")
  | some url => return ⟨session.id, url, (session.expires_at.filter fun n => n != 0).map seconds⟩

def newCheckoutSession (input : CheckoutInput) (idempotencyKey : Id) (remote : Remote) :
    Except Failure ProviderCheckoutSession × Remote :=
  match stripe.createCheckoutSession remote (checkoutSessionParams input) idempotencyKey with
  | (none, remote') => (throw unavailable, remote')
  | (some session, remote') => (mapCheckoutSession session, remote')

def retrieve (subscriptionId : String) (remote : Remote) : Except Failure ProviderSubscription :=
  match stripe.retrieveSubscription remote subscriptionId with
  | none => throw unavailable
  | some subscription => mapSubscription subscription

def cancelSubscriptionNow (subscriptionId : String) (remote : Remote) :
    Except Failure ProviderSubscription × Remote :=
  match stripe.retrieveSubscription remote subscriptionId with
  | none => (throw unavailable, remote)
  | some current =>
    if current.status == .canceled then (mapSubscription current, remote)
    else
      match stripe.cancelSubscription remote subscriptionId with
      | (none, remote') => (throw unavailable, remote')
      | (some canceled, remote') => (mapSubscription canceled, remote')

def resolveSubscriptionForCharge (chargeId : String) (remote : Remote) : Except Failure (Option String) :=
  match stripe.retrieveCharge remote chargeId with
  | none => throw unavailable
  | some charge =>
    match charge.payment_intent with
    | none => return none
    | some paymentIntentId =>
      match stripe.listInvoicePayments remote paymentIntentId with
      | none => throw unavailable
      | some none => return none
      | some (some invoiceId) =>
        match stripe.retrieveInvoice remote invoiceId with
        | none => throw unavailable
        | some invoice => return invoice.subscription

end StripeApi
end ShipFlow.Billing
