import ShipFlow.Billing.Provider
import ShipFlow.Notifications
import ShipFlow.Organizations.Store

/-! The billing rows of the organizations. -/

namespace ShipFlow.Billing
open Interleaving Relational
open Organizations (Organization)

structure Plan where
  id : Id
  code : PlanCode
  name : String
  description : String
  currency : String
  monthlyPriceCents : Int
  annualPriceCents : Int
  features : List String
  active : Bool
  deriving DecidableEq, Repr

/-- Nothing reads the generated keys of customers and subscriptions, so their rows go
without. -/
structure StripeCustomer where
  organizationId : Id
  stripeCustomerId : String
  trialUsedAt : Option Time
  deriving DecidableEq, Repr

structure BillingCheckoutSession where
  id : Id
  organizationId : Id
  requestKey : Id
  interval : BillingInterval
  stripeSessionId : Option String
  checkoutUrl : Option String
  expiresAt : Time
  createdAt : Time
  deriving DecidableEq, Repr

structure Subscription where
  organizationId : Id
  planId : Id
  stripeSubscriptionId : String
  stripePriceId : String
  stripeLatestInvoiceId : Option String
  interval : BillingInterval
  status : SubscriptionStatus
  automaticTaxEnabled : Bool
  cancelAtPeriodEnd : Bool
  currentPeriodStart : Time
  currentPeriodEnd : Time
  trialStart : Option Time
  trialEnd : Option Time
  gracePeriodEndsAt : Option Time
  canceledAt : Option Time
  endedAt : Option Time
  lastStripeEventCreatedAt : Time
  deriving DecidableEq, Repr

structure ProcessedStripeEvent where
  id : String
  eventType : String
  providerObjectId : Option String
  eventCreatedAt : Time
  deriving DecidableEq, Repr

/-- The database, and Stripe as it is at the moment. -/
structure Store (Remote : Type) where
  nextId : Id
  organizations : List Organization
  plans : List Plan
  stripeCustomers : List StripeCustomer
  checkoutSessions : List BillingCheckoutSession
  subscriptions : List Subscription
  processedStripeEvents : List ProcessedStripeEvent
  notifications : List Notification
  stripe : Remote
  deriving Repr

/-- `subscriptions_period_check` and `subscriptions_trial_period_check`. -/
def Subscription.valid (r : Subscription) : Bool :=
  r.currentPeriodStart < r.currentPeriodEnd &&
    match r.trialStart, r.trialEnd with
    | none, none => true
    | some trialStart, some trialEnd => trialStart < trialEnd
    | _, _ => false

/-- `billing_checkout_sessions_provider_fields_check` and
`billing_checkout_sessions_expiry_check`. -/
def BillingCheckoutSession.valid (c : BillingCheckoutSession) : Bool :=
  c.stripeSessionId.isSome == c.checkoutUrl.isSome && c.createdAt < c.expiresAt

/-- The unique indexes of the reservations. -/
def BillingCheckoutSession.collides (a b : BillingCheckoutSession) : Bool :=
  a.id == b.id || a.organizationId == b.organizationId || a.requestKey == b.requestKey ||
    (a.stripeSessionId.isSome && a.stripeSessionId == b.stripeSessionId)

section Tables
variable {Remote : Type}

def plans : Table (Store Remote) Plan where
  rows := Store.plans
  put rows s := { s with plans := rows }
  admits _ _ := true
  collides a b := a.id == b.id || a.code == b.code

def stripeCustomers : Table (Store Remote) StripeCustomer where
  rows := Store.stripeCustomers
  put rows s := { s with stripeCustomers := rows }
  admits _ _ := true
  collides a b := a.organizationId == b.organizationId || a.stripeCustomerId == b.stripeCustomerId

def checkoutSessions : Table (Store Remote) BillingCheckoutSession where
  rows := Store.checkoutSessions
  put rows s := { s with checkoutSessions := rows }
  admits _ c := c.valid
  collides := BillingCheckoutSession.collides

def subscriptions : Table (Store Remote) Subscription where
  rows := Store.subscriptions
  put rows s := { s with subscriptions := rows }
  admits _ r := r.valid
  collides a b := a.organizationId == b.organizationId ||
    a.stripeSubscriptionId == b.stripeSubscriptionId

def processedStripeEvents : Table (Store Remote) ProcessedStripeEvent where
  rows := Store.processedStripeEvents
  put rows s := { s with processedStripeEvents := rows }
  admits _ _ := true
  collides a b := a.id == b.id

instance : HasNotifications (Store Remote) where
  nextId := Store.nextId
  takeId s := { s with nextId := s.nextId + 1 }
  notifications :=
    { rows := Store.notifications
      put := fun rows s => { s with notifications := rows }
      admits := fun _ _ => true
      collides := Notification.collides }
  notificationPreferences _ := []

/-- The subscription of an organization. -/
def Store.subscriptionOf (s : Store Remote) (organizationId : Id) : Option Subscription :=
  s.subscriptions.find? fun r => r.organizationId == organizationId

end Tables

/-- What a request draws from outside the store: the clock. -/
structure Input where
  now : Time

/-- The statements that delete reservations, each with the data of its filter. -/
inductive Release where
  /-- `reserveCheckout` -/
  | stale (reservationId : Id) (now : Time)
  | expired (reservationId : Id) (now : Time)
  /-- `createCheckoutSession`, when Stripe gives no session -/
  | failed (reservationId requestKey : Id)
  /-- `processCheckout` -/
  | completed (sessionId : String)
  deriving DecidableEq, Repr

/-- What an observer of the atomic actions sees: a checkout looks up the status of the
subscription, makes a reservation and asks Stripe for a session, which gives one or not; a
reservation is deleted; a delivery reads the subscription of an organization or writes it;
and Stripe changes on its own. -/
inductive Event where
  | subscriptionChecked (organizationId : Id) (status : Option SubscriptionStatus)
  | reserved (reservation : BillingCheckoutSession)
  | checkoutRequested (input : CheckoutInput) (idempotencyKey : Id)
      (answer : Option ProviderCheckoutSession)
  | released (release : Release)
  | subscriptionRead (organizationId : Id)
  | synced (row : Subscription)
  | stripeChanged
  deriving DecidableEq, Repr

abbrev Tx (Remote : Type) := Transaction (Store Remote) Failure
abbrev Handler (Remote : Type) := Process Input (Store Remote) Event Failure
abbrev World (Remote : Type) := Interleaving.World (Store Remote) Event

end ShipFlow.Billing
