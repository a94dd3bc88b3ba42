import ShipFlow.Billing.Entitlement

/-! `BillingService`: how an organization gets to a Checkout session. -/

namespace ShipFlow.Billing
open Interleaving Relational

structure Environment (Remote : Type) where
  stripe : StripeApi Remote
  stripeProProductId : String
  stripeProMonthlyPriceId : String
  stripeProAnnualPriceId : String
  stripeAutomaticTaxEnabled : Bool
  billingTrialDays : Nat
  billingGracePeriodDays : Int
  frontendUrl : String

variable {Remote : Type} (env : Environment Remote)

/-- `CHECKOUT_CREATION_LOCK_MS` -/
def checkoutCreationLockMs : Time := minutes 5

/-- A string that is there and not empty. -/
def truthy (text : Option String) : Bool := text.any fun t => t != ""

/-! ## Provider calls -/

/-- The calls of the provider, each with its answer. -/
inductive StripeCall : Type → Type where
  | createCustomer (input : CustomerInput) (idempotencyKey : String) : StripeCall String
  | createCheckoutSession (input : CheckoutInput) (idempotencyKey : Id) :
    StripeCall ProviderCheckoutSession
  | retrieveSubscription (subscriptionId : String) : StripeCall ProviderSubscription
  | cancelSubscriptionNow (subscriptionId : String) : StripeCall ProviderSubscription
  | resolveSubscriptionForCharge (chargeId : String) : StripeCall (Option String)

namespace StripeCall
variable {α : Type}

def perform (stripe : StripeApi Remote) : StripeCall α → Remote → Except Failure α × Remote
  | .createCustomer input idempotencyKey, remote => stripe.newCustomer input idempotencyKey remote
  | .createCheckoutSession input idempotencyKey, remote =>
    stripe.newCheckoutSession input idempotencyKey remote
  | .retrieveSubscription subscriptionId, remote => (stripe.retrieve subscriptionId remote, remote)
  | .cancelSubscriptionNow subscriptionId, remote =>
    stripe.cancelSubscriptionNow subscriptionId remote
  | .resolveSubscriptionForCharge chargeId, remote =>
    (stripe.resolveSubscriptionForCharge chargeId remote, remote)

/-- What is seen of a call and of its answer. -/
def observed : StripeCall α → Except Failure α → List Event
  | .createCheckoutSession input idempotencyKey, answer =>
    [.checkoutRequested input idempotencyKey answer.toOption]
  | _, _ => []

end StripeCall

/-- A call of Stripe is one atomic action, which Stripe may carry out although its answer
is an error. -/
def callStripe {α : Type} (call : StripeCall α) : Handler Remote α := do
  let answer ← Process.atomically
    (fun _ s => .ok ((call.perform env.stripe s.stripe).1,
      { s with stripe := (call.perform env.stripe s.stripe).2 })) fun
    | .ok answer => call.observed answer
    | .error _ => []
  Process.ofExcept answer

/-! ## Checkout -/

/-- The organization of the `OrganizationContext` of a request. -/
structure OrganizationContext where
  organizationId : Id
  organizationName : String
  ownerEmail : String
  deriving DecidableEq, Repr

def isManagedSubscription : SubscriptionStatus → Bool
  | .active | .trialing | .pastDue | .incomplete => true
  | .incompleteExpired | .canceled | .unpaid | .paused => false

def priceId : BillingInterval → String
  | .annual => env.stripeProAnnualPriceId
  | .monthly => env.stripeProMonthlyPriceId

def dropTrailingSlash (url : String) : String :=
  match url.toList.reverse with
  | '/' :: rest => String.ofList rest.reverse
  | _ => url

def checkSubscription (organizationId : Id) : Handler Remote (Option SubscriptionStatus) :=
  Process.atomically
    (fun _ => Transaction.reads fun s : Store Remote =>
      (s.subscriptionOf organizationId).map Subscription.status) fun
    | .ok status => [.subscriptionChecked organizationId status]
    | .error _ => []

def ensureCustomer (context : OrganizationContext) : Handler Remote StripeCustomer := do
  let existing ← Process.statement <| stripeCustomers.findFirst fun c =>
    c.organizationId == context.organizationId
  match existing with
  | some customer => return customer
  | none => do
    let customerId ← callStripe env <| .createCustomer
      ⟨context.organizationId, context.organizationName, context.ownerEmail⟩
      s!"customer:{context.organizationId}"
    -- another request may have written the customer by now
    Process.statement <| stripeCustomers.upsert
      (fun c => c.organizationId == context.organizationId)
      ⟨context.organizationId, customerId, none⟩ fun c => c

def staleCreation (existing : BillingCheckoutSession) (now : Time) : Bool :=
  !truthy existing.stripeSessionId && !truthy existing.checkoutUrl &&
    existing.createdAt ≤ now - checkoutCreationLockMs

def Release.selects : Release → BillingCheckoutSession → Bool
  | .stale reservationId now, c =>
    c.id == reservationId && c.stripeSessionId.isNone && c.checkoutUrl.isNone &&
      c.createdAt ≤ now - checkoutCreationLockMs
  | .expired reservationId now, c => c.id == reservationId && c.expiresAt ≤ now
  | .failed reservationId requestKey, c =>
    c.id == reservationId && c.requestKey == requestKey && c.stripeSessionId.isNone
  | .completed sessionId, c => c.stripeSessionId == some sessionId

def releaseReservations (release : Release) : Handler Remote Nat :=
  Process.atomically (fun _ => checkoutSessions.deleteMany release.selects) fun
    | .ok _ => [.released release]
    | .error _ => []

/-- A reservation with a `randomUUID()` of its own. -/
def newReservation (organizationId : Id) (interval : BillingInterval) (now createdAt : Time) :
    Tx Remote BillingCheckoutSession := do
  let id ← uuidv7
  let requestKey ← uuidv7
  checkoutSessions.create
    { id := id
      organizationId := organizationId
      requestKey := requestKey
      interval := interval
      stripeSessionId := none
      checkoutUrl := none
      expiresAt := now + hours 24
      createdAt := createdAt }

/-- The end of an attempt; a reservation that another request made sends it to the next
attempt. -/
def tryReserve (organizationId : Id) (interval : BillingInterval) (now : Time)
    (retry : Handler Remote BillingCheckoutSession) : Handler Remote BillingCheckoutSession :=
  tryCatch
    (Process.atomically (fun i => newReservation organizationId interval now i.now) fun
      | .ok reservation => [.reserved reservation]
      | .error _ => [])
    fun error => if error.isUniqueConstraintError then retry else throw error

def reserveAttempts (organizationId : Id) (interval : BillingInterval) :
    Nat → Handler Remote BillingCheckoutSession
  | 0 => throw (.http .conflict "A Checkout session is already being created")
  | attempts + 1 => do
    let retry := reserveAttempts organizationId interval attempts
    let now ← Process.ask Input.now
    let existing ← Process.statement <| checkoutSessions.findFirst fun c =>
      c.organizationId == organizationId
    match existing with
    | none => tryReserve organizationId interval now retry
    | some existing =>
      if now < existing.expiresAt then
        if staleCreation existing now then
          let deleted ← releaseReservations (.stale existing.id now)
          -- another request has filled the reservation in, or claimed it too
          if deleted == 0 then retry else tryReserve organizationId interval now retry
        else
          Process.rejectIf (existing.interval != interval)
            (.http .conflict "A Checkout session for another billing interval is still open")
          return existing
      else
        let _ ← releaseReservations (.expired existing.id now)
        tryReserve organizationId interval now retry

def reserveCheckout (organizationId : Id) (interval : BillingInterval) :
    Handler Remote BillingCheckoutSession := reserveAttempts organizationId interval 3

def checkoutInput (context : OrganizationContext) (interval : BillingInterval)
    (customer : StripeCustomer) : CheckoutInput where
  customerId := customer.stripeCustomerId
  organizationId := context.organizationId
  interval := interval
  priceId := priceId env interval
  trialDays := if customer.trialUsedAt.isSome then none else some env.billingTrialDays
  successUrl := dropTrailingSlash env.frontendUrl ++
    "/billing?checkout=success&session_id=\x7bCHECKOUT_SESSION_ID\x7d"
  cancelUrl := dropTrailingSlash env.frontendUrl ++ "/billing?checkout=canceled"
  automaticTaxEnabled := env.stripeAutomaticTaxEnabled

/-- The session of Stripe is recorded in the reservation, or in a new one for the same
key when the reservation is gone. -/
def recordSession (reservation : BillingCheckoutSession) (interval : BillingInterval)
    (session : ProviderCheckoutSession) (now : Time) : Tx Remote Unit := do
  let expiresAt := session.expiresAt.getD (now + hours 24)
  let id ← uuidv7
  let _ ← checkoutSessions.upsert (fun c => c.requestKey == reservation.requestKey)
    { id := id
      organizationId := reservation.organizationId
      requestKey := reservation.requestKey
      interval := interval
      stripeSessionId := some session.sessionId
      checkoutUrl := some session.url
      expiresAt := expiresAt
      createdAt := now }
    fun c => { c with
      stripeSessionId := some session.sessionId
      checkoutUrl := some session.url
      expiresAt := expiresAt }

def createCheckoutSession (context : OrganizationContext) (interval : BillingInterval) :
    Handler Remote ProviderCheckoutSession := do
  let existingSubscription ← checkSubscription context.organizationId
  Process.rejectIf (existingSubscription.any isManagedSubscription)
    (.http .conflict "This organization already has a subscription; use the billing portal")
  let customer ← ensureCustomer env context
  let reservation ← reserveCheckout context.organizationId interval
  if truthy reservation.stripeSessionId && truthy reservation.checkoutUrl then
    return {
      sessionId := reservation.stripeSessionId.getD ""
      url := reservation.checkoutUrl.getD ""
      expiresAt := some reservation.expiresAt }
  else
    let session ← tryCatch
      (callStripe env <| .createCheckoutSession (checkoutInput env context interval customer)
        reservation.requestKey)
      fun error => do
        -- Stripe may have opened the session although its answer is lost
        let _ ← releaseReservations (.failed reservation.id reservation.requestKey)
        throw error
    Process.atomically (fun i => recordSession reservation interval session i.now) fun _ => []
    return session

end ShipFlow.Billing
