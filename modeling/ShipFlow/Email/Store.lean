import ShipFlow.Failure

/-! The deliveries of transactional e-mail and the provider events recorded for them. -/

namespace ShipFlow.Email
open Interleaving Relational

inductive EmailCategory where
  | emailVerification
  | passwordReset
  | organizationInvitation
  | securityNotice
  deriving DecidableEq, Repr

/-- The name an enumeration member has in the generated client. -/
def EmailCategory.name : EmailCategory → String
  | .emailVerification => "EMAIL_VERIFICATION"
  | .passwordReset => "PASSWORD_RESET"
  | .organizationInvitation => "ORGANIZATION_INVITATION"
  | .securityNotice => "SECURITY_NOTICE"

inductive EmailDeliveryStatus where
  | pending
  | sending
  | sent
  | delivered
  | failed
  | bounced
  | complained
  | suppressed
  deriving DecidableEq, Repr

structure EmailDelivery where
  id : Id
  category : EmailCategory
  provider : String
  providerMessageId : Option String
  recipientEmail : String
  idempotencyKey : String
  status : EmailDeliveryStatus
  attempts : Nat
  lastErrorCode : Option String
  lastErrorMessage : Option String
  sentAt : Option Time
  deliveredAt : Option Time
  failedAt : Option Time
  lastEventAt : Option Time
  deriving DecidableEq, Repr

/-- A delivery as the column defaults leave it. -/
def EmailDelivery.create (id : Id) (category : EmailCategory) (provider recipientEmail : String)
    (idempotencyKey : String) : EmailDelivery where
  id := id
  category := category
  provider := provider
  providerMessageId := none
  recipientEmail := recipientEmail
  idempotencyKey := idempotencyKey
  status := .pending
  attempts := 0
  lastErrorCode := none
  lastErrorMessage := none
  sentAt := none
  deliveredAt := none
  failedAt := none
  lastEventAt := none

structure EmailWebhookEvent where
  id : String
  eventType : String
  providerMessageId : Option String
  eventCreatedAt : Time
  deriving DecidableEq, Repr

structure Store where
  nextId : Id
  emailDeliveries : List EmailDelivery
  emailWebhookEvents : List EmailWebhookEvent
  deriving DecidableEq, Repr

def Store.empty : Store := ⟨0, [], []⟩

structure EmailProviderError where
  code : String
  retryable : Bool
  retryAfterMs : Option Nat
  deriving DecidableEq, Repr

/-- What a delivery can be interrupted by. -/
inductive EmailFailure where
  | provider (error : EmailProviderError)
  | other (failure : Failure)
  deriving DecidableEq, Repr

instance : Failures EmailFailure where
  uniqueViolation := .other .uniqueConstraint
  checkViolation := .other .constraint
  recordNotFound := .other .recordNotFound

def EmailFailure.isUniqueConstraintError : EmailFailure → Bool
  | .other failure => failure.isUniqueConstraintError
  | .provider _ => false

/-- The primary key and the unique indexes of the deliveries. -/
def EmailDelivery.collides (a b : EmailDelivery) : Bool :=
  a.id == b.id || a.idempotencyKey == b.idempotencyKey ||
    (a.providerMessageId.isSome && a.providerMessageId == b.providerMessageId)

def emailDeliveries : Table Store EmailDelivery where
  rows := Store.emailDeliveries
  put rows s := { s with emailDeliveries := rows }
  admits _ _ := true
  collides := EmailDelivery.collides

def emailWebhookEvents : Table Store EmailWebhookEvent where
  rows := Store.emailWebhookEvents
  put rows s := { s with emailWebhookEvents := rows }
  admits _ _ := true
  collides a b := a.id == b.id

instance : HasIds Store where
  nextId := Store.nextId
  takeId s := { s with nextId := s.nextId + 1 }

/-- What a request draws from outside the store: the clock, and the answer of the provider
to a message. -/
structure Input where
  now : Time
  answer : Except EmailFailure String

/-- A verified event of the provider, as far as it is read. -/
structure WebhookEventPayload where
  type : String
  createdAt : Time
  /-- `email_id`, which not every kind of event carries -/
  emailId : Option String
  deriving DecidableEq, Repr

structure EmailMessage where
  sender : String
  recipient : String
  replyTo : String
  subject : String
  html : String
  text : String
  category : String
  deriving DecidableEq, Repr

/-- What an observer of the atomic actions sees: a message goes to the provider, which
answers with an id or not at all; the id is noted in the row; and an event of the provider
is recorded. -/
inductive Event where
  | sendCalled (message : EmailMessage) (idempotencyKey : String) (messageId : Option String)
  | sent (deliveryId : Id) (messageId : String)
  | eventRecorded (eventId : String) (event : WebhookEventPayload)
  deriving DecidableEq, Repr

abbrev Tx := Transaction Store EmailFailure
abbrev Handler := Process Input Store Event EmailFailure
abbrev World := Interleaving.World Store Event

/-- The rows satisfy the unique indexes. -/
structure Store.Sound (s : Store) : Prop where
  deliveries : s.emailDeliveries.Pairwise fun a b => a.collides b = false
  events : (s.emailWebhookEvents.map EmailWebhookEvent.id).Nodup

end ShipFlow.Email
