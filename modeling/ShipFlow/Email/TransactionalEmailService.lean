import ShipFlow.Email.ResendWebhookService
import ShipFlow.Interleaving.Pool

/-! `TransactionalEmailService`, and the e-mail service as a whole. Pauses between attempts
and log entries touch no row and are left out. -/

namespace ShipFlow.Email
open Interleaving Relational

def MAX_DELIVERY_ATTEMPTS : Nat := 3

structure DeliveryInput where
  category : EmailCategory
  email : String
  discriminator : String
  actionPath : Option String
  organizationName : Option String
  securityMessage : Option String
  securityTitle : Option String
  deriving DecidableEq, Repr

structure TemplateInput where
  actionUrl : Option String
  category : EmailCategory
  organizationName : Option String
  securityMessage : Option String
  securityTitle : Option String
  supportEmail : String
  deriving DecidableEq, Repr

structure RenderedEmail where
  subject : String
  html : String
  text : String
  deriving DecidableEq, Repr

inductive EmailDeliveryOutcome where
  | sent
  | failed
  deriving DecidableEq, Repr

structure EmailDeliveryResult where
  deliveryId : Option Id
  providerMessageId : Option String
  status : EmailDeliveryOutcome
  deriving DecidableEq, Repr

/-- The configuration, and what the service takes from libraries. -/
structure Environment where
  toLowerCase : String → String
  /-- the hexadecimal digest -/
  sha256 : String → String
  providerName : String
  /-- the URL of a path of the frontend, with the token as its query -/
  actionUrl : String → String → String
  renderEmailTemplate : TemplateInput → Except EmailFailure RenderedEmail
  supportAddress : String
  fromName : String
  fromAddress : String
  replyTo : String

variable (env : Environment)

def idempotencyKey (input : DeliveryInput) (email : String) : String :=
  env.sha256 s!"{input.category.name}\x00{email}\x00{input.discriminator}"

def buildMessage (input : DeliveryInput) (email : String) : Except EmailFailure EmailMessage := do
  let actionUrl := input.actionPath.map fun path => env.actionUrl path input.discriminator
  let rendered ← env.renderEmailTemplate
    { actionUrl := actionUrl
      category := input.category
      organizationName := input.organizationName
      securityMessage := input.securityMessage
      securityTitle := input.securityTitle
      supportEmail := env.supportAddress }
  return {
    sender := s!"{env.fromName} <{env.fromAddress}>"
    recipient := email
    replyTo := env.replyTo
    subject := rendered.subject
    html := rendered.html
    text := rendered.text
    category := input.category.name }

def toProviderError : EmailFailure → EmailProviderError
  | .provider error => error
  | .other _ => ⟨"provider_network_error", true, none⟩

/-- `provider.send`. -/
def send (message : EmailMessage) (idempotencyKey : String) : Handler String :=
  Process.atomically (fun i s => i.answer.map fun messageId => (messageId, s)) fun
    | .ok messageId => [.sendCalled message idempotencyKey (some messageId)]
    | .error _ => [.sendCalled message idempotencyKey none]

/-! ## The updates of a row -/

namespace EmailDelivery

def startAttempt (d : EmailDelivery) : EmailDelivery :=
  { d with attempts := d.attempts + 1, status := .sending }

def markSent (messageId : String) (now : Time) (d : EmailDelivery) : EmailDelivery :=
  { d with
    failedAt := none
    lastErrorCode := none
    lastErrorMessage := none
    providerMessageId := some messageId
    sentAt := some now
    status := .sent }

def markAttemptFailed (error : EmailProviderError) (isFinalAttempt : Bool) (now : Time)
    (d : EmailDelivery) : EmailDelivery :=
  { d with
    failedAt := if isFinalAttempt then some now else none
    lastErrorCode := some error.code
    lastErrorMessage := some (
      if error.retryable then "Temporary email provider failure"
      else "Email provider rejected the request")
    status := if isFinalAttempt then .failed else .pending }

def markUnexpectedFailure (code : String) (now : Time) (d : EmailDelivery) : EmailDelivery :=
  { d with
    failedAt := some now
    lastErrorCode := some code
    lastErrorMessage := some "Transactional email delivery failed"
    status := .failed }

end EmailDelivery

def updateRow (deliveryId : Id) (f : EmailDelivery → EmailDelivery) : Tx EmailDelivery :=
  emailDeliveries.update (fun d => d.id == deliveryId) f

def touch (deliveryId : Id) (f : EmailDelivery → EmailDelivery) : Handler EmailDelivery :=
  Process.statement (updateRow deliveryId f)

/-! ## Delivery -/

/-- The body of the loop: it ends with a result or goes on to the next attempt. -/
def attempt (deliveryId : Id) (idempotencyKey : String) (message : EmailMessage)
    (number : Nat) : Handler (Option EmailDeliveryResult) := do
  let _ ← touch deliveryId EmailDelivery.startAttempt
  tryCatch
    (do
      let messageId ← send message idempotencyKey
      let now ← Process.ask Input.now
      let _ ← Process.atomically
        (fun _ => updateRow deliveryId (EmailDelivery.markSent messageId now)) fun
        | .ok _ => [.sent deliveryId messageId]
        | .error _ => []
      return some ⟨some deliveryId, some messageId, .sent⟩)
    fun error => do
      -- also where the message has been accepted and the row could not be written
      let providerError := toProviderError error
      let isFinalAttempt := !providerError.retryable || number == MAX_DELIVERY_ATTEMPTS
      let now ← Process.ask Input.now
      let _ ← touch deliveryId (EmailDelivery.markAttemptFailed providerError isFinalAttempt now)
      Process.rejectIf isFinalAttempt (.provider providerError)
      return none

def attempts (deliveryId : Id) (idempotencyKey : String) (message : EmailMessage) :
    Nat → Nat → Handler EmailDeliveryResult
  | 0, _ => return ⟨some deliveryId, none, .failed⟩
  | remaining + 1, number => do
    match ← attempt deliveryId idempotencyKey message number with
    | some result => return result
    | none => attempts deliveryId idempotencyKey message remaining (number + 1)

def attemptDelivery (deliveryId : Id) (previousAttempts : Nat) (idempotencyKey : String)
    (message : EmailMessage) : Handler EmailDeliveryResult :=
  attempts deliveryId idempotencyKey message (MAX_DELIVERY_ATTEMPTS - previousAttempts)
    (previousAttempts + 1)

def recordUnexpectedFailure (deliveryId : Id) (code : String) : Handler Unit :=
  tryCatch
    (do
      let now ← Process.ask Input.now
      let _ ← touch deliveryId (EmailDelivery.markUnexpectedFailure code now)
      return ())
    fun _ => pure ()

def findOrCreate (category : EmailCategory) (provider email idempotencyKey : String) :
    Tx EmailDelivery := do
  let id ← uuidv7
  emailDeliveries.upsert (fun d => d.idempotencyKey == idempotencyKey)
    (EmailDelivery.create id category provider email idempotencyKey) fun d => d

def deliver (input : DeliveryInput) : Handler EmailDeliveryResult := do
  let email := env.toLowerCase (trim input.email)
  let idempotencyKey := idempotencyKey env input email
  let found ← tryCatch
    (some <$> Process.statement (findOrCreate input.category env.providerName email idempotencyKey))
    -- the caller does not see an error of the database
    fun _ => pure none
  match found with
  | none => return ⟨none, none, .failed⟩
  | some existing =>
    if existing.status == .sent || existing.status == .delivered then
      return ⟨some existing.id, existing.providerMessageId, .sent⟩
    -- what was accepted and has failed since is not sent again
    else if existing.providerMessageId.any (fun messageId => messageId != "") ||
        decide (MAX_DELIVERY_ATTEMPTS ≤ existing.attempts) then
      return ⟨some existing.id, none, .failed⟩
    else
      tryCatch
        (do
          let message ← Process.ofExcept (buildMessage env input email)
          attemptDelivery existing.id existing.attempts idempotencyKey message)
        fun error => do
          let code := match error with
            | .provider providerError => providerError.code
            | .other _ => "email_delivery_internal_error"
          recordUnexpectedFailure existing.id code
          return ⟨some existing.id, none, .failed⟩

/-! ## The service -/

inductive Request where
  | deliver (input : DeliveryInput)
  | attemptDelivery (deliveryId : Id) (previousAttempts : Nat) (idempotencyKey : String)
      (message : EmailMessage)
  | recordEvent (eventId : String) (event : WebhookEventPayload)
  deriving DecidableEq

inductive Response where
  | delivery (result : EmailDeliveryResult)
  | recorded
  deriving DecidableEq

def handler : Request → Handler Response
  | .deliver input => .delivery <$> deliver env input
  | .attemptDelivery deliveryId previousAttempts idempotencyKey message =>
    .delivery <$> attemptDelivery deliveryId previousAttempts idempotencyKey message
  | .recordEvent eventId event => (fun _ => .recorded) <$> recordEvent eventId event

abbrev Config := Interleaving.Config Request Input Store Event EmailFailure Response

/-- An environment whose hash shows what it was given and whose messages are empty. -/
def Environment.transparent : Environment where
  toLowerCase := id
  sha256 := id
  providerName := "resend"
  actionUrl path token := path ++ "?token=" ++ token
  renderEmailTemplate _ := .ok ⟨"", "", ""⟩
  supportAddress := ""
  fromName := ""
  fromAddress := ""
  replyTo := ""

end ShipFlow.Email
