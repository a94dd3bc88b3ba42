import ShipFlow.Failure

/-! The notification writer, shared by the services that notify. -/

namespace ShipFlow
open Interleaving Relational

inductive NotificationCategory where
  | security
  | organization
  | billing
  deriving DecidableEq, Repr

inductive NotificationType where
  | passwordChanged
  | organizationInvitationAccepted
  | organizationRoleChanged
  | organizationMemberRemoved
  | organizationOwnershipTransferred
  | billingTrialStarted
  | billingPaymentFailed
  | billingGracePeriodStarted
  | billingCancellationScheduled
  | billingSubscriptionCanceled
  | billingFullRefund
  | billingDispute
  deriving DecidableEq, Repr

/-- The name an enumeration member has in the generated client. -/
def NotificationType.name : NotificationType → String
  | .passwordChanged => "PASSWORD_CHANGED"
  | .organizationInvitationAccepted => "ORGANIZATION_INVITATION_ACCEPTED"
  | .organizationRoleChanged => "ORGANIZATION_ROLE_CHANGED"
  | .organizationMemberRemoved => "ORGANIZATION_MEMBER_REMOVED"
  | .organizationOwnershipTransferred => "ORGANIZATION_OWNERSHIP_TRANSFERRED"
  | .billingTrialStarted => "BILLING_TRIAL_STARTED"
  | .billingPaymentFailed => "BILLING_PAYMENT_FAILED"
  | .billingGracePeriodStarted => "BILLING_GRACE_PERIOD_STARTED"
  | .billingCancellationScheduled => "BILLING_CANCELLATION_SCHEDULED"
  | .billingSubscriptionCanceled => "BILLING_SUBSCRIPTION_CANCELED"
  | .billingFullRefund => "BILLING_FULL_REFUND"
  | .billingDispute => "BILLING_DISPUTE"

structure Notification where
  id : Id
  userId : Id
  organizationId : Option Id
  category : NotificationCategory
  type : NotificationType
  title : String
  message : String
  actionPath : Option String
  metadata : List (String × Option String)
  dedupeKey : String
  expiresAt : Time
  createdAt : Time
  deriving DecidableEq, Repr

structure NotificationPreference where
  userId : Id
  organizationEnabled : Bool
  deriving DecidableEq, Repr

structure WriteNotificationInput where
  userId : Id
  organizationId : Option Id
  category : NotificationCategory
  type : NotificationType
  title : String
  message : String
  actionPath : Option String
  metadata : List (String × Option String)
  dedupeKey : String
  createdAt : Option Time

def NOTIFICATION_RETENTION_DAYS : Int := 90

/-- A store with the two tables the writer uses. -/
class HasNotifications (σ : Type) extends HasIds σ where
  notifications : Table σ Notification
  notificationPreferences : σ → List NotificationPreference

def Notification.collides (a b : Notification) : Bool :=
  a.id == b.id || (a.userId == b.userId && a.dedupeKey == b.dedupeKey)

def notificationCreatedAt (createdAt : Option Time) (now : Time) : Time :=
  match createdAt with
  | some t => if t ≤ now then t else now
  | none => now

def writeNotification {σ : Type} [HasNotifications σ] (now : Time)
    (input : WriteNotificationInput) : Transaction σ Failure Unit := do
  let disabled ← Transaction.reads fun s : σ =>
    input.category == .organization &&
      ((HasNotifications.notificationPreferences s).find? fun p =>
        p.userId == input.userId).any fun p => !p.organizationEnabled
  if disabled then
    return ()
  else
    let createdAt := notificationCreatedAt input.createdAt now
    let id ← uuidv7
    let _ ← (HasNotifications.notifications (σ := σ)).upsert
      (fun n => n.userId == input.userId && n.dedupeKey == input.dedupeKey)
      { id := id
        userId := input.userId
        organizationId := input.organizationId
        category := input.category
        type := input.type
        title := input.title
        message := input.message
        actionPath := input.actionPath
        metadata := input.metadata
        dedupeKey := input.dedupeKey
        createdAt := createdAt
        expiresAt := createdAt + days NOTIFICATION_RETENTION_DAYS }
      fun n => n
    return ()

/-- The writer changes the notifications and takes at most one identifier. -/
theorem writeNotification_ok {σ : Type} [HasNotifications σ] {now : Time}
    {input : WriteNotificationInput} {s s' : σ} {u : Unit}
    (h : writeNotification now input s = .ok (u, s')) :
    s' = s ∨ ∃ rows, s' = (HasNotifications.notifications (σ := σ)).put rows (HasIds.takeId s) := by
  simp only [writeNotification, Transaction.bind_ok, Transaction.reads_ok] at h
  obtain ⟨disabled, s₁, ⟨-, hs⟩, h⟩ := h
  subst s₁
  cases disabled with
  | true =>
    simp only [if_true, Transaction.pure_ok] at h
    exact .inl h.2
  | false =>
    simp only [Bool.false_eq_true, if_false, Transaction.bind_ok, Transaction.pure_ok] at h
    obtain ⟨_, _, hid, _, s₂, hup, -, rfl⟩ := h
    obtain ⟨rfl, rfl⟩ := uuidv7_ok.mp hid
    rcases Table.upsert_ok.mp hup with ⟨-, -, -, rfl⟩ | ⟨_, -, -, -, rfl⟩
    · exact .inr ⟨_, rfl⟩
    · exact .inr ⟨_, rfl⟩

end ShipFlow
