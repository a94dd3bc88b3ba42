import ShipFlow.Billing.WebhookService

/-! What the transactions of the webhook service leave behind. -/

namespace ShipFlow.Billing
open Interleaving Relational
open Organizations (Organization)

variable {Remote : Type} {s s' : Store Remote} {u : Unit}

section Tables

@[simp] theorem stripeCustomers_rows : stripeCustomers.rows s = s.stripeCustomers := rfl
@[simp] theorem stripeCustomers_put (rows : List StripeCustomer) :
    stripeCustomers.put rows s = { s with stripeCustomers := rows } := rfl
@[simp] theorem checkoutSessions_rows : checkoutSessions.rows s = s.checkoutSessions := rfl
@[simp] theorem checkoutSessions_put (rows : List BillingCheckoutSession) :
    checkoutSessions.put rows s = { s with checkoutSessions := rows } := rfl
@[simp] theorem subscriptions_rows : subscriptions.rows s = s.subscriptions := rfl
@[simp] theorem subscriptions_put (rows : List Subscription) :
    subscriptions.put rows s = { s with subscriptions := rows } := rfl
@[simp] theorem processedStripeEvents_rows :
    processedStripeEvents.rows s = s.processedStripeEvents := rfl
@[simp] theorem processedStripeEvents_put (rows : List ProcessedStripeEvent) :
    processedStripeEvents.put rows s = { s with processedStripeEvents := rows } := rfl
@[simp] theorem plans_rows : plans.rows s = s.plans := rfl
@[simp] theorem notifications_put (rows : List Notification) :
    (HasNotifications.notifications (σ := Store Remote)).put rows s =
      { s with notifications := rows } := rfl
@[simp] theorem takeId_eq : HasIds.takeId s = { s with nextId := s.nextId + 1 } := rfl

end Tables

/-- The row of the subscription of an organization after it has been put. -/
def putSubscription (row : Subscription) (rows : List Subscription) : List Subscription :=
  upsertRows (fun r => r.organizationId == row.organizationId) row (fun _ => row) rows

theorem subscriptionOf_put (row : Subscription) (s : Store Remote) (organizationId : Id) :
    (putSubscription row s.subscriptions).find? (fun r => r.organizationId == organizationId) =
      if row.organizationId = organizationId then some row else s.subscriptionOf organizationId := by
  by_cases h : row.organizationId = organizationId
  · subst h
    rw [if_pos rfl, putSubscription, find?_upsertRows (by simp) (by simp)]
    cases s.subscriptions.find? fun r => r.organizationId == row.organizationId <;> rfl
  · rw [if_neg h, putSubscription, find?_upsertRows_off _ (by simpa using h)]
    · rfl
    · intro r hr
      have hrow : r.organizationId = row.organizationId := by simpa using hr
      rw [hrow]
      exact ⟨by simpa using h, by simpa using h⟩

/-- The customer of an organization after it has been put. -/
def putCustomer (organizationId : Id) (stripeCustomerId : String) (trialUsedAt : Option Time)
    (rows : List StripeCustomer) : List StripeCustomer :=
  upsertRows (fun c => c.organizationId == organizationId)
    ⟨organizationId, stripeCustomerId, trialUsedAt⟩
    (fun c => { c with stripeCustomerId := stripeCustomerId }) rows

/-- The first trial of an organization is recorded for good. -/
def recordTrial (organizationId : Id) (now : Time) (rows : List StripeCustomer) :
    List StripeCustomer :=
  updateRows (fun c => c.organizationId == organizationId && c.trialUsedAt.isNone)
    (fun c => { c with trialUsedAt := some now }) rows

/-- The customers after `writeSubscription`. -/
def syncedCustomers (organizationId : Id) (sub : ProviderSubscription) (eventCreatedAt : Time)
    (rows : List StripeCustomer) : List StripeCustomer :=
  if sub.trialStart.isSome then
    recordTrial organizationId eventCreatedAt
      (putCustomer organizationId sub.customerId (some eventCreatedAt) rows)
  else putCustomer organizationId sub.customerId none rows

/-! ## Notifications -/

theorem writeNotifications_ok {now : Time} {inputs : List WriteNotificationInput}
    (h : writeNotifications now inputs s = .ok (u, s')) :
    ∃ nextId notifications,
      s' = { s with nextId := nextId, notifications := notifications } := by
  induction inputs generalizing s with
  | nil => exact ⟨s.nextId, s.notifications, ((Transaction.pure_ok _ _ _ _).mp h).2⟩
  | cons input inputs ih =>
    simp only [writeNotifications, Transaction.bind_ok] at h
    obtain ⟨_, s₁, hfirst, hrest⟩ := h
    obtain ⟨nextId, notifications, rfl⟩ := ih hrest
    rcases writeNotification_ok hfirst with rfl | ⟨rows, rfl⟩
    · exact ⟨nextId, notifications, rfl⟩
    · exact ⟨nextId, notifications, rfl⟩

theorem findOrganization_ok {organizationId : Id} {organization : Organization} :
    findOrganization organizationId s = .ok (organization, s') ↔
      s.organizations.find? (fun o => o.id == organizationId) = some organization ∧ s' = s := by
  simp only [findOrganization, Transaction.bind_ok, Transaction.reads_ok]
  cases hfound : s.organizations.find? fun o => o.id == organizationId with
  | none => simp
  | some o =>
    constructor
    · rintro ⟨_, _, ⟨rfl, rfl⟩, h⟩
      obtain ⟨rfl, rfl⟩ := (Transaction.pure_ok _ _ _ _).mp h
      exact ⟨rfl, rfl⟩
    · rintro ⟨h, rfl⟩
      cases h
      exact ⟨_, _, ⟨rfl, rfl⟩, rfl⟩

/-! ## Synchronization -/

variable {row : Subscription} {sub : ProviderSubscription} {existing : Option Subscription}
  {eventCreatedAt now : Time} {syncContext : SubscriptionSyncContext}

theorem upsert_put {σ ρ : Type} {t : Table σ ρ} {p : ρ → Bool} {r r' : ρ} {f : ρ → ρ} {s s' : σ}
    (h : (t.upsert p r f : Transaction σ Failure ρ) s = .ok (r', s')) :
    t.sound s (upsertRows p r f (t.rows s)) = true ∧ s' = t.put (upsertRows p r f (t.rows s)) s :=
  Table.upsert_rows.mp ⟨r', h⟩

theorem upsertSubscription_ok {row written : Subscription}
    (h : (subscriptions.upsert (fun r => r.organizationId == row.organizationId) row
      (fun _ => row) : Tx Remote Subscription) s = .ok (written, s')) :
    written = row ∧ s' = { s with subscriptions := putSubscription row s.subscriptions } := by
  refine ⟨?_, (upsert_put h).2⟩
  rcases Table.upsert_ok.mp h with ⟨-, -, hwritten, -⟩ | ⟨_, -, -, hwritten, -⟩
  · exact hwritten
  · exact hwritten

/-- The commit of `syncSubscription`. -/
theorem writeSubscription_ok {written : Subscription}
    (h : writeSubscription row sub existing eventCreatedAt syncContext now s = .ok (written, s')) :
    written = row ∧ ∃ nextId notifications, s' = { s with
      nextId := nextId
      checkoutSessions := s.checkoutSessions.filter fun c =>
        !(c.organizationId == row.organizationId)
      stripeCustomers := syncedCustomers row.organizationId sub eventCreatedAt s.stripeCustomers
      subscriptions := putSubscription row s.subscriptions
      notifications := notifications } := by
  simp only [writeSubscription, Transaction.bind_ok, Table.deleteMany_ok] at h
  obtain ⟨_, _, ⟨-, rfl⟩, _, s₁, hcustomer, h⟩ := h
  obtain ⟨-, rfl⟩ := upsert_put hcustomer
  cases htrial : sub.trialStart.isSome with
  | false =>
    simp only [htrial, Bool.false_eq_true, if_false, Transaction.bind_ok] at h
    obtain ⟨_, _, hrow, _, _, hfound, _, _, hnotes, hlast⟩ := h
    obtain ⟨rfl, rfl⟩ := (Transaction.pure_ok _ _ _ _).mp hlast
    obtain ⟨hwritten, rfl⟩ := upsertSubscription_ok hrow
    obtain ⟨-, rfl⟩ := findOrganization_ok.mp hfound
    obtain ⟨nextId, notifications, rfl⟩ := writeNotifications_ok hnotes
    exact ⟨hwritten, nextId, notifications, by simp [syncedCustomers, htrial, putCustomer]⟩
  | true =>
    simp only [htrial, if_true, Transaction.bind_ok, Table.updateMany_ok] at h
    obtain ⟨_, _, ⟨-, -, rfl⟩, _, _, hrow, _, _, hfound, _, _, hnotes, hlast⟩ := h
    obtain ⟨rfl, rfl⟩ := (Transaction.pure_ok _ _ _ _).mp hlast
    obtain ⟨hwritten, rfl⟩ := upsertSubscription_ok hrow
    obtain ⟨-, rfl⟩ := findOrganization_ok.mp hfound
    obtain ⟨nextId, notifications, rfl⟩ := writeNotifications_ok hnotes
    exact ⟨hwritten, nextId, notifications, by
      simp [syncedCustomers, htrial, putCustomer, recordTrial]⟩

end ShipFlow.Billing
