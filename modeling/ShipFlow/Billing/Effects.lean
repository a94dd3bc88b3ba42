import ShipFlow.Interleaving.Discipline
import ShipFlow.Billing.Transactions

/-! Everything one atomic action of a billing request can do, and that the requests do
nothing else in any interleaving. -/

namespace ShipFlow.Billing
open Interleaving Interleaving.Discipline Relational

variable {Remote : Type} {env : Environment Remote}

def SoundReservations (rows : List BillingCheckoutSession) : Prop :=
  rows.Pairwise fun a b => a.collides b = false

theorem soundReservations_of_sound {s : Store Remote} {rows : List BillingCheckoutSession}
    (h : checkoutSessions.sound s rows = true) : SoundReservations rows := Table.sound.pairwise h

/-- The date of the last event that the row of the organization was written for. -/
def Store.lastEventAt (s : Store Remote) (organizationId : Id) : Option Time :=
  (s.subscriptionOf organizationId).map Subscription.lastStripeEventCreatedAt

def Event.syncedAt (organizationId : Id) : Event → Option Time
  | .synced row =>
    if row.organizationId == organizationId then some row.lastStripeEventCreatedAt else none
  | _ => none

/-- The date of the last sync of the organization, or else `start`. -/
def lastSynced (organizationId : Id) (start : Option Time) (t : List (Nat × Event)) : Option Time :=
  (t.filterMap fun x => x.2.syncedAt organizationId).getLast?.or start

theorem lastSynced_append (organizationId : Id) (start : Option Time) (t t' : List (Nat × Event)) :
    lastSynced organizationId start (t ++ t') =
      lastSynced organizationId (lastSynced organizationId start t) t' := by
  rw [lastSynced, lastSynced, lastSynced, List.filterMap_append, List.getLast?_append, Option.or_assoc]

/-- The request has found `last` as the date of the row, and has followed the row since
then. -/
def Found (pid : Nat) (organizationId : Id) (last : Option Time) (w : World Remote) : Prop :=
  ∃ before since, w.trace = before ++ (pid, .subscriptionRead organizationId) :: since ∧
    w.store.lastEventAt organizationId = lastSynced organizationId last since

/-- The request has found that the organization has no subscription that would keep it from
another Checkout session. -/
def Unsubscribed (pid : Nat) (organizationId : Id) (w : World Remote) : Prop :=
  ∃ status, (pid, .subscriptionChecked organizationId status) ∈ w.trace ∧
    status.any isManagedSubscription = false

/-- Stripe has given the request this session for the key. -/
def Answered (pid : Nat) (requestKey : Id) (session : ProviderCheckoutSession) (w : World Remote) :
    Prop :=
  ∃ input, (pid, .checkoutRequested input requestKey (some session)) ∈ w.trace

/-- The reservations after a session has been recorded. -/
def recordIn (reservation : BillingCheckoutSession) (id : Id) (interval : BillingInterval)
    (session : ProviderCheckoutSession) (expiresAt now : Time)
    (rows : List BillingCheckoutSession) : List BillingCheckoutSession :=
  upsertRows (fun c => c.requestKey == reservation.requestKey)
    { id := id
      organizationId := reservation.organizationId
      requestKey := reservation.requestKey
      interval := interval
      stripeSessionId := some session.sessionId
      checkoutUrl := some session.url
      expiresAt := expiresAt
      createdAt := now }
    (fun c => { c with
      stripeSessionId := some session.sessionId
      checkoutUrl := some session.url
      expiresAt := expiresAt })
    rows

inductive Effect (env : Environment Remote) (pid : Nat) (w : World Remote) :
    World Remote → Prop where
  | idle : Effect env pid w w
  | stripeChanged (remote : Remote) :
    Effect env pid w (w.advance pid ({ w.store with stripe := remote }, [.stripeChanged]))
  | called {α : Type} (call : StripeCall α) :
    Effect env pid w (w.advance pid
      ({ w.store with stripe := (call.perform env.stripe w.store.stripe).2 },
        call.observed (call.perform env.stripe w.store.stripe).1))
  | checked (organizationId : Id) (status : Option SubscriptionStatus) :
    Effect env pid w (w.advance pid (w.store, [.subscriptionChecked organizationId status]))
  | reserved (nextId : Id) (c : BillingCheckoutSession)
      (hsound : SoundReservations (w.store.checkoutSessions ++ [c]))
      (hunrecorded : c.stripeSessionId = none) (hchecked : Unsubscribed pid c.organizationId w) :
    Effect env pid w (w.advance pid
      ({ w.store with
          nextId := nextId, checkoutSessions := w.store.checkoutSessions ++ [c] }, [.reserved c]))
  | recorded (nextId : Id) (reservation : BillingCheckoutSession) (id : Id)
      (interval : BillingInterval) (session : ProviderCheckoutSession) (expiresAt now : Time)
      (hsound : SoundReservations
        (recordIn reservation id interval session expiresAt now w.store.checkoutSessions))
      (hanswered : Answered pid reservation.requestKey session w) :
    Effect env pid w (w.advance pid
      ({ w.store with
          nextId := nextId
          checkoutSessions :=
            recordIn reservation id interval session expiresAt now w.store.checkoutSessions }, []))
  | released (release : Release) :
    Effect env pid w (w.advance pid
      ({ w.store with
          checkoutSessions := w.store.checkoutSessions.filter fun c => !release.selects c },
        [.released release]))
  | customers (rows : List StripeCustomer) :
    Effect env pid w (w.advance pid ({ w.store with stripeCustomers := rows }, []))
  | subscriptionRead (organizationId : Id) :
    Effect env pid w (w.advance pid (w.store, [.subscriptionRead organizationId]))
  | synced (row : Subscription) (nextId : Id)
      (customers : List StripeCustomer) (notifications : List Notification) (last : Option Time)
      (hfound : Found pid row.organizationId last w)
      (hlater : ∀ t ∈ last, t < row.lastStripeEventCreatedAt) :
    Effect env pid w (w.advance pid
      ({ w.store with
          nextId := nextId
          checkoutSessions := w.store.checkoutSessions.filter fun c =>
            !(c.organizationId == row.organizationId)
          stripeCustomers := customers
          subscriptions := putSubscription row w.store.subscriptions
          notifications := notifications },
        [.synced row]))
  | notified (nextId : Id) (notifications : List Notification) :
    Effect env pid w (w.advance pid
      ({ w.store with nextId := nextId, notifications := notifications }, []))
  | processed (rows : List ProcessedStripeEvent) :
    Effect env pid w (w.advance pid ({ w.store with processedStripeEvents := rows }, []))

abbrev discipline (env : Environment Remote) : Discipline (Store Remote) Event where
  inv _ := True
  effect := Effect env
  idle _ _ := .idle
  kept _ _ _ _ _ := True.intro

section Effects
variable {pid : Nat} {w w' : World Remote} {α : Type}

theorem Effect.trace_eq (h : Effect env pid w w') : w'.trace = w.trace ++ w.newEvents w' := by
  cases h with
  | idle => simp
  | _ => simp [World.newEvents]

/-- The calls of Stripe say nothing of the dates. -/
theorem StripeCall.observed_syncedAt (call : StripeCall α) (answer : Except Failure α)
    (organizationId : Id) :
    ∀ e ∈ call.observed answer, e.syncedAt organizationId = none := by
  cases call with
  | createCheckoutSession input key =>
    intro e he
    rw [List.mem_singleton.mp he]
    rfl
  | _ => exact fun e he => absurd he List.not_mem_nil

/-- Only a sync moves the date of a row. -/
theorem Effect.lastEventAt (h : Effect env pid w w') (organizationId : Id) :
    w'.store.lastEventAt organizationId =
      lastSynced organizationId (w.store.lastEventAt organizationId) (w.newEvents w') := by
  cases h with
  | synced row nextId customers notifications last hfound hlater =>
    rw [World.newEvents_advance]
    simp only [Store.lastEventAt, Store.subscriptionOf, World.advance_store]
    rw [subscriptionOf_put]
    by_cases h : row.organizationId = organizationId
    · simp [lastSynced, Event.syncedAt, h]
    · simp [lastSynced, Event.syncedAt, h, Store.subscriptionOf]
  | called call =>
    have hquiet : ((call.observed (call.perform env.stripe w.store.stripe).1).map
        fun e => (pid, e)).filterMap (fun x => x.2.syncedAt organizationId) = [] := by
      rw [List.filterMap_map]
      exact List.filterMap_eq_nil_iff.mpr (call.observed_syncedAt _ organizationId)
    rw [World.newEvents_advance, lastSynced, hquiet]
    rfl
  | idle => simp [lastSynced]
  | _ => simp [Store.lastEventAt, Store.subscriptionOf, lastSynced, Event.syncedAt]

theorem mem_trace_stable (x : Nat × Event) : (discipline env).Stable fun w => x ∈ w.trace := by
  intro q w w' _ _ he hx
  rw [he.trace_eq]
  exact List.mem_append_left _ hx

theorem unsubscribed_stable (pid : Nat) (organizationId : Id) :
    (discipline env).Stable (Unsubscribed pid organizationId) := by
  rintro q w w' hw hw' he ⟨status, hmem, hstatus⟩
  exact ⟨status, mem_trace_stable _ q w w' hw hw' he hmem, hstatus⟩

theorem answered_stable (pid : Nat) (requestKey : Id) (session : ProviderCheckoutSession) :
    (discipline env).Stable (Answered pid requestKey session) := by
  rintro q w w' hw hw' he ⟨input, hmem⟩
  exact ⟨input, mem_trace_stable _ q w w' hw hw' he hmem⟩

theorem found_stable (pid : Nat) (organizationId : Id) (last : Option Time) :
    (discipline env).Stable (Found pid organizationId last) := by
  rintro q w w' - - he ⟨before, since, htrace, hlast⟩
  refine ⟨before, since ++ w.newEvents w', ?_, ?_⟩
  · rw [he.trace_eq, htrace]
    simp
  · rw [he.lastEventAt, hlast, lastSynced_append]

end Effects
end ShipFlow.Billing
